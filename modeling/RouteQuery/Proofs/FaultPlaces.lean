import RouteQuery.Proofs.DocumentReading
import RouteQuery.Proofs.Escaping
import RouteQuery.Proofs.Lines

/-! The place at which a text is malformed: it is one of the text, its line and column are counted there,
and they stand in the message as they are. -/
namespace RouteQuery
open Text

namespace Escape

/-- A text is read as it is when a quotation mark is behind each of its underscores. -/
theorem decodeChars_append_of_ne {cs : List Char} (h : '_' ∉ cs) (rest : List Char) :
    decodeChars (cs ++ rest) = cs ++ decodeChars rest := by
  induction cs with
  | nil => rfl
  | cons c cs ih =>
    obtain ⟨hc, hcs⟩ := not_or.mp (mt List.mem_cons.mpr h)
    rw [List.cons_append, decodeChars_of_no_token (leadingToken?_of_ne (Ne.symm hc) _), ih hcs, List.cons_append]

theorem decodeChars_cons_quote (c : Char) (rest : List Char) :
    decodeChars (c :: '"' :: rest) = c :: '"' :: decodeChars rest := by
  have hquote : decodeChars ('"' :: rest) = '"' :: decodeChars rest :=
    decodeChars_of_no_token (leadingToken?_of_ne (by decide) rest)
  have hc : leadingToken? (c :: '"' :: rest) = none := by
    by_cases hunderscore : c = '_'
    · subst hunderscore
      rfl
    · exact leadingToken?_of_ne hunderscore _
  rw [decodeChars_of_no_token hc, hquote]

end Escape

namespace SyntaxFault

theorem underscore_not_mem_toString (n : Nat) : '_' ∉ (toString n).toList := by
  have hdigits : (toString n).toList = Nat.toDigits 10 n := String.toList_ofList
  rw [hdigits]
  intro h
  have hdigit : Char.isDigit '_' = true := Nat.isDigit_of_mem_toDigits (by decide) (by decide) h
  exact absurd hdigit (by decide)

/-- What a message tells of the place. -/
def placeText (fault : SyntaxFault) : String :=
  " at line " ++ toString fault.line ++ ", column " ++ toString fault.column ++ "."

theorem underscore_not_mem_placeText (fault : SyntaxFault) : '_' ∉ fault.placeText.toList := by
  have hline := underscore_not_mem_toString fault.line
  have hcolumn := underscore_not_mem_toString fault.column
  simp only [placeText, String.toList_append, List.mem_append, not_or]
  exact ⟨⟨⟨⟨by decide, hline⟩, by decide⟩, hcolumn⟩, by decide⟩

theorem message_eq (fault : SyntaxFault) : fault.message = "Syntax Error: Unexpected " ++
    ((fault.found.elim "<EOF>" fun c => "\"" ++ String.singleton c ++ "\"") ++ fault.placeText) := by
  unfold message
  cases fault.found <;> simp only [Option.elim_none, Option.elim_some, placeText, String.append_assoc]

/-- Messages name no path, so that there is nothing in them to be decoded. -/
theorem decodeChars_message (fault : SyntaxFault) :
    Escape.decodeChars fault.message.toList = fault.message.toList := by
  have hplace : Escape.decodeChars fault.placeText.toList = fault.placeText.toList := by
    simpa using Escape.decodeChars_append_of_ne (underscore_not_mem_placeText fault) []
  have hopening : '_' ∉ "Syntax Error: Unexpected ".toList := by decide
  rw [message_eq, String.toList_append, Escape.decodeChars_append_of_ne hopening, String.toList_append]
  cases fault.found with
  | none =>
    have hend : '_' ∉ "<EOF>".toList := by decide
    rw [Option.elim_none, Escape.decodeChars_append_of_ne hend, hplace]
  | some c =>
    have hfound : ("\"" ++ String.singleton c ++ "\"").toList = ['"', c, '"'] := by
      rw [String.toList_append, String.toList_append, String.toList_singleton]
      rfl
    have hopening : '_' ∉ ['"'] := by decide
    rw [Option.elim_some, hfound]
    change _ ++ Escape.decodeChars (['"'] ++ c :: '"' :: fault.placeText.toList) = _
    rw [Escape.decodeChars_append_of_ne hopening, Escape.decodeChars_cons_quote, hplace]
    rfl

theorem decode_message (fault : SyntaxFault) : Escape.decode fault.message = fault.message := by
  rw [Escape.decode, decodeChars_message, String.ofList_toList]

/-- The line of a place is told by the lines before it, and the column by what stands before it in its
own line. -/
theorem locate_of_ended {earlier : List (List Char)} {read rest : List Char}
    (hearlier : ∀ line ∈ earlier, '\n' ∉ line) (hread : '\n' ∉ read) :
    locate (ended earlier ++ (read ++ rest)) rest =
      ⟨(trimLeft rest).head?, earlier.length + 1, read.length + 1⟩ := by
  have hbefore : (ended earlier ++ (read ++ rest)).take ((ended earlier ++ (read ++ rest)).length - rest.length) =
      ended earlier ++ read := by
    rw [← List.append_assoc, List.length_append, Nat.add_sub_cancel, List.take_left]
  have hcount : (ended earlier ++ read).count '\n' = earlier.length := by
    rw [List.count_append, count_ended hearlier, List.count_eq_zero_of_not_mem hread, Nat.add_zero]
  have hstop : StopsAt (· ≠ '\n') (ended earlier).reverse := by
    rcases List.eq_nil_or_concat earlier with rfl | ⟨lines, line, rfl⟩ <;> simp [ended]
  have hcolumn : (ended earlier ++ read).reverse.takeWhile (· ≠ '\n') = read.reverse := by
    rw [List.reverse_append, takeWhile_append_stop hstop]
    refine List.takeWhile_eq_self_iff.mpr fun c hc => ?_
    simpa using ne_of_mem_of_not_mem (List.mem_reverse.mp hc) hread
  simp only [locate, hbefore, hcount, hcolumn, List.length_reverse]

end SyntaxFault

/-! ### Places of faults -/

theorem start_suffix_of_mem_lexemes {cs : List Char} {l : Lexeme} (h : l ∈ lexemes cs) : l.start <:+ cs := by
  fun_induction lexemes cs with
  | case1 => cases h
  | case2 c cs _ ih => exact (ih h).trans (List.suffix_cons c cs)
  | case3 cs rest hend _ ih =>
    obtain ⟨comment, rfl, -, -⟩ := endOfComment?_eq_some_iff.mp hend
    exact (ih h).trans ((List.suffix_append comment rest).trans (List.suffix_cons '#' _))
  | case5 c cs _ _ _ ih =>
    rcases List.mem_cons.mp h with rfl | h
    · exact List.suffix_rfl
    · exact (ih h).trans ((List.dropWhile_suffix _).trans (List.suffix_cons c cs))
  | case6 cs _ _ _ ih | case7 cs _ _ _ _ ih | case8 cs _ _ _ _ _ ih | case9 cs _ _ _ _ _ _ ih =>
    rcases List.mem_cons.mp h with rfl | h
    · exact List.suffix_rfl
    · exact (ih h).trans (List.suffix_cons _ cs)
  | case4 | case10 =>
    obtain rfl := List.mem_singleton.mp h
    exact List.suffix_rfl

namespace Document

section
variable {text place : List Char} {ls : List Lexeme}

theorem startOf_suffix (h : ∀ l ∈ ls, l.start <:+ text) : startOf ls <:+ text := by
  cases ls with
  | nil => exact List.nil_suffix
  | cons l ls => exact h l List.mem_cons_self

theorem startOf_suffix_of_selectionSet {inner selections : List Selection}
    {outer : List (String × List Selection)} {nested : Option (List Char)} {extra : List Lexeme}
    (hls : ∀ l ∈ ls, l.start <:+ text) (h : selectionSet inner outer nested ls = .ok (selections, extra)) :
    startOf extra <:+ text := by
  obtain ⟨read, rfl, -⟩ := tokens_of_selectionSet h
  exact startOf_suffix fun l hl => hls l (List.mem_append_right read hl)

theorem getD_suffix {nested : Option (List Char)} (hnested : ∀ start ∈ nested, start <:+ text)
    (h : place <:+ text) : nested.getD place <:+ text := by
  cases nested with
  | none => exact h
  | some start => exact hnested start rfl

theorem suffix_of_selectionSet {inner : List Selection} {outer : List (String × List Selection)}
    {nested : Option (List Char)} (hnested : ∀ start ∈ nested, start <:+ text)
    (hls : ∀ l ∈ ls, l.start <:+ text) (h : selectionSet inner outer nested ls = .error place) :
    place <:+ text := by
  have hplace {l : Lexeme} {rest : List Lexeme} (hls : ∀ l' ∈ l :: rest, l'.start <:+ text) :
      l.start <:+ text ∧ ∀ l' ∈ rest, l'.start <:+ text := List.forall_mem_cons.mp hls
  fun_induction selectionSet inner outer nested ls with
  | case1 inner outer nested =>
    obtain rfl := Except.error.inj h
    exact getD_suffix hnested List.nil_suffix
  | case2 inner outer nested start rest n ih => exact ih hnested (hplace hls).2 h
  | case3 outer nested start rest n before ih =>
    refine ih (fun first hfirst => ?_) (hplace hls).2 h
    rcases Option.or_eq_some_iff.mp hfirst with hnest | ⟨-, hstart⟩
    · exact hnested first hnest
    · obtain rfl := Option.some.inj hstart
      exact (hplace hls).1
  | case4 => cases h
  | case5 nested start rest s before n outerBefore outer ih =>
    refine ih (fun first hfirst => ?_) (hplace hls).2 h
    split at hfirst
    · cases hfirst
    · exact hnested first hfirst
  | case6 inner outer nested token start rest =>
    obtain rfl := Except.error.inj h
    exact getD_suffix hnested (hplace hls).1

theorem suffix_of_selectionsOnly (hls : ∀ l ∈ ls, l.start <:+ text) (h : selectionsOnly ls = .error place) :
    place <:+ text := by
  unfold selectionsOnly at h
  split at h
  · next start rest =>
    have hrest := (List.forall_mem_cons.mp hls).2
    split at h
    · cases h
    · next selections extra _ hset =>
      obtain rfl := Except.error.inj h
      exact startOf_suffix_of_selectionSet hrest hset
    · next place' hset =>
      obtain rfl := Except.error.inj h
      exact suffix_of_selectionSet (by simp) hrest hset
  · obtain rfl := Except.error.inj h
    exact startOf_suffix hls

theorem suffix_of_ofLexemes (hls : ∀ l ∈ ls, l.start <:+ text) (h : ofLexemes text ls = .error place) :
    place <:+ text := by
  unfold ofLexemes at h
  split at h
  · next start rest =>
    obtain ⟨hstart, hrest⟩ := List.forall_mem_cons.mp hls
    split at h
    · cases h
    · next selections extra _ hset =>
      obtain rfl := Except.error.inj h
      exact startOf_suffix_of_selectionSet hrest hset
    · obtain rfl := Except.error.inj h
      exact hstart
  · next word start rest =>
    have hrest := (List.forall_mem_cons.mp hls).2
    split at h
    · split at h
      · exact suffix_of_selectionsOnly (List.forall_mem_cons.mp hrest).2 (eq_error_of_map h)
      · exact suffix_of_selectionsOnly hrest (eq_error_of_map h)
    · obtain rfl := Except.error.inj h
      exact List.suffix_rfl
  · obtain rfl := Except.error.inj h
    exact startOf_suffix hls

end

/-- A fault is located at a place of the text. -/
theorem exists_place_of_parse {text : List Char} {fault : SyntaxFault} (h : parse text = .error fault) :
    ∃ place, place <:+ text ∧ fault = .locate text place := by
  unfold parse at h
  cases hread : ofLexemes text (lexemes text) with
  | ok d =>
    rw [hread] at h
    cases h
  | error place =>
    rw [hread] at h
    exact ⟨place, suffix_of_ofLexemes (fun _ hl => start_suffix_of_mem_lexemes hl) hread,
      (Except.error.inj h).symm⟩

end Document

end RouteQuery
