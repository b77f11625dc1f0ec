import RouteQuery.Proofs.FaultPlaces

/-! The token that spoils a text: the first one that no valid text has in its place. What a reader tells
about a malformed text is measured against it. -/
namespace RouteQuery

/-- Tokens with which a valid text can begin. -/
def Viable (Valid : List Token → Prop) (ts : List Token) : Prop := ∃ more, Valid (ts ++ more)

theorem Viable.of_append {Valid : List Token → Prop} {ts us : List Token} (h : Viable Valid (ts ++ us)) :
    Viable Valid ts := by
  obtain ⟨more, hmore⟩ := h
  exact ⟨us ++ more, by rwa [← List.append_assoc]⟩

/-- A text can go on from the tokens `before`, but neither with the first of `after` nor, if there is none, by
ending there. -/
structure Offends (Valid : List Token → Prop) (text : List Char) (before after : List Lexeme) : Prop where
  lexemes : lexemes text = before ++ after
  viable : Viable Valid (before.map (·.token))
  spoils : ∀ l rest, after = l :: rest → ¬Viable Valid (before.map (·.token) ++ [l.token])
  unfinished : after = [] → ¬Valid (before.map (·.token))

namespace Offends

variable {Valid : List Token → Prop} {text : List Char} {before after before' after' : List Lexeme}

theorem not_valid (h : Offends Valid text before after) : ¬Valid (tokens text) := by
  intro hvalid
  rw [tokens, h.lexemes, List.map_append] at hvalid
  cases hafter : after with
  | nil =>
    subst hafter
    exact h.unfinished rfl (by simpa using hvalid)
  | cons l rest =>
    subst hafter
    exact h.spoils l rest rfl ⟨rest.map (·.token), by simpa using hvalid⟩

theorem length_le (h : Offends Valid text before after) (h' : Offends Valid text before' after') :
    before'.length ≤ before.length := by
  by_contra hlt
  -- Then `before'` holds all of `before` and the token behind it.
  have hsplit : before ++ after = before' ++ after' := h.lexemes.symm.trans h'.lexemes
  obtain ⟨more, rfl⟩ := List.prefix_of_prefix_length_le (List.prefix_append before after)
    (hsplit ▸ List.prefix_append before' after') (by omega)
  cases more with
  | nil => simp at hlt
  | cons l more =>
    rw [List.append_assoc, List.append_cancel_left_eq] at hsplit
    have hviable : Viable Valid ((before.map (·.token) ++ [l.token]) ++ more.map (·.token)) := by
      simpa using h'.viable
    exact h.spoils l _ hsplit hviable.of_append

/-- There is only one offending token in a text. -/
theorem unique (h : Offends Valid text before after) (h' : Offends Valid text before' after') :
    before = before' ∧ after = after' :=
  List.append_inj (h.lexemes.symm.trans h'.lexemes) (le_antisymm (h'.length_le h) (h.length_le h'))

end Offends

/-! ### Readers of tokens -/

/-- A reader of tokens that accepts something behind `before`, but nothing with the first of `after` there. -/
structure Stops (accepts : List Lexeme → Bool) (before after : List Lexeme) : Prop where
  viable : ∃ more, accepts (before ++ more) = true
  refused : ∀ l rest, after = l :: rest → ∀ more, accepts (before ++ l :: more) = false
  unfinished : after = [] → accepts before = false

namespace Stops

variable {accepts accepts' : List Lexeme → Bool} {before after : List Lexeme}

/-- Behind `front` a reader stops where another one does that goes on like it. -/
theorem behind (h : Stops accepts' before after) (front : List Lexeme)
    (hgo : ∀ ls, accepts' ls = true → accepts (front ++ ls) = true)
    (hback : ∀ ls, ls.head? = (before ++ after).head? → accepts' ls = false → accepts (front ++ ls) = false) :
    Stops accepts (front ++ before) after where
  viable := by
    obtain ⟨more, hmore⟩ := h.viable
    exact ⟨more, by rw [List.append_assoc]; exact hgo _ hmore⟩
  refused := by
    rintro l rest rfl more
    rw [List.append_assoc]
    exact hback _ (by cases before <;> rfl) (h.refused l rest rfl more)
  unfinished := by
    rintro rfl
    exact hback _ (by simp) (h.unfinished rfl)

theorem behind_of_eq (h : Stops accepts' before after) (front : List Lexeme)
    (heq : ∀ ls, accepts (front ++ ls) = accepts' ls) :
    Stops accepts (front ++ before) after :=
  h.behind front (fun ls hls => (heq ls).trans hls) fun ls _ hls => (heq ls).trans hls

theorem accepts_append (h : Stops accepts before after) : accepts (before ++ after) = false := by
  cases hafter : after with
  | nil => rw [List.append_nil, h.unfinished hafter]
  | cons l rest => exact h.refused l rest hafter rest

/-- A token that stops the reader of a grammar offends in it. -/
theorem offends {Valid : List Token → Prop} {text : List Char} (h : Stops accepts before after)
    (hlexemes : lexemes text = before ++ after)
    (hgrammar : ∀ ls, accepts ls = true ↔ Valid (ls.map (·.token))) : Offends Valid text before after where
  lexemes := hlexemes
  viable := by
    obtain ⟨more, hmore⟩ := h.viable
    exact ⟨more.map (·.token), by simpa using (hgrammar _).mp hmore⟩
  spoils := by
    rintro l rest rfl ⟨more, hmore⟩
    have hread : accepts (before ++ l :: more.map fun t => ⟨t, []⟩) = true :=
      (hgrammar _).mpr (by simpa [Function.comp_def] using hmore)
    rw [h.refused l rest rfl] at hread
    cases hread
  unfinished := by
    rintro rfl hvalid
    rw [← hgrammar, h.unfinished rfl] at hvalid
    cases hvalid

end Stops

/-! ### Places -/

/-- Of two tokens of a text the later one has less text from it on. -/
theorem pairwise_start_lexemes (cs : List Char) :
    (lexemes cs).Pairwise fun l l' => l'.start.length < l.start.length := by
  have hshorter : ∀ {rest : List Char} {l : Lexeme}, l ∈ lexemes rest → ∀ (c : Char) (cs : List Char),
      rest.length ≤ cs.length → l.start.length < (c :: cs).length := fun hl c cs hle => by
    have := (start_suffix_of_mem_lexemes hl).length_le
    simp only [List.length_cons]
    omega
  fun_induction lexemes cs with
  | case1 => exact .nil
  | case2 c cs _ ih | case3 cs rest _ _ ih => exact ih
  | case5 c cs _ _ _ ih =>
    exact .cons (fun l hl => hshorter hl _ _ (Text.length_dropWhile_le Text.isWordChar cs)) ih
  | case6 cs _ _ _ ih | case7 cs _ _ _ _ ih | case8 cs _ _ _ _ _ ih | case9 cs _ _ _ _ _ _ ih =>
    exact .cons (fun l hl => hshorter hl _ _ le_rfl) ih
  | case4 | case10 => exact .cons (by simp) .nil

theorem start_ne_nil_of_mem_lexemes {cs : List Char} {l : Lexeme} (h : l ∈ lexemes cs) : l.start ≠ [] := by
  fun_induction lexemes cs with
  | case1 => cases h
  | case2 c cs _ ih | case3 cs rest _ _ ih => exact ih h
  | case5 c cs _ _ _ ih | case6 cs _ _ _ ih | case7 cs _ _ _ _ ih | case8 cs _ _ _ _ _ ih
  | case9 cs _ _ _ _ _ _ ih =>
    rcases List.mem_cons.mp h with rfl | h
    · exact List.cons_ne_nil _ _
    · exact ih h
  | case4 | case10 =>
    obtain rfl := List.mem_singleton.mp h
    exact List.cons_ne_nil _ _

namespace SyntaxFault

theorem locate_append (before place : List Char) : locate (before ++ place) place =
    ⟨(Text.trimLeft place).head?, before.count '\n' + 1, (before.reverse.takeWhile (· ≠ '\n')).length + 1⟩ := by
  simp [locate]

/-- Line and column tell the places of a text apart. -/
theorem locate_same_iff {text place place' : List Char} (h : place <:+ text) (h' : place' <:+ place) :
    (locate text place).line = (locate text place').line ∧
      (locate text place).column = (locate text place').column ↔ place = place' := by
  obtain ⟨before, rfl⟩ := h
  obtain ⟨between, rfl⟩ := h'
  constructor
  · rintro ⟨hline, hcolumn⟩
    rw [locate_append, ← List.append_assoc, locate_append] at hline hcolumn
    have hcount : between.count '\n' = 0 := by simpa using hline
    have hbetween : ∀ c ∈ between.reverse, (decide (c ≠ '\n')) = true := fun c hc => by
      simpa using ne_of_mem_of_not_mem (List.mem_reverse.mp hc) (List.count_eq_zero.mp hcount)
    rw [List.reverse_append, List.takeWhile_append_of_pos hbetween] at hcolumn
    have hnil : between = [] := by simpa using hcolumn
    rw [hnil, List.nil_append]
  · intro heq
    rw [heq]
    exact ⟨rfl, rfl⟩

end SyntaxFault

/-- The place that is told of a malformed text: the place `givenUp`, which depends on the tokens read so far,
or the offending token itself if there is none. A first word that offends is told at the start of the text. -/
def refusedAt (givenUp : List Lexeme → Option (List Char)) (text : List Char) :
    List Lexeme → List Lexeme → List Char
  | [], ⟨.name _, _⟩ :: _ => text
  | before, after => (givenUp before).getD (startOf after)

theorem refusedAt_nil (givenUp : List Lexeme → Option (List Char)) (text : List Char) {after : List Lexeme}
    (h : ∀ word start rest, after = ⟨.name word, start⟩ :: rest → False) :
    refusedAt givenUp text [] after = (givenUp []).getD (startOf after) := by
  rw [refusedAt]
  exact fun word start rest _ => h word start rest

/-- The offending token is the first one, a word, with something in front of it that does not count. -/
def IsIndentedWord (text : List Char) : List Lexeme → List Lexeme → Prop
  | [], ⟨.name _, start⟩ :: _ => start ≠ text
  | _, _ => False

theorem length_startOf_lt {text : List Char} {before after : List Lexeme} (h : lexemes text = before ++ after)
    {l : Lexeme} (hl : l ∈ before) : (startOf after).length < l.start.length := by
  cases after with
  | nil =>
    have hmem : l ∈ lexemes text := h ▸ List.mem_append_left _ hl
    exact List.length_pos_of_ne_nil (start_ne_nil_of_mem_lexemes hmem)
  | cons next rest =>
    have hpairs := pairwise_start_lexemes text
    rw [h, List.pairwise_append] at hpairs
    exact hpairs.2.2 l hl next List.mem_cons_self

theorem startOf_suffix_text {text : List Char} {before after : List Lexeme} (h : lexemes text = before ++ after) :
    startOf after <:+ text :=
  Document.startOf_suffix fun _ hl => start_suffix_of_mem_lexemes (h ▸ List.mem_append_right before hl)

section
variable {givenUp : List Lexeme → Option (List Char)} {text : List Char} {before after : List Lexeme}
  (hgiven : ∀ before place, givenUp before = some place → ∃ l ∈ before, l.start = place)
  (h : lexemes text = before ++ after)
include hgiven h

theorem refusedAt_suffix_text : refusedAt givenUp text before after <:+ text := by
  unfold refusedAt
  split
  · exact List.suffix_rfl
  · cases hplace : givenUp before with
    | none => exact startOf_suffix_text h
    | some place =>
      obtain ⟨l, hl, rfl⟩ := hgiven before place hplace
      exact start_suffix_of_mem_lexemes (h ▸ List.mem_append_left after hl)

theorem startOf_suffix_refusedAt : startOf after <:+ refusedAt givenUp text before after := by
  unfold refusedAt
  split
  · exact startOf_suffix_text h
  · cases hplace : givenUp before with
    | none => exact List.suffix_rfl
    | some place =>
      obtain ⟨l, hl, rfl⟩ := hgiven before place hplace
      have hstart : l.start <:+ text := start_suffix_of_mem_lexemes (h ▸ List.mem_append_left after hl)
      exact List.suffix_of_suffix_length_le (startOf_suffix_text h) hstart (length_startOf_lt h hl).le

theorem refusedAt_eq_startOf_iff : refusedAt givenUp text before after = startOf after ↔
    givenUp before = none ∧ ¬IsIndentedWord text before after := by
  unfold refusedAt IsIndentedWord
  split
  · next word start rest =>
    have hnone : givenUp [] = none := Option.eq_none_iff_forall_ne_some.mpr fun place hplace => by
      obtain ⟨l, hl, -⟩ := hgiven [] place hplace
      cases hl
    simp [hnone, startOf, eq_comm]
  · cases hplace : givenUp before with
    | none => simp
    | some place =>
      obtain ⟨l, hl, rfl⟩ := hgiven before place hplace
      have hne : l.start ≠ startOf after := fun heq => (length_startOf_lt h hl).ne (by rw [heq])
      simp [hne]

end

/-- How a reader tells where a text is malformed. Just when the text has an offending token it is refused, at the
place where reading has been given up, which is that token or in front of it. Line and column are those of the
offending token unless the reader has given up before, or skips what stands before a first word. -/
structure LocatesFaults (Refuses : SyntaxFault → Prop) (Valid : List Token → Prop)
    (givenUp : List Lexeme → Option (List Char)) (text : List Char) : Prop where
  refuses_iff : ∀ fault, Refuses fault ↔ ∃ before after, Offends Valid text before after ∧
    fault = .locate text (refusedAt givenUp text before after)
  unique : ∀ {before after before' after'}, Offends Valid text before after →
    Offends Valid text before' after' → before = before' ∧ after = after'
  not_behind : ∀ {before after}, Offends Valid text before after → startOf after <:+ refusedAt givenUp text before after
  exact_iff : ∀ {before after fault}, Offends Valid text before after → Refuses fault →
    (fault.line = (SyntaxFault.locate text (startOf after)).line ∧
        fault.column = (SyntaxFault.locate text (startOf after)).column ↔
      givenUp before = none ∧ ¬IsIndentedWord text before after)

/-- A reader locates faults if it stops at tokens that offend and tells their places or those of tokens before
them. -/
theorem LocatesFaults.of_reader {α : Type} {Refuses : SyntaxFault → Prop}
    {read : List Lexeme → Except (List Char) α} {Valid : List Token → Prop}
    {givenUp : List Lexeme → Option (List Char)} {text : List Char}
    (hrefuses : ∀ fault, Refuses fault ↔ ∃ place, read (lexemes text) = .error place ∧ fault = .locate text place)
    (hgrammar : ∀ ls, (read ls).isOk = true ↔ Valid (ls.map (·.token)))
    (hstops : ∀ ls place, read ls = .error place → ∃ before after, ls = before ++ after ∧
      Stops (fun ls => (read ls).isOk) before after ∧ place = refusedAt givenUp text before after)
    (hgiven : ∀ before place, givenUp before = some place → ∃ l ∈ before, l.start = place) :
    LocatesFaults Refuses Valid givenUp text := by
  have hrefused : ∀ {before after}, Offends Valid text before after → ∀ fault, Refuses fault ↔
      fault = .locate text (refusedAt givenUp text before after) := by
    intro before after hoffends fault
    rw [hrefuses]
    cases hread : read (lexemes text) with
    | ok a =>
      have hvalid := (hgrammar (lexemes text)).mp (by rw [hread]; rfl)
      exact absurd hvalid hoffends.not_valid
    | error place =>
      obtain ⟨before', after', hls, hstop, rfl⟩ := hstops _ place hread
      obtain ⟨rfl, rfl⟩ := hoffends.unique (hstop.offends hls hgrammar)
      simp
  refine ⟨fun fault => ⟨fun h => ?_, ?_⟩, Offends.unique, fun h => startOf_suffix_refusedAt hgiven h.lexemes,
    fun h hfault => ?_⟩
  · obtain ⟨place, hread, -⟩ := (hrefuses fault).mp h
    obtain ⟨before, after, hls, hstop, -⟩ := hstops _ place hread
    have hoffends := hstop.offends hls hgrammar
    exact ⟨before, after, hoffends, (hrefused hoffends fault).mp h⟩
  · rintro ⟨before, after, hoffends, hfault⟩
    exact (hrefused hoffends fault).mpr hfault
  · rw [(hrefused h _).mp hfault, ← refusedAt_eq_startOf_iff hgiven h.lexemes]
    exact SyntaxFault.locate_same_iff (refusedAt_suffix_text hgiven h.lexemes)
      (startOf_suffix_refusedAt hgiven h.lexemes)

end RouteQuery
