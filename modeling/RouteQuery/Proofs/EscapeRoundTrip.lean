import Mathlib.Data.List.Basic
import Mathlib.Data.List.Induction
import RouteQuery.Proofs.Escaping

/-! Which texts survive being escaped and read back. An underscore of the text can pass for the first
one of a token, and nothing else goes wrong. -/
namespace RouteQuery.Escape

/-- The words of the tokens, without the underscores around them. -/
def tokenWords : List (List Char) := table.map fun entry => entry.2.toList.tail.dropLast

example : tokenWords.map String.ofList =
    ["backslash", "slash", "colon", "carrot", "dollar", "dot", "asterisk", "leftperen", "rightperen",
      "leftbracket", "rightbracket", "questionmark", "addition"] := by decide

/-- An underscore or a reserved character. -/
def isMark (c : Char) : Bool := c == '_' || (tokenFor? c).isSome

/-- Somewhere in the text an underscore has the word of a token right behind it, and behind that
another underscore or a reserved character. -/
def Collides (cs : List Char) : Prop :=
  ∃ word ∈ tokenWords, ∃ c, isMark c = true ∧ '_' :: (word ++ [c]) <:+: cs

theorem Collides.of_infix {part cs : List Char} (h : Collides part) (hpart : part <:+: cs) :
    Collides cs := by
  obtain ⟨word, hword, c, hc, hinfix⟩ := h
  exact ⟨word, hword, c, hc, hinfix.trans hpart⟩

/-! ### Marks and words -/

theorem encodeChars_concat (cs : List Char) (c : Char) :
    encodeChars (cs ++ [c]) = encodeChars cs ++ encodeChar c := by
  rw [encodeChars_append]
  simp [encodeChars]

theorem toList_of_mem_table {entry : Char × String} (h : entry ∈ table) :
    entry.2.toList = '_' :: (entry.2.toList.tail.dropLast ++ ['_']) := by
  have hall : ∀ entry ∈ table, entry.2.toList = '_' :: (entry.2.toList.tail.dropLast ++ ['_']) := by
    decide
  exact hall entry h

theorem exists_word_of_mem_table {c : Char} {token : String} (h : (c, token) ∈ table) :
    ∃ word ∈ tokenWords, token.toList = '_' :: (word ++ ['_']) :=
  ⟨_, List.mem_map_of_mem h, toList_of_mem_table h⟩

theorem exists_token_of_word {word : List Char} (h : word ∈ tokenWords) :
    ∃ c token, (c, token) ∈ table ∧ token.toList = '_' :: (word ++ ['_']) := by
  obtain ⟨⟨c, token⟩, hmem, rfl⟩ := List.mem_map.mp h
  exact ⟨c, token, hmem, toList_of_mem_table hmem⟩

theorem isMark_of_mem_word {word : List Char} (h : word ∈ tokenWords) :
    ∀ c ∈ word, isMark c = false := by
  have hall : ∀ word ∈ tokenWords, word.any isMark = false := by decide
  simpa using hall word h

theorem tokenFor?_of_not_mark {c : Char} (h : isMark c = false) : tokenFor? c = none := by
  have hnone := (Bool.or_eq_false_iff.mp h).2
  simpa using hnone

theorem encodeChar_of_not_mark {c : Char} (h : isMark c = false) : encodeChar c = [c] :=
  encodeChar_of_not_reserved (tokenFor?_of_not_mark h)

/-- Only marks are escaped to something with an underscore, and that stands at both ends. -/
theorem encodeChar_of_mark {c : Char} (h : isMark c = true) :
    (∃ rest, encodeChar c = '_' :: rest) ∧ ∃ front, encodeChar c = front ++ ['_'] := by
  rcases Bool.or_eq_true_iff.mp h with hc | hc
  · obtain rfl := eq_of_beq hc
    exact ⟨⟨[], rfl⟩, ⟨[], rfl⟩⟩
  · obtain ⟨token, htoken⟩ := Option.isSome_iff_exists.mp hc
    obtain ⟨word, -, hword⟩ := exists_word_of_mem_table (mem_table_of_tokenFor? htoken)
    rw [encodeChar_of_reserved htoken, hword]
    exact ⟨⟨_, rfl⟩, ⟨'_' :: word, rfl⟩⟩

theorem encodeChars_of_plain {cs : List Char} (h : ∀ c ∈ cs, isMark c = false) :
    encodeChars cs = cs :=
  encodeChars_of_not_reserved fun c hc => tokenFor?_of_not_mark (h c hc)

/-- What opens an escaped text and has no mark stood in the text as it is. -/
theorem of_encodeChars_eq_append {word cs rest : List Char} (hword : ∀ c ∈ word, isMark c = false)
    (h : encodeChars cs = word ++ rest) : ∃ ds, cs = word ++ ds ∧ encodeChars ds = rest := by
  induction word generalizing cs with
  | nil => exact ⟨cs, rfl, h⟩
  | cons c word ih =>
    rw [List.forall_mem_cons] at hword
    cases cs with
    | nil => cases h
    | cons d ds =>
      rw [encodeChars_cons] at h
      cases hd : isMark d with
      | true =>
        obtain ⟨⟨more, hmore⟩, -⟩ := encodeChar_of_mark hd
        rw [hmore] at h
        obtain ⟨rfl, -⟩ := List.cons.inj h
        exact absurd hword.1 (by decide)
      | false =>
        rw [encodeChar_of_not_mark hd] at h
        obtain ⟨rfl, hrest⟩ := List.cons.inj h
        obtain ⟨es, rfl, hes⟩ := ih hword.2 hrest
        exact ⟨es, rfl, hes⟩

/-- So did what ends an escaped text and has no mark. -/
theorem of_encodeChars_eq_append_plain {word cs front : List Char}
    (hword : ∀ c ∈ word, isMark c = false) (h : encodeChars cs = front ++ word) :
    ∃ ds, cs = ds ++ word ∧ encodeChars ds = front := by
  induction word using List.reverseRecOn generalizing cs with
  | nil => exact ⟨cs, by simp, by simpa using h⟩
  | append_singleton word c ih =>
    rw [List.forall_mem_append, List.forall_mem_singleton] at hword
    rcases List.eq_nil_or_concat' cs with rfl | ⟨ds, d, rfl⟩
    · simp [encodeChars] at h
    rw [encodeChars_concat, ← List.append_assoc] at h
    cases hd : isMark d with
    | true =>
      obtain ⟨-, more, hmore⟩ := encodeChar_of_mark hd
      rw [hmore, ← List.append_assoc] at h
      obtain ⟨-, hlast⟩ := List.append_inj' h rfl
      obtain rfl := List.singleton_inj.mp hlast
      exact absurd hword.2 (by decide)
    | false =>
      rw [encodeChar_of_not_mark hd] at h
      obtain ⟨hds, hlast⟩ := List.append_inj' h rfl
      obtain rfl := List.singleton_inj.mp hlast
      obtain ⟨es, rfl, hes⟩ := ih hword.1 hds
      exact ⟨es, by simp, hes⟩

/-- A text whose escaped form opens with an underscore opens with a mark. -/
theorem exists_mark_of_encodeChars_eq_cons {cs rest : List Char} (h : encodeChars cs = '_' :: rest) :
    ∃ c ds, isMark c = true ∧ cs = c :: ds := by
  cases cs with
  | nil => cases h
  | cons c ds =>
    refine ⟨c, ds, ?_, rfl⟩
    by_contra hc
    have hplain : isMark c = false := Bool.not_eq_true _ ▸ hc
    rw [encodeChars_cons, encodeChar_of_not_mark hplain] at h
    obtain ⟨rfl, -⟩ := List.cons.inj h
    exact hc rfl

theorem exists_mark_of_encodeChars_eq_concat {cs front : List Char}
    (h : encodeChars cs = front ++ ['_']) : ∃ ds c, isMark c = true ∧ cs = ds ++ [c] := by
  rcases List.eq_nil_or_concat' cs with rfl | ⟨ds, c, rfl⟩
  · simp [encodeChars] at h
  refine ⟨ds, c, ?_, rfl⟩
  by_contra hc
  have hplain : isMark c = false := Bool.not_eq_true _ ▸ hc
  rw [encodeChars_concat, encodeChar_of_not_mark hplain] at h
  obtain rfl := List.singleton_inj.mp (List.append_inj' h rfl).2
  exact hc rfl

/-! ### The round trip -/

/-- An underscore in front of an escaped text is taken for that of a token just when the text opens
with a token word and a mark. -/
theorem leadingToken?_underscore_iff {cs : List Char} :
    (∃ c rest, leadingToken? ('_' :: encodeChars cs) = some (c, rest)) ↔
      ∃ word ∈ tokenWords, ∃ c, isMark c = true ∧ word ++ [c] <+: cs := by
  constructor
  · rintro ⟨c, rest, hlead⟩
    obtain ⟨token, hmem, hcs⟩ := of_leadingToken?_eq_some hlead
    obtain ⟨word, hword, htoken⟩ := exists_word_of_mem_table hmem
    have hsplit : encodeChars cs = word ++ '_' :: rest := by
      rw [htoken] at hcs
      simpa using hcs
    obtain ⟨ds, rfl, hds⟩ := of_encodeChars_eq_append (isMark_of_mem_word hword) hsplit
    obtain ⟨d, es, hd, rfl⟩ := exists_mark_of_encodeChars_eq_cons hds
    exact ⟨word, hword, d, hd, es, by simp⟩
  · rintro ⟨word, hword, d, hd, es, rfl⟩
    obtain ⟨c, token, hmem, htoken⟩ := exists_token_of_word hword
    obtain ⟨⟨more, hmore⟩, -⟩ := encodeChar_of_mark hd
    have hplain := encodeChars_of_plain (isMark_of_mem_word hword)
    have hopen : '_' :: encodeChars (word ++ [d] ++ es) =
        token.toList ++ (more ++ encodeChars es) := by
      rw [htoken, List.append_assoc, List.singleton_append, encodeChars_append, encodeChars_cons,
        hplain, hmore]
      simp
    exact ⟨c, _, by rw [hopen, leadingToken?_token hmem]⟩

theorem collides_cons {c : Char} {cs : List Char} :
    Collides (c :: cs) ↔
      (c = '_' ∧ ∃ word ∈ tokenWords, ∃ d, isMark d = true ∧ word ++ [d] <+: cs) ∨ Collides cs := by
  constructor
  · rintro ⟨word, hword, d, hd, hinfix⟩
    rcases List.infix_cons_iff.mp hinfix with hprefix | hlater
    · obtain ⟨rfl, hopens⟩ := List.cons_prefix_cons.mp hprefix
      exact .inl ⟨rfl, word, hword, d, hd, hopens⟩
    · exact .inr ⟨word, hword, d, hd, hlater⟩
  · rintro (⟨rfl, word, hword, d, hd, hprefix⟩ | hlater)
    · exact ⟨word, hword, d, hd, (List.cons_prefix_cons.mpr ⟨rfl, hprefix⟩).isInfix⟩
    · exact hlater.of_infix (List.suffix_cons ..).isInfix

theorem exists_mark_iff {word cs : List Char} :
    (∃ d, isMark d = true ∧ word ++ [d] <+: cs) ↔
      word <+: cs ∧ (cs.drop word.length).head?.any isMark = true := by
  constructor
  · rintro ⟨d, hd, rest, rfl⟩
    rw [List.append_assoc, List.drop_left]
    exact ⟨List.prefix_append .., hd⟩
  · rintro ⟨⟨rest, rfl⟩, hmark⟩
    rw [List.drop_left] at hmark
    obtain ⟨d, hd, hmark⟩ := (Option.any_eq_true ..).mp hmark
    obtain ⟨ds, rfl⟩ := List.head?_eq_some_iff.mp hd
    exact ⟨d, hmark, ds, by simp⟩

instance decidableCollides : DecidablePred Collides
  | [] => isFalse (by simp [Collides])
  | c :: cs =>
    have := decidableCollides cs
    decidable_of_iff
      ((c = '_' ∧ ∃ word ∈ tokenWords,
        word <+: cs ∧ (cs.drop word.length).head?.any isMark = true) ∨ Collides cs)
      (by simp only [collides_cons, exists_mark_iff])

/-- Reading stays in step with the text up to its first collision, where a reserved character comes
out in the place of an underscore. -/
theorem decodeChars_encodeChars_iff {cs : List Char} :
    decodeChars (encodeChars cs) = cs ↔ ¬Collides cs := by
  induction cs with
  | nil => simp [encodeChars, Collides]
  | cons c cs ih =>
    rw [encodeChars_cons, collides_cons, not_or, ← ih]
    by_cases hc : c = '_'
    · subst hc
      have hself : encodeChar '_' = ['_'] := by decide
      rw [hself, List.singleton_append, ← leadingToken?_underscore_iff]
      cases hlead : leadingToken? ('_' :: encodeChars cs) with
      | none => simp [decodeChars_of_no_token hlead]
      | some found =>
        obtain ⟨reserved, rest⟩ := found
        obtain ⟨token, hmem, -⟩ := of_leadingToken?_eq_some hlead
        have hne : reserved ≠ '_' := by
          rintro rfl
          exact absurd (isWordChar_of_mem_table hmem) (by decide)
        simp [decodeChars_of_leadingToken? hlead, hne]
    · simp [decodeChars_encodeChar_append hc, hc]

theorem decode_encode_iff {text : String} :
    decode (encode text) = text ↔ ¬Collides text.toList := by
  rw [← decodeChars_encodeChars_iff, decode, encode, String.toList_ofList, ← String.toList_inj,
    String.toList_ofList]

example : ¬Collides "/files_2/_dotted".toList := by decide

example : Collides "/files_dot/".toList := by decide

/-- A text is read back from its escaped form exactly when none of its underscores is followed by a
token word and, right behind that, by an underscore or a reserved character. -/
theorem decode_encode_eq_iff (text : String) :
    decode (encode text) = text ↔
      ∀ before word c after, text.toList = before ++ '_' :: (word ++ c :: after) →
        word ∈ tokenWords → c ≠ '_' ∧ tokenFor? c = none := by
  rw [decode_encode_iff]
  constructor
  · intro hsound before word c after htext hword
    have hc : isMark c = false := by
      by_contra hmark
      exact hsound ⟨word, hword, c, Bool.not_eq_false _ ▸ hmark, before, after, by simp [htext]⟩
    exact ⟨fun heq => by simp [isMark, heq] at hc, tokenFor?_of_not_mark hc⟩
  · rintro hplain ⟨word, hword, c, hc, before, after, htext⟩
    obtain ⟨hne, hnone⟩ := hplain before word c after (by simp [← htext]) hword
    simp [isMark, hne, hnone] at hc

/-- A collision ends in a mark, so it does not reach into a run without marks. -/
theorem collides_of_append_plain {cs word : List Char} (hword : ∀ c ∈ word, isMark c = false)
    (h : Collides (cs ++ word)) : Collides cs := by
  induction word using List.reverseRecOn with
  | nil => simpa using h
  | append_singleton word c ih =>
    rw [List.forall_mem_append, List.forall_mem_singleton] at hword
    obtain ⟨found, hfound, d, hd, hinfix⟩ := h
    rw [← List.append_assoc] at hinfix
    rcases List.infix_concat_iff.mp hinfix with hends | hbefore
    · obtain ⟨front, hsplit⟩ := hends
      rw [← List.cons_append, ← List.append_assoc] at hsplit
      obtain rfl := List.singleton_inj.mp (List.append_inj' hsplit rfl).2
      rw [hword.2] at hd
      cases hd
    · exact ih hword.1 ⟨found, hfound, d, hd, hbefore⟩

/-- It does not matter with which mark a text ends. -/
theorem collides_concat_mark {cs : List Char} {c d : Char} (hd : isMark d = true)
    (h : Collides (cs ++ [c])) : Collides (cs ++ [d]) := by
  obtain ⟨word, hword, e, he, hinfix⟩ := h
  rcases List.infix_concat_iff.mp hinfix with hends | hbefore
  · obtain ⟨front, hsplit⟩ := hends
    rw [← List.cons_append, ← List.append_assoc] at hsplit
    obtain ⟨rfl, -⟩ := List.append_inj' hsplit rfl
    exact ⟨word, hword, d, hd, front, [], by simp⟩
  · exact Collides.of_infix ⟨word, hword, e, he, hbefore⟩ (List.prefix_append ..).isInfix

/-! ### The other way round -/

/-- Whatever is taken for a token is written as that token again. -/
theorem encodeChars_decodeChars {cs : List Char} (h : ∀ c ∈ cs, tokenFor? c = none) :
    encodeChars (decodeChars cs) = cs := by
  fun_induction decodeChars cs with
  | case1 => rfl
  | case2 c cs reserved rest hlead ih =>
    obtain ⟨token, hmem, hcs⟩ := of_leadingToken?_eq_some hlead
    rw [hcs] at h ⊢
    rw [encodeChars_cons, encodeChar_of_reserved (tokenFor?_of_mem_table hmem),
      ih fun d hd => h d (List.mem_append_right _ hd)]
  | case3 c cs hlead ih =>
    rw [List.forall_mem_cons] at h
    rw [encodeChars_cons, encodeChar_of_not_reserved h.1, ih h.2, List.singleton_append]

theorem encode_decode {text : String} (h : ∀ c ∈ text.toList, tokenFor? c = none) :
    encode (decode text) = text := by
  rw [encode, decode, String.toList_ofList, encodeChars_decodeChars h, String.ofList_toList]

end RouteQuery.Escape
