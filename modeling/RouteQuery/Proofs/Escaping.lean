import RouteQuery.Proofs.PathExtraction

/-! Escaped paths: they can be read back, they are path identifiers, and the route path that they
stand for is the one that was written. -/
namespace RouteQuery
open Text

namespace Escape

/-- The characters of a plain route path. -/
def isPathChar (c : Char) : Bool := c.isAlphanum || (tokenFor? c).isSome

theorem encodeChar_of_not_reserved {c : Char} (h : tokenFor? c = none) : encodeChar c = [c] := by
  simp [encodeChar, h]

theorem encodeChar_of_reserved {c : Char} {token : String} (h : tokenFor? c = some token) :
    encodeChar c = token.toList := by
  simp [encodeChar, h]

theorem encodeChars_cons (c : Char) (cs : List Char) :
    encodeChars (c :: cs) = encodeChar c ++ encodeChars cs := List.flatMap_cons

theorem encodeChars_append (cs ds : List Char) :
    encodeChars (cs ++ ds) = encodeChars cs ++ encodeChars ds := List.flatMap_append

theorem mem_table_of_tokenFor? {c : Char} {token : String} (h : tokenFor? c = some token) :
    (c, token) ∈ table := by
  obtain ⟨before, after, hsplit, -⟩ := List.lookup_eq_some_iff.mp h
  rw [hsplit]
  simp

theorem tokenFor?_of_mem_table {c : Char} {token : String} (h : (c, token) ∈ table) :
    tokenFor? c = some token := by
  have hall : ∀ entry ∈ table, tokenFor? entry.1 = some entry.2 := by decide
  exact hall _ h

theorem isWordChar_of_mem_table {c : Char} {token : String} (h : (c, token) ∈ table) :
    isWordChar c = false := by
  have hall : ∀ entry ∈ table, isWordChar entry.1 = false := by decide
  exact hall _ h

theorem exists_token_eq {entry : Char × String} (h : entry ∈ table) :
    ∃ cs, entry.2.toList = '_' :: cs := by
  have hall : ∀ entry ∈ table, entry.2.toList.head? = some '_' := by decide
  exact List.head?_eq_some_iff.mp (hall entry h)

theorem leadingToken?_of_ne {c : Char} (h : c ≠ '_') (cs : List Char) :
    leadingToken? (c :: cs) = none := by
  refine List.findSome?_eq_none_iff.mpr fun entry hentry => ?_
  obtain ⟨rest, hrest⟩ := exists_token_eq hentry
  have hprefix : entry.2.toList.isPrefixOf (c :: cs) = false := by
    rw [hrest, List.isPrefixOf, beq_false_of_ne h.symm, Bool.false_and]
  simp [after?, hprefix]

/-- A token is recognized whatever follows it, since no token opens another. -/
theorem leadingToken?_token {c : Char} {token : String} (h : (c, token) ∈ table)
    (rest : List Char) : leadingToken? (token.toList ++ rest) = some (c, rest) := by
  revert h
  simp only [table, List.mem_cons, List.not_mem_nil, or_false, Prod.mk.injEq]
  rintro (⟨rfl, rfl⟩ | ⟨rfl, rfl⟩ | ⟨rfl, rfl⟩ | ⟨rfl, rfl⟩ | ⟨rfl, rfl⟩ | ⟨rfl, rfl⟩ | ⟨rfl, rfl⟩ |
    ⟨rfl, rfl⟩ | ⟨rfl, rfl⟩ | ⟨rfl, rfl⟩ | ⟨rfl, rfl⟩ | ⟨rfl, rfl⟩ | ⟨rfl, rfl⟩) <;> rfl

theorem of_leadingToken?_eq_some {c : Char} {cs rest : List Char}
    (h : leadingToken? cs = some (c, rest)) :
    ∃ token, (c, token) ∈ table ∧ cs = token.toList ++ rest := by
  obtain ⟨⟨d, token⟩, hmem, htoken⟩ := List.exists_of_findSome?_eq_some h
  obtain ⟨zs, hafter, hpair⟩ := Option.map_eq_some_iff.mp htoken
  obtain ⟨rfl, rfl⟩ := Prod.mk.inj hpair
  refine ⟨token, hmem, ?_⟩
  unfold after? at hafter
  split at hafter
  · next hprefix =>
    obtain ⟨rest, rfl⟩ := List.isPrefixOf_iff_prefix.mp hprefix
    rw [← Option.some.inj hafter, List.drop_left]
  · cases hafter

@[simp] theorem decodeChars_nil : decodeChars [] = [] := by rw [decodeChars]

theorem decodeChars_of_leadingToken? {c : Char} {cs rest : List Char}
    (h : leadingToken? cs = some (c, rest)) : decodeChars cs = c :: decodeChars rest := by
  cases cs with
  | nil => cases h
  | cons d ds =>
    rw [decodeChars]
    split
    · next hsome =>
      obtain ⟨rfl, rfl⟩ := Prod.mk.inj (Option.some.inj (h.symm.trans hsome))
      rfl
    · next hnone => simp [h] at hnone

theorem decodeChars_of_no_token {c : Char} {cs : List Char} (h : leadingToken? (c :: cs) = none) :
    decodeChars (c :: cs) = c :: decodeChars cs := by
  rw [decodeChars]
  split
  · next hsome => simp [h] at hsome
  · rfl

theorem decodeChars_token {c : Char} {token : String} (h : (c, token) ∈ table)
    (rest : List Char) : decodeChars (token.toList ++ rest) = c :: decodeChars rest :=
  decodeChars_of_leadingToken? (leadingToken?_token h rest)

/-- A character that is no underscore is read back, whatever follows it. -/
theorem decodeChars_encodeChar_append {c : Char} (h : c ≠ '_') (rest : List Char) :
    decodeChars (encodeChar c ++ rest) = c :: decodeChars rest := by
  cases htoken : tokenFor? c with
  | none =>
    rw [encodeChar_of_not_reserved htoken, List.singleton_append,
      decodeChars_of_no_token (leadingToken?_of_ne h rest)]
  | some token =>
    rw [encodeChar_of_reserved htoken, decodeChars_token (mem_table_of_tokenFor? htoken)]

/-- What was encoded is read back, whatever follows it. -/
theorem decodeChars_encodeChars_append {cs : List Char} (h : ∀ c ∈ cs, c ≠ '_')
    (rest : List Char) : decodeChars (encodeChars cs ++ rest) = cs ++ decodeChars rest := by
  induction cs with
  | nil => rfl
  | cons c cs ih =>
    simp only [List.mem_cons, forall_eq_or_imp] at h
    rw [encodeChars_cons, List.append_assoc, decodeChars_encodeChar_append h.1, ih h.2,
      List.cons_append]

theorem decodeChars_encodeChars {cs : List Char} (h : ∀ c ∈ cs, c ≠ '_') :
    decodeChars (encodeChars cs) = cs := by
  simpa using decodeChars_encodeChars_append h []

theorem decode_encode {text : String} (h : ∀ c ∈ text.toList, c ≠ '_') :
    decode (encode text) = text := by
  rw [decode, encode, String.toList_ofList, decodeChars_encodeChars h, String.ofList_toList]

theorem ne_underscore_of_isPathChar {c : Char} (h : isPathChar c = true) : c ≠ '_' := by
  rintro rfl
  exact absurd h (by decide)

theorem all_isWordChar_token {c : Char} {token : String} (h : tokenFor? c = some token) :
    token.toList.all isWordChar = true := by
  have hall : ∀ entry ∈ table, entry.2.toList.all isWordChar = true := by decide
  exact hall _ (mem_table_of_tokenFor? h)

theorem tokenFor?_of_isWordChar {c : Char} (h : isWordChar c = true) : tokenFor? c = none := by
  cases htoken : tokenFor? c with
  | none => rfl
  | some token => exact absurd h (by simp [isWordChar_of_mem_table (mem_table_of_tokenFor? htoken)])

theorem all_isWordChar_encodeChar {c : Char} (h : isPathChar c = true) :
    (encodeChar c).all isWordChar = true := by
  cases htoken : tokenFor? c with
  | none =>
    have hc : c.isAlphanum = true := by simpa [isPathChar, htoken] using h
    simp [encodeChar, htoken, isWordChar, hc]
  | some token => rw [encodeChar_of_reserved htoken, all_isWordChar_token htoken]

theorem all_isWordChar_encodeChars {cs : List Char} (h : ∀ c ∈ cs, isPathChar c = true) :
    (encodeChars cs).all isWordChar = true := by
  rw [encodeChars, List.all_flatMap, List.all_eq_true]
  exact fun c hc => all_isWordChar_encodeChar (h c hc)

/-- Escaped text has no reserved characters, and no new ones but those of words. -/
theorem of_mem_encodeChars {cs : List Char} {c : Char} (h : c ∈ encodeChars cs) :
    tokenFor? c = none ∧ (c ∈ cs ∨ isWordChar c = true) := by
  obtain ⟨d, hd, hmem⟩ := List.mem_flatMap.mp h
  cases htoken : tokenFor? d with
  | none =>
    rw [encodeChar_of_not_reserved htoken, List.mem_singleton] at hmem
    exact hmem ▸ ⟨htoken, .inl hd⟩
  | some token =>
    rw [encodeChar_of_reserved htoken] at hmem
    have hword := List.all_eq_true.mp (all_isWordChar_token htoken) c hmem
    exact ⟨tokenFor?_of_isWordChar hword, .inr hword⟩

theorem not_mem_encodeChars {cs : List Char} {c : Char} (hc : isWordChar c = false) (h : c ∉ cs) :
    c ∉ encodeChars cs :=
  fun hmem => (of_mem_encodeChars hmem).2.elim h (by simp [hc])

theorem hash_not_mem_encodeChars {cs : List Char} (h : '#' ∉ cs) : '#' ∉ encodeChars cs :=
  not_mem_encodeChars (by decide) h

theorem encodeChars_of_not_reserved {cs : List Char} (h : ∀ c ∈ cs, tokenFor? c = none) :
    encodeChars cs = cs := by
  induction cs with
  | nil => rfl
  | cons c cs ih =>
    simp only [List.mem_cons, forall_eq_or_imp] at h
    rw [encodeChars_cons, encodeChar_of_not_reserved h.1, ih h.2, List.singleton_append]

end Escape

/-- The texts of route paths: a slash, then letters, digits and reserved characters. -/
structure RoutePath.IsText (path : String) : Prop where
  slash : path.toList.head? = some '/'
  chars : ∀ c ∈ path.toList, Escape.isPathChar c = true

namespace RoutePath.IsText
open Escape

variable {path : String}

theorem cons (h : IsText path) : ∃ cs, path.toList = '/' :: cs := List.head?_eq_some_iff.mp h.slash

theorem no_underscore (h : IsText path) : ∀ c ∈ path.toList, c ≠ '_' :=
  fun c hc => ne_underscore_of_isPathChar (h.chars c hc)

theorem encode_inj {other : String} (h : IsText path) (hother : IsText other)
    (heq : encode path = encode other) : path = other := by
  rw [← decode_encode h.no_underscore, heq, decode_encode hother.no_underscore]

theorem isPathIdentifier_encode (h : IsText path) : QueryText.isPathIdentifier (encode path) = true := by
  obtain ⟨cs, hcs⟩ := h.cons
  have hall := all_isWordChar_encodeChars h.chars
  have hslash : encodeChars ('/' :: cs) = '_' :: 's' :: 'l' :: ("ash_".toList ++ encodeChars cs) := rfl
  rw [hcs, hslash, List.all_cons, Bool.and_eq_true_iff] at hall
  refine QueryText.isPathIdentifier_iff.mpr ⟨_, ?_, ?_, hall.2⟩
  · rw [encode, String.toList_ofList, hcs, hslash]
  · rfl

end RoutePath.IsText

namespace RoutePath
open Escape

/-- The route path that a text is meant to be: between two slashes stands a regular expression. -/
def ofText (path : String) : RoutePath :=
  match path.toList with
  | '/' :: cs =>
    if cs.getLast? = some '/' then .regex (String.ofList cs.dropLast) else .literal path
  | _ => .literal path

theorem text_ofText (path : String) : (ofText path).text = path := by
  unfold ofText
  split
  · next cs hcs =>
    split
    · next hlast =>
      obtain ⟨inner, rfl⟩ := List.getLast?_eq_some_iff.mp hlast
      rw [← String.toList_inj, hcs, text]
      simp
    · rfl
  · rfl

theorem slash_isSuffixOf_encodeChar {c : Char} (h : c ≠ '_') (hne : c ≠ '/')
    (cs : List Char) : slashToken.toList.isSuffixOf (cs ++ encodeChar c) = false := by
  rw [List.isSuffixOf, List.reverse_append]
  cases htoken : tokenFor? c with
  | none =>
    have hc : ('_' == c) = false := beq_false_of_ne h.symm
    rw [encodeChar_of_not_reserved htoken]
    simp [slashToken, List.isPrefixOf, hc]
  | some token =>
    have hmem := mem_table_of_tokenFor? htoken
    rw [encodeChar_of_reserved htoken]
    clear htoken
    -- Token by token: only that of the slash ends like one.
    revert hmem
    simp only [table, List.mem_cons, List.not_mem_nil, or_false, Prod.mk.injEq]
    rintro (⟨rfl, rfl⟩ | ⟨rfl, rfl⟩ | ⟨rfl, rfl⟩ | ⟨rfl, rfl⟩ | ⟨rfl, rfl⟩ | ⟨rfl, rfl⟩ |
      ⟨rfl, rfl⟩ | ⟨rfl, rfl⟩ | ⟨rfl, rfl⟩ | ⟨rfl, rfl⟩ | ⟨rfl, rfl⟩ | ⟨rfl, rfl⟩ | ⟨rfl, rfl⟩) <;>
      first | exact absurd rfl hne | rfl

theorem regexSource?_between (inner : List Char) :
    regexSource? (slashToken.toList ++ (inner ++ slashToken.toList)) = some inner := by
  have hlen : (slashToken.toList ++ (inner ++ slashToken.toList)).length -
      2 * slashToken.toList.length = inner.length := by
    simp only [List.length_append]
    omega
  rw [regexSource?, if_pos]
  · rw [hlen, List.drop_left, List.take_left]
  · refine ⟨?_, ?_, ?_⟩
    · simp only [List.length_append]
      omega
    · exact List.isPrefixOf_iff_prefix.mpr (List.prefix_append ..)
    · rw [← List.append_assoc]
      exact List.isSuffixOf_iff_suffix.mpr (List.suffix_append ..)

theorem eq_of_regexSource? {identifier inner : List Char} (h : regexSource? identifier = some inner) :
    identifier = slashToken.toList ++ (inner ++ slashToken.toList) := by
  unfold regexSource? at h
  simp only at h
  split at h
  · next hslashes =>
    obtain ⟨hlen, hopens, hends⟩ := hslashes
    obtain ⟨rest, rfl⟩ := List.isPrefixOf_iff_prefix.mp hopens
    have hrest : slashToken.toList <:+ rest :=
      List.suffix_of_suffix_length_le (List.isSuffixOf_iff_suffix.mp hends)
        (List.suffix_append ..) (by rw [List.length_append] at hlen; omega)
    obtain ⟨front, rfl⟩ := hrest
    have hback := regexSource?_between front
    rw [regexSource?, if_pos ⟨hlen, hopens, hends⟩, h] at hback
    rw [Option.some.inj hback]
  · cases h

/-- An identifier is a regular expression when its path is written as one. -/
theorem regexSource?_encodeChars {cs : List Char} (h : ∀ c ∈ cs, isPathChar c = true) :
    regexSource? (encodeChars ('/' :: cs)) =
      if cs.getLast? = some '/' then some (encodeChars cs.dropLast) else none := by
  have hslash : encodeChar '/' = slashToken.toList := rfl
  rw [encodeChars_cons, hslash]
  split
  · next hlast =>
    obtain ⟨inner, rfl⟩ := List.getLast?_eq_some_iff.mp hlast
    have hinner : encodeChars (inner ++ ['/']) = encodeChars inner ++ slashToken.toList := by
      rw [encodeChars_append]
      rfl
    rw [hinner, List.dropLast_concat, regexSource?_between]
  · next hlast =>
    rcases List.eq_nil_or_concat cs with rfl | ⟨inner, c, rfl⟩
    · rfl
    · have hne : c ≠ '/' := by simpa using hlast
      have hsuffix := slash_isSuffixOf_encodeChar (ne_underscore_of_isPathChar (h c (by simp))) hne
        (slashToken.toList ++ encodeChars inner)
      have hsplit : encodeChars (inner ++ [c]) = encodeChars inner ++ encodeChar c := by
        rw [encodeChars_append]
        simp [encodeChars]
      rw [regexSource?, if_neg]
      rintro ⟨-, -, hends⟩
      rw [List.concat_eq_append, hsplit, ← List.append_assoc, hsuffix] at hends
      exact absurd hends (by decide)

/-- The identifier of a path leads back to the path that was written. -/
theorem ofIdentifier_encode {path : String} (h : IsText path) :
    ofIdentifier (encode path) = ofText path := by
  obtain ⟨cs, hcs⟩ := h.cons
  have hchars := h.chars
  rw [hcs] at hchars
  simp only [List.mem_cons, forall_eq_or_imp] at hchars
  have hinner : ∀ c ∈ cs.dropLast, c ≠ '_' := fun c hc =>
    ne_underscore_of_isPathChar (hchars.2 c (List.dropLast_subset cs hc))
  rw [ofIdentifier, decode_encode h.no_underscore, encode, String.toList_ofList, ofText, hcs,
    regexSource?_encodeChars hchars.2]
  by_cases hlast : cs.getLast? = some '/'
  · simp only [if_pos hlast, decodeChars_encodeChars hinner]
  · simp only [if_neg hlast]

end RoutePath
end RouteQuery
