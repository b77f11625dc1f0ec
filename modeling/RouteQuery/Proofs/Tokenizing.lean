import RouteQuery.Proofs.Lexing

/-! How a text splits into tokens. Queries and schema text share their words and braces; the colon and
the mark of a type without null belong to schema text. -/
namespace RouteQuery
open Text

/-- The blanks and the comma, which stand between tokens and mean nothing. -/
def separators : List Char := [' ', '\t', '\r', '\n', ',']

/-- The characters that are tokens by themselves. -/
def symbols : List (Char × Token) :=
  [('{', .openBrace), ('}', .closeBrace), (':', .colon), ('!', .bang)]

/-- How a text splits into longest words and symbols, with separators and comments between them. -/
inductive Splits : List Char → List Token → Prop
  | nil : Splits [] []
  | separator {c : Char} {cs : List Char} {ts : List Token} (blank : c ∈ separators)
      (rest : Splits cs ts) : Splits (c :: cs) ts
  | comment {comment cs : List Char} {ts : List Token} (line : ∀ c ∈ comment, c ≠ '\n' ∧ c ≠ '\r')
      (ends : EndsLine cs) (rest : Splits cs ts) : Splits ('#' :: (comment ++ cs)) ts
  | word {name : String} {cs : List Char} {ts : List Token} (valid : isIdentifier name = true)
      (longest : StopsAt isWordChar cs) (rest : Splits cs ts) :
      Splits (name.toList ++ cs) (.name name :: ts)
  | symbol {c : Char} {t : Token} {cs : List Char} {ts : List Token} (single : (c, t) ∈ symbols)
      (rest : Splits cs ts) : Splits (c :: cs) (t :: ts)

theorem tokens_separator {c : Char} (h : c ∈ separators) (cs : List Char) :
    tokens (c :: cs) = tokens cs := by
  rw [tokens, lexemes, if_pos (by simpa [separators] using h), tokens]

theorem tokens_comment {comment cs : List Char} (h : ∀ c ∈ comment, c ≠ '\n' ∧ c ≠ '\r')
    (hend : EndsLine cs) : tokens ('#' :: (comment ++ cs)) = tokens cs := by
  have hread : endOfComment? (comment ++ cs) = some cs :=
    endOfComment?_eq_some_iff.mpr ⟨comment, rfl, h, hend⟩
  rw [tokens, lexemes, if_neg (by decide), if_pos rfl]
  split
  · next rest hrest =>
    rw [hread] at hrest
    rw [← Option.some.inj hrest, tokens]
  · next hnone =>
    rw [hread] at hnone
    cases hnone

theorem tokens_symbol {c : Char} {t : Token} (h : (c, t) ∈ symbols) (cs : List Char) :
    tokens (c :: cs) = t :: tokens cs := by
  simp only [symbols, List.mem_cons, Prod.mk.injEq, List.not_mem_nil, or_false] at h
  rcases h with ⟨rfl, rfl⟩ | ⟨rfl, rfl⟩ | ⟨rfl, rfl⟩ | ⟨rfl, rfl⟩
  · exact tokens_openBrace cs
  · exact tokens_closeBrace cs
  · exact tokens_colon cs
  · exact tokens_bang cs

/-- A text splits in one way only, the one in which it is read. -/
theorem Splits.tokens_eq {cs : List Char} {ts : List Token} (h : Splits cs ts) : tokens cs = ts := by
  induction h with
  | nil => exact tokens_nil
  | separator blank _ ih => rw [tokens_separator blank, ih]
  | comment line ends _ ih => rw [tokens_comment line ends, ih]
  | word valid longest _ ih => rw [tokens_name valid longest, ih]
  | symbol single _ ih => rw [tokens_symbol single, ih]

/-- A text that is read to its end splits. -/
theorem splits_tokens {cs : List Char} (h : .stray ∉ tokens cs) : Splits cs (tokens cs) := by
  unfold tokens at h ⊢
  fun_induction lexemes cs with
  | case1 => exact .nil
  | case2 c cs hblank ih => exact .separator (by simpa [separators] using hblank) (ih h)
  | case3 cs rest hend _ ih =>
    obtain ⟨comment, rfl, hline, hends⟩ := endOfComment?_eq_some_iff.mp hend
    exact .comment hline hends (ih h)
  | case5 c cs _ _ hstart ih =>
    have hsplit : c :: cs =
        (String.ofList (c :: cs.takeWhile isWordChar)).toList ++ cs.dropWhile isWordChar := by
      rw [String.toList_ofList, List.cons_append, List.takeWhile_append_dropWhile]
    have hvalid : isIdentifier (String.ofList (c :: cs.takeWhile isWordChar)) = true :=
      isIdentifier_iff.mpr ⟨c, _, String.toList_ofList, hstart,
        List.all_eq_true.mpr fun d hd => List.mem_takeWhile_imp hd⟩
    rw [hsplit]
    exact .word hvalid (stopsAt_dropWhile isWordChar cs) (ih (List.not_mem_of_not_mem_cons h))
  | case6 cs _ _ _ ih =>
    exact .symbol (by simp [symbols]) (ih (List.not_mem_of_not_mem_cons h))
  | case7 cs _ _ _ _ ih =>
    exact .symbol (by simp [symbols]) (ih (List.not_mem_of_not_mem_cons h))
  | case8 cs _ _ _ _ _ ih =>
    exact .symbol (by simp [symbols]) (ih (List.not_mem_of_not_mem_cons h))
  | case9 cs _ _ _ _ _ _ ih =>
    exact .symbol (by simp [symbols]) (ih (List.not_mem_of_not_mem_cons h))
  | case4 | case10 => exact absurd List.mem_cons_self h

/-- Every word of a text is an identifier. -/
theorem Splits.isIdentifier_of_mem {cs : List Char} {ts : List Token} (h : Splits cs ts) {name : String}
    (hname : .name name ∈ ts) : isIdentifier name = true := by
  induction h with
  | nil => cases hname
  | separator _ _ ih | comment _ _ _ ih => exact ih hname
  | word valid _ _ ih =>
    rcases List.mem_cons.mp hname with hname | hname
    · rwa [Token.name.inj hname]
    · exact ih hname
  | symbol single _ ih =>
    rcases List.mem_cons.mp hname with rfl | hname
    · simp [symbols] at single
    · exact ih hname

end RouteQuery
