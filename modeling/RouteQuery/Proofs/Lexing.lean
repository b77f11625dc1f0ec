import RouteQuery.Lexeme
import RouteQuery.Proofs.PathExtraction

/-! The tokens of a text piece by piece, and how path identifiers show among them. -/
namespace RouteQuery
open Text

/-- The tokens of a text, whatever their places. -/
def tokens (cs : List Char) : List Token := (lexemes cs).map (·.token)

theorem exists_of_map_token_eq_cons {t : Token} {ts : List Token} {ls : List Lexeme}
    (h : ls.map (·.token) = t :: ts) :
    ∃ start rest, ls = ⟨t, start⟩ :: rest ∧ rest.map (·.token) = ts := by
  obtain ⟨⟨token, start⟩, rest, rfl, rfl, hrest⟩ := List.map_eq_cons_iff.mp h
  exact ⟨start, rest, rfl, hrest⟩

@[simp] theorem tokens_nil : tokens [] = [] := by simp [tokens, lexemes]

@[simp] theorem tokens_space (cs : List Char) : tokens (' ' :: cs) = tokens cs := by
  rw [tokens, lexemes, if_pos (by simp), tokens]

@[simp] theorem tokens_newline (cs : List Char) : tokens ('\n' :: cs) = tokens cs := by
  rw [tokens, lexemes, if_pos (by simp), tokens]

@[simp] theorem tokens_openBrace (cs : List Char) :
    tokens ('{' :: cs) = .openBrace :: tokens cs := by
  rw [tokens, lexemes, if_neg (by simp), if_neg (by simp), if_neg (by decide), if_pos rfl]
  rfl

@[simp] theorem tokens_closeBrace (cs : List Char) :
    tokens ('}' :: cs) = .closeBrace :: tokens cs := by
  rw [tokens, lexemes, if_neg (by simp), if_neg (by simp), if_neg (by decide), if_neg (by simp),
    if_pos rfl]
  rfl

@[simp] theorem tokens_colon (cs : List Char) : tokens (':' :: cs) = .colon :: tokens cs := by
  rw [tokens, lexemes, if_neg (by simp), if_neg (by simp), if_neg (by decide), if_neg (by simp),
    if_neg (by simp), if_pos rfl]
  rfl

@[simp] theorem tokens_bang (cs : List Char) : tokens ('!' :: cs) = .bang :: tokens cs := by
  rw [tokens, lexemes, if_neg (by simp), if_neg (by simp), if_neg (by decide), if_neg (by simp),
    if_neg (by simp), if_neg (by simp), if_pos rfl]
  rfl

theorem not_blank_of_isWordStart {c : Char} (h : isWordStart c = true) :
    ¬(c = ' ' ∨ c = '\t' ∨ c = '\r' ∨ c = '\n' ∨ c = ',') := by
  rintro (rfl | rfl | rfl | rfl | rfl) <;> exact absurd h (by decide)

theorem lexemes_word {c : Char} (h : isWordStart c = true) (cs : List Char) :
    lexemes (c :: cs) =
      ⟨.name (String.ofList (c :: cs.takeWhile isWordChar)), c :: cs⟩ ::
        lexemes (cs.dropWhile isWordChar) := by
  have hhash : c ≠ '#' := by
    rintro rfl
    exact absurd h (by decide)
  rw [lexemes, if_neg (not_blank_of_isWordStart h), if_neg hhash, if_pos h]

theorem tokens_name {name : String} (h : isIdentifier name = true) {rest : List Char}
    (hrest : StopsAt isWordChar rest) : tokens (name.toList ++ rest) = .name name :: tokens rest := by
  obtain ⟨c, cs, hname, hc, hcs⟩ := isIdentifier_iff.mp h
  have hall : ∀ d ∈ cs, isWordChar d = true := List.all_eq_true.mp hcs
  have htake : cs.takeWhile isWordChar = cs := List.takeWhile_eq_self_iff.mpr hall
  have hdrop : cs.dropWhile isWordChar = [] := List.dropWhile_eq_nil_iff.mpr hall
  rw [hname, List.cons_append, tokens, lexemes_word hc, takeWhile_append_stop hrest,
    dropWhile_append_stop hrest, htake, hdrop, ← hname, String.ofList_toList]
  rfl

/-- Where a comment may end: at a line feed, also one behind a carriage return, or with the text. -/
def EndsLine (rest : List Char) : Prop := rest = [] ∨ ['\n'] <+: rest ∨ ['\r', '\n'] <+: rest

theorem EndsLine.stopsAt {rest : List Char} (h : EndsLine rest) {p : Char → Bool}
    (hfeed : p '\n' = false) (hreturn : p '\r' = false) : StopsAt p rest := by
  rcases h with rfl | ⟨after, rfl⟩ | ⟨after, rfl⟩
  · simp
  · simpa using hfeed
  · simpa using hreturn

theorem dropWhile_of_endOfComment? {cs rest : List Char} (h : endOfComment? cs = some rest) :
    cs.dropWhile (fun c => c ≠ '\n' && c ≠ '\r') = rest ∧ EndsLine rest := by
  have hstop := stopsAt_dropWhile (fun c => c ≠ '\n' && c ≠ '\r') cs
  unfold endOfComment? at h
  split at h
  · next after heq =>
    obtain rfl := Option.some.inj h
    exact ⟨heq, .inr (.inr ⟨after, rfl⟩)⟩
  · cases h
  · next hlone =>
    obtain rfl := Option.some.inj h
    refine ⟨rfl, ?_⟩
    cases hd : cs.dropWhile fun c => c ≠ '\n' && c ≠ '\r' with
    | nil => exact .inl rfl
    | cons d ds =>
      rw [hd, stopsAt_cons] at hstop
      have hline : d = '\n' ∨ d = '\r' := by simpa [or_iff_not_imp_left] using hstop
      rcases hline with rfl | rfl
      · exact .inr (.inl ⟨ds, rfl⟩)
      · exact absurd hd (hlone ds)

/-- A comment goes to the end of its line and holds no carriage return. -/
theorem endOfComment?_eq_some_iff {cs rest : List Char} : endOfComment? cs = some rest ↔
    ∃ comment, cs = comment ++ rest ∧ (∀ c ∈ comment, c ≠ '\n' ∧ c ≠ '\r') ∧ EndsLine rest := by
  constructor
  · intro h
    obtain ⟨rfl, hend⟩ := dropWhile_of_endOfComment? h
    refine ⟨_, List.takeWhile_append_dropWhile.symm, fun c hc => ?_, hend⟩
    simpa using List.mem_takeWhile_imp hc
  · rintro ⟨comment, rfl, hcomment, hend⟩
    have hstop : StopsAt (fun c => c ≠ '\n' && c ≠ '\r') rest := hend.stopsAt rfl rfl
    have hnil : comment.dropWhile (fun c => c ≠ '\n' && c ≠ '\r') = [] :=
      List.dropWhile_eq_nil_iff.mpr fun c hc => by simpa using hcomment c hc
    rw [endOfComment?, dropWhile_append_stop hstop, hnil, List.nil_append]
    rcases hend with rfl | ⟨after, rfl⟩ | ⟨after, rfl⟩ <;> rfl

theorem endOfComment?_splits {cs rest : List Char} (h : endOfComment? cs = some rest) :
    ∃ comment, cs = comment ++ rest ∧ StopsAt isWordChar rest := by
  obtain ⟨comment, hsplit, -, hend⟩ := endOfComment?_eq_some_iff.mp h
  exact ⟨comment, hsplit, hend.stopsAt rfl rfl⟩

/-- A path identifier among the tokens is found in the text as well, since tokens start where
words start. -/
theorem mem_pathIdentifiers_of_mem_tokens {name : String}
    (h : QueryText.isPathIdentifier name = true) {cs : List Char}
    (hmem : .name name ∈ tokens cs) : name ∈ QueryText.pathIdentifiers cs := by
  have skip : ∀ {c : Char} {cs : List Char}, c ≠ '_' → name ∈ QueryText.pathIdentifiers cs →
      name ∈ QueryText.pathIdentifiers (c :: cs) := by
    intro c cs hc hcs
    rwa [QueryText.pathIdentifiers_cons_of_ne hc]
  unfold tokens at hmem
  fun_induction lexemes cs with
  | case1 => simp at hmem
  | case2 c cs hblank ih =>
    refine skip ?_ (ih hmem)
    rintro rfl
    simp at hblank
  | case3 cs rest hend _ ih =>
    obtain ⟨comment, rfl, hstop⟩ := endOfComment?_splits hend
    refine skip (by decide) ?_
    rw [QueryText.pathIdentifiers_append_stop hstop]
    exact List.mem_append_right _ (ih hmem)
  | case4 => simp at hmem
  | case5 c cs _ _ hstart ih =>
    have hword : isWordChar c = true := isWordChar_of_isWordStart hstart
    have hstop := stopsAt_dropWhile isWordChar cs
    have hsplit : c :: cs = (c :: cs.takeWhile isWordChar) ++ cs.dropWhile isWordChar := by
      rw [List.cons_append, List.takeWhile_append_dropWhile]
    rw [List.map_cons, List.mem_cons] at hmem
    rw [hsplit]
    rcases hmem with hname | hmem
    · have hchars : name.toList = c :: cs.takeWhile isWordChar := by
        rw [Token.name.inj hname, String.toList_ofList]
      rw [← hchars, QueryText.pathIdentifiers_word h hstop]
      exact List.mem_cons_self
    · rw [QueryText.pathIdentifiers_append_stop hstop]
      exact List.mem_append_right _ (ih hmem)
  | case6 cs _ _ _ ih => exact skip (by decide) (ih (by simpa using hmem))
  | case7 cs _ _ _ _ ih => exact skip (by decide) (ih (by simpa using hmem))
  | case8 cs _ _ _ _ _ ih => exact skip (by decide) (ih (by simpa using hmem))
  | case9 cs _ _ _ _ _ _ ih => exact skip (by decide) (ih (by simpa using hmem))
  | case10 => simp at hmem

theorem openBrace_mem_of_mem_tokens {cs : List Char} (h : .openBrace ∈ tokens cs) : '{' ∈ cs := by
  unfold tokens at h
  fun_induction lexemes cs with
  | case1 => cases h
  | case2 c cs hblank ih => exact List.mem_cons_of_mem c (ih h)
  | case3 cs rest hend _ ih =>
    obtain ⟨comment, rfl, -⟩ := endOfComment?_splits hend
    exact List.mem_cons_of_mem _ (List.mem_append_right comment (ih h))
  | case4 => simp at h
  | case5 c cs _ _ hstart ih =>
    exact List.mem_cons_of_mem c ((List.dropWhile_suffix _).subset (ih (by simpa using h)))
  | case6 => exact List.mem_cons_self
  | case7 cs _ _ _ _ ih => exact List.mem_cons_of_mem _ (ih (by simpa using h))
  | case8 cs _ _ _ _ _ ih => exact List.mem_cons_of_mem _ (ih (by simpa using h))
  | case9 cs _ _ _ _ _ _ ih => exact List.mem_cons_of_mem _ (ih (by simpa using h))
  | case10 => simp at h

/-- The path identifier in a token. -/
def Token.pathIdentifier? : Token → Option String
  | .name text => QueryText.identifierIn? text.toList
  | _ => none

/-- A text without comments that is read to its end has the path identifiers of its words. -/
theorem pathIdentifiers_eq_of_tokens {cs : List Char} (hhash : '#' ∉ cs)
    (hstray : .stray ∉ tokens cs) :
    QueryText.pathIdentifiers cs = (tokens cs).filterMap Token.pathIdentifier? := by
  have skip : ∀ {c : Char} {cs : List Char} {token : Token} {ts : List Token}, c ≠ '_' →
      token.pathIdentifier? = none →
      QueryText.pathIdentifiers cs = ts.filterMap Token.pathIdentifier? →
      QueryText.pathIdentifiers (c :: cs) = (token :: ts).filterMap Token.pathIdentifier? := by
    intro c cs token ts hc htoken hcs
    rw [QueryText.pathIdentifiers_cons_of_ne hc, hcs, List.filterMap_cons_none htoken]
  unfold tokens at hstray ⊢
  fun_induction lexemes cs with
  | case1 => simp
  | case2 c cs hblank ih =>
    have hc : c ≠ '_' := by
      rintro rfl
      simp at hblank
    rw [QueryText.pathIdentifiers_cons_of_ne hc, ih (List.not_mem_of_not_mem_cons hhash) hstray]
  | case3 => simp at hhash
  | case4 => simp at hhash
  | case5 c cs _ _ hstart ih =>
    have hdrop : '#' ∉ cs.dropWhile isWordChar := fun h =>
      List.not_mem_of_not_mem_cons hhash ((List.dropWhile_suffix _).subset h)
    have hword : ∀ d ∈ c :: cs.takeWhile isWordChar, isWordChar d = true :=
      List.forall_mem_cons.mpr
        ⟨isWordChar_of_isWordStart hstart, fun _ hd => List.mem_takeWhile_imp hd⟩
    have hsplit : c :: cs = (c :: cs.takeWhile isWordChar) ++ cs.dropWhile isWordChar := by
      rw [List.cons_append, List.takeWhile_append_dropWhile]
    rw [hsplit, QueryText.pathIdentifiers_append_stop (stopsAt_dropWhile isWordChar cs),
      QueryText.pathIdentifiers_of_word hword, ih hdrop (List.not_mem_of_not_mem_cons hstray),
      List.map_cons, ← hsplit]
    cases hfound : QueryText.identifierIn? (c :: cs.takeWhile isWordChar) <;>
      simp [Token.pathIdentifier?, hfound]
  | case6 cs _ _ _ ih =>
    exact skip (by decide) rfl
      (ih (List.not_mem_of_not_mem_cons hhash) (List.not_mem_of_not_mem_cons hstray))
  | case7 cs _ _ _ _ ih =>
    exact skip (by decide) rfl
      (ih (List.not_mem_of_not_mem_cons hhash) (List.not_mem_of_not_mem_cons hstray))
  | case8 cs _ _ _ _ _ ih =>
    exact skip (by decide) rfl
      (ih (List.not_mem_of_not_mem_cons hhash) (List.not_mem_of_not_mem_cons hstray))
  | case9 cs _ _ _ _ _ _ ih =>
    exact skip (by decide) rfl
      (ih (List.not_mem_of_not_mem_cons hhash) (List.not_mem_of_not_mem_cons hstray))
  | case10 => simp at hstray

/-- Where a word ends a text can be cut, if it has no comment: the tokens of what follows come
behind those of the first part, unless reading got stuck in that. -/
theorem tokens_append {cs rest : List Char} (hhash : '#' ∉ cs) (hrest : StopsAt isWordChar rest) :
    tokens (cs ++ rest) = tokens cs ++ if .stray ∈ tokens cs then [] else tokens rest := by
  unfold tokens
  fun_induction lexemes cs with
  | case1 => simp
  | case2 c cs hblank ih =>
    rw [List.cons_append, lexemes, if_pos hblank]
    exact ih fun h => hhash (List.mem_cons_of_mem c h)
  | case3 => simp at hhash
  | case4 => simp at hhash
  | case5 c cs hblank _ hstart ih =>
    have hdrop : '#' ∉ cs.dropWhile isWordChar := fun h =>
      hhash (List.mem_cons_of_mem c ((List.dropWhile_suffix _).subset h))
    rw [List.cons_append, lexemes_word hstart, takeWhile_append_stop hrest,
      dropWhile_append_stop hrest]
    simp [ih hdrop]
  | case6 cs _ _ _ ih =>
    have hcs := ih fun h => hhash (List.mem_cons_of_mem _ h)
    rw [List.cons_append, lexemes]
    simp [hcs, isWordStart]
  | case7 cs _ _ _ _ ih =>
    have hcs := ih fun h => hhash (List.mem_cons_of_mem _ h)
    rw [List.cons_append, lexemes]
    simp [hcs, isWordStart]
  | case8 cs _ _ _ _ _ ih =>
    have hcs := ih fun h => hhash (List.mem_cons_of_mem _ h)
    rw [List.cons_append, lexemes]
    simp [hcs, isWordStart]
  | case9 cs _ _ _ _ _ _ ih =>
    have hcs := ih fun h => hhash (List.mem_cons_of_mem _ h)
    rw [List.cons_append, lexemes]
    simp [hcs, isWordStart]
  | case10 c cs h1 h2 h3 h4 h5 h6 h7 =>
    rw [List.cons_append, lexemes, if_neg h1, if_neg h2, if_neg h3, if_neg h4, if_neg h5, if_neg h6,
      if_neg h7]
    simp

end RouteQuery
