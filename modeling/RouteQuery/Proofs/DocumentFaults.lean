import RouteQuery.Proofs.OffendingTokens
import RouteQuery.Proofs.QueryGrammar

/-! Where a malformed query is said to be malformed. Inside nested sets this is not where it is: the place is that
of a brace further out, since what failed inside of it is taken to be the end of what stood before. -/
namespace RouteQuery.Document

/-- The places of the braces that are open behind tokens, the innermost first. Those `around` were open before. -/
def openBraces (around : List (List Char)) : List Lexeme → List (List Char)
  | [] => around
  | ⟨.openBrace, start⟩ :: rest => openBraces (start :: around) rest
  | ⟨.closeBrace, _⟩ :: rest => openBraces around.tail rest
  | _ :: rest => openBraces around rest

/-- A fault behind open braces is told at the outermost of them or, where an operation has a name or the word
in front of it, at the outermost inside its set. -/
def givenUp : List Lexeme → Option (List Char)
  | ⟨.openBrace, start⟩ :: rest => (openBraces [start] rest).getLast?
  | before => (openBraces [] before).dropLast.getLast?

theorem mem_openBraces {around : List (List Char)} {ls : List Lexeme} {place : List Char}
    (h : place ∈ openBraces around ls) : place ∈ around ∨ ∃ l ∈ ls, l.start = place := by
  fun_induction openBraces around ls with
  | case1 around => exact .inl h
  | case2 around start rest ih =>
    rcases ih h with hin | ⟨l, hl, rfl⟩
    · rcases List.mem_cons.mp hin with rfl | hin
      · exact .inr ⟨_, List.mem_cons_self, rfl⟩
      · exact .inl hin
    · exact .inr ⟨l, List.mem_cons_of_mem _ hl, rfl⟩
  | case3 around start rest ih =>
    rcases ih h with hin | ⟨l, hl, rfl⟩
    · exact .inl (List.mem_of_mem_tail hin)
    · exact .inr ⟨l, List.mem_cons_of_mem _ hl, rfl⟩
  | case4 around l rest _ _ ih =>
    rcases ih h with hin | ⟨l, hl, rfl⟩
    · exact .inl hin
    · exact .inr ⟨l, List.mem_cons_of_mem _ hl, rfl⟩

theorem of_givenUp {before : List Lexeme} {place : List Char} (h : givenUp before = some place) :
    ∃ l ∈ before, l.start = place := by
  unfold givenUp at h
  split at h
  · next start rest =>
    rcases mem_openBraces (List.mem_of_getLast? h) with hin | ⟨l, hl, rfl⟩
    · exact ⟨_, List.mem_cons_self, (List.mem_singleton.mp hin).symm⟩
    · exact ⟨l, List.mem_cons_of_mem _ hl, rfl⟩
  · exact (mem_openBraces (List.dropLast_subset _ (List.mem_of_getLast? h))).resolve_left List.not_mem_nil

/-- The tokens are the rest of a set and of those around it. -/
def closes (inner : List Selection) (outer : List (String × List Selection)) (ls : List Lexeme) : Bool :=
  match selectionSet inner outer none ls with
  | .ok (_, []) => true
  | _ => false

section
variable {inner : List Selection} {outer : List (String × List Selection)}

/-- Which brace a fault is told at has no say in what is read. -/
theorem selectionSet_ok_of_ok {nested : Option (List Char)} {ls : List Lexeme}
    {result : List Selection × List Lexeme} (h : selectionSet inner outer nested ls = .ok result)
    (nested' : Option (List Char)) : selectionSet inner outer nested' ls = .ok result := by
  fun_induction selectionSet inner outer nested ls generalizing nested' with
  | case1 => cases h
  | case2 inner outer nested start rest n ih => exact ih h nested'
  | case3 outer nested start rest n before ih => exact ih h (nested'.or (some start))
  | case4 nested start rest s before => exact h
  | case5 nested start rest s before n outerBefore outer ih => exact ih h (if outer.isEmpty then none else nested')
  | case6 => cases h

theorem closes_eq_true_iff {ls : List Lexeme} (nested : Option (List Char)) :
    closes inner outer ls = true ↔ ∃ selections, selectionSet inner outer nested ls = .ok (selections, []) := by
  constructor
  · intro h
    unfold closes at h
    split at h
    · next selections hset => exact ⟨selections, selectionSet_ok_of_ok hset nested⟩
    · cases h
  · rintro ⟨selections, hset⟩
    rw [closes, selectionSet_ok_of_ok hset none]

@[simp] theorem closes_name (n : String) (start : List Char) (ls : List Lexeme) :
    closes inner outer (⟨.name n, start⟩ :: ls) = closes (.leaf n :: inner) outer ls := rfl

@[simp] theorem closes_openBrace (n : String) (start : List Char) (ls : List Lexeme) :
    closes (.leaf n :: inner) outer (⟨.openBrace, start⟩ :: ls) = closes [] ((n, inner) :: outer) ls := by
  rw [Bool.eq_iff_iff, closes_eq_true_iff none, closes_eq_true_iff (some start)]
  rfl

@[simp] theorem closes_closeBrace_nil (s : Selection) (start : List Char) (ls : List Lexeme) :
    closes (s :: inner) [] (⟨.closeBrace, start⟩ :: ls) = ls.isEmpty := by
  cases ls <;> rfl

@[simp] theorem closes_closeBrace (s : Selection) (n : String) (before : List Selection) (start : List Char)
    (ls : List Lexeme) : closes (s :: inner) ((n, before) :: outer) (⟨.closeBrace, start⟩ :: ls) =
      closes (.branch n (s :: inner).reverse :: before) outer ls := by
  rw [closes, selectionSet, ite_self, closes]

end

theorem closes_of_nonempty {inner : List Selection} (h : inner ≠ []) (outer : List (String × List Selection)) :
    ∃ more, closes inner outer more = true := by
  obtain ⟨s, before, rfl⟩ := List.exists_cons_of_ne_nil h
  induction outer generalizing s before with
  | nil => exact ⟨[⟨.closeBrace, []⟩], rfl⟩
  | cons o outer ih =>
    obtain ⟨n, outerBefore⟩ := o
    obtain ⟨more, hmore⟩ := ih (.branch n (s :: before).reverse) outerBefore (List.cons_ne_nil _ _)
    exact ⟨⟨.closeBrace, []⟩ :: more, (closes_closeBrace s n outerBefore [] more).trans hmore⟩

/-- Every set that is open can be closed. -/
theorem exists_closes (inner : List Selection) (outer : List (String × List Selection)) :
    ∃ more, closes inner outer more = true := by
  obtain ⟨more, hmore⟩ := closes_of_nonempty (List.cons_ne_nil (.leaf "a") inner) outer
  exact ⟨⟨.name "a", []⟩ :: more, hmore⟩

/-- Reading a set fails at the token that offends. The place that is told of it is that of the outermost nested
brace that is open there; `around` are the places of those that were open before. -/
theorem stops_of_selectionSet {inner : List Selection} {outer : List (String × List Selection)}
    (around : List (List Char)) (haround : around.length = outer.length) {ls : List Lexeme} {place : List Char}
    (h : selectionSet inner outer around.getLast? ls = .error place) :
    ∃ before after inside, ls = before ++ after ∧ Stops (closes inner outer) before after ∧
      (∀ base, openBraces (around ++ base) before = inside ++ base) ∧
      place = inside.getLast?.getD (startOf after) := by
  generalize hnested : around.getLast? = nested at h
  fun_induction selectionSet inner outer nested ls generalizing around with
  | case1 inner outer nested =>
    subst hnested
    obtain rfl := Except.error.inj h
    exact ⟨[], [], around, rfl, ⟨exists_closes inner outer, by simp, fun _ => rfl⟩, fun _ => rfl, rfl⟩
  | case2 inner outer nested start rest n ih =>
    obtain ⟨before, after, inside, rfl, hstops, hopen, hplace⟩ := ih around haround hnested h
    refine ⟨⟨.name n, start⟩ :: before, after, inside, rfl, ?_, hopen, hplace⟩
    exact hstops.behind_of_eq [⟨.name n, start⟩] (closes_name n start)
  | case3 outer nested start rest n before ih =>
    have hfirst : (start :: around).getLast? = nested.or (some start) := by
      rw [List.getLast?_cons, ← hnested]
      cases around.getLast? <;> rfl
    obtain ⟨read, after, inside, rfl, hstops, hopen, hplace⟩ := ih (start :: around) (by simpa) hfirst h
    refine ⟨⟨.openBrace, start⟩ :: read, after, inside, rfl, ?_, hopen, hplace⟩
    exact hstops.behind_of_eq [⟨.openBrace, start⟩] (closes_openBrace n start)
  | case4 => cases h
  | case5 nested start rest s before n outerBefore outer ih =>
    obtain ⟨brace, around, rfl⟩ : ∃ brace rest, around = brace :: rest :=
      List.exists_cons_of_ne_nil (by rintro rfl; simp at haround)
    have hlength : around.length = outer.length := by simpa using haround
    have hlast : around.getLast? = if outer.isEmpty then none else nested := by
      rw [← hnested]
      cases around with
      | nil => simp [List.eq_nil_of_length_eq_zero hlength.symm]
      | cons next around =>
        have hne : outer ≠ [] := by rintro rfl; simp at hlength
        simp [hne]
    obtain ⟨read, after, inside, rfl, hstops, hopen, hplace⟩ := ih around hlength hlast h
    refine ⟨⟨.closeBrace, start⟩ :: read, after, inside, rfl, ?_, hopen, hplace⟩
    exact hstops.behind_of_eq [⟨.closeBrace, start⟩] (closes_closeBrace s n outerBefore start)
  | case6 inner outer nested token start rest =>
    subst hnested
    obtain rfl := Except.error.inj h
    refine ⟨[], ⟨token, start⟩ :: rest, around, rfl, ⟨exists_closes inner outer, ?_, by simp⟩, fun _ => rfl, rfl⟩
    rintro l _ hl more
    obtain ⟨rfl, -⟩ := List.cons.inj hl
    rw [List.nil_append, closes, selectionSet] <;> assumption

/-- Behind a set that is complete there are fewer braces open by one. Nothing may follow there. -/
theorem closes_of_selectionSet {inner selections : List Selection} {outer : List (String × List Selection)}
    {nested : Option (List Char)} {around : List (List Char)} (haround : around.length = outer.length)
    {ls extra : List Lexeme} (h : selectionSet inner outer nested ls = .ok (selections, extra)) :
    ∃ read, ls = read ++ extra ∧ (∀ more, closes inner outer (read ++ more) = more.isEmpty) ∧
      ∀ place base, openBraces (around ++ place :: base) read = base := by
  fun_induction selectionSet inner outer nested ls generalizing around with
  | case1 => cases h
  | case2 inner outer nested start rest n ih =>
    obtain ⟨read, rfl, hcloses, hopen⟩ := ih haround h
    exact ⟨⟨.name n, start⟩ :: read, rfl, hcloses, hopen⟩
  | case3 outer nested start rest n before ih =>
    obtain ⟨read, rfl, hcloses, hopen⟩ := ih (show (start :: around).length = _ by simpa) h
    exact ⟨⟨.openBrace, start⟩ :: read, rfl,
      fun more => (closes_openBrace n start (read ++ more)).trans (hcloses more), hopen⟩
  | case4 nested start rest s before =>
    obtain ⟨-, rfl⟩ := Prod.mk.inj (Except.ok.inj h)
    obtain rfl := List.eq_nil_of_length_eq_zero haround
    exact ⟨[⟨.closeBrace, start⟩], rfl, closes_closeBrace_nil s start, fun _ _ => rfl⟩
  | case5 nested start rest s before n outerBefore outer ih =>
    obtain ⟨brace, around, rfl⟩ : ∃ brace rest, around = brace :: rest :=
      List.exists_cons_of_ne_nil (by rintro rfl; simp at haround)
    obtain ⟨read, rfl, hcloses, hopen⟩ := ih (Nat.succ.inj haround) h
    exact ⟨⟨.closeBrace, start⟩ :: read, rfl,
      fun more => (closes_closeBrace s n outerBefore start (read ++ more)).trans (hcloses more), hopen⟩
  | case6 => cases h

/-- Behind the brace at `start` reading stops inside its set, where this brace is open and others may be, or
behind the set, where there ought to be nothing. -/
theorem stops_behind_brace (start : List Char) {ls : List Lexeme} (h : closes [] [] ls = false) :
    ∃ before after, ls = before ++ after ∧ Stops (closes [] []) before after ∧
      ((∃ selections, selectionSet [] [] none ls = .ok (selections, after) ∧ after ≠ [] ∧
          openBraces [start] before = []) ∨
        ∃ inside, selectionSet [] [] none ls = .error (inside.getLast?.getD (startOf after)) ∧
          openBraces [start] before = inside ++ [start]) := by
  cases hset : selectionSet [] [] none ls with
  | ok result =>
    obtain ⟨selections, extra⟩ := result
    obtain ⟨read, rfl, hcloses, hopen⟩ := closes_of_selectionSet List.length_nil hset
    have hne : extra ≠ [] := by
      rintro rfl
      rw [hcloses] at h
      cases h
    refine ⟨read, extra, rfl, ⟨⟨[], hcloses []⟩, fun l _ _ more => hcloses (l :: more), fun hnil => absurd hnil hne⟩,
      .inl ⟨selections, rfl, hne, hopen start []⟩⟩
  | error place =>
    obtain ⟨before, after, inside, rfl, hstops, hopen, rfl⟩ := stops_of_selectionSet [] rfl hset
    exact ⟨before, after, rfl, hstops, .inr ⟨inside, rfl, hopen [start]⟩⟩

theorem isOk_selectionsOnly (start : List Char) (ls : List Lexeme) :
    (selectionsOnly (⟨.openBrace, start⟩ :: ls)).isOk = closes [] [] ls := by
  rw [selectionsOnly, closes]
  cases selectionSet [] [] none ls with
  | error place => rfl
  | ok result =>
    obtain ⟨selections, extra⟩ := result
    cases extra <;> rfl

theorem isOk_openBrace (text start : List Char) (ls : List Lexeme) :
    (ofLexemes text (⟨.openBrace, start⟩ :: ls)).isOk = closes [] [] ls := by
  rw [ofLexemes, closes]
  cases selectionSet [] [] none ls with
  | error place => rfl
  | ok result =>
    obtain ⟨selections, extra⟩ := result
    cases extra <;> rfl

theorem isOk_named (text start start' : List Char) (n : String) (ls : List Lexeme) :
    (ofLexemes text (⟨.name "query", start⟩ :: ⟨.name n, start'⟩ :: ls)).isOk = (selectionsOnly ls).isOk := by
  rw [ofLexemes, if_pos rfl]
  cases selectionsOnly ls <;> rfl

theorem isOk_unnamed (text start : List Char) (ls : List Lexeme) (h : ∀ l ∈ ls.head?, ∀ n, l.token ≠ .name n) :
    (ofLexemes text (⟨.name "query", start⟩ :: ls)).isOk = (selectionsOnly ls).isOk := by
  rw [ofLexemes, if_pos rfl]
  · cases selectionsOnly ls <;> rfl
  · rintro n start' rest rfl
    exact h _ rfl n rfl

theorem head_of_selectionsOnly {ls : List Lexeme} (h : (selectionsOnly ls).isOk = true) :
    ∀ l ∈ ls.head?, l.token = .openBrace := by
  obtain ⟨selections, hset⟩ := exists_of_isOk h
  unfold selectionsOnly at hset
  split at hset
  · simp
  · cases hset

/-- The set of an operation is refused at the outermost open brace inside of it. -/
theorem stops_of_selectionsOnly {ls : List Lexeme} {place : List Char} (h : selectionsOnly ls = .error place) :
    ∃ before after, ls = before ++ after ∧ Stops (fun ls => (selectionsOnly ls).isOk) before after ∧
      place = (openBraces [] before).dropLast.getLast?.getD (startOf after) := by
  unfold selectionsOnly at h
  split at h
  · next start rest =>
    have hcloses : closes [] [] rest = false := by
      rw [← isOk_selectionsOnly start, selectionsOnly, h]
      rfl
    obtain ⟨before, after, rfl, hstops, hplace⟩ := stops_behind_brace start hcloses
    refine ⟨⟨.openBrace, start⟩ :: before, after, rfl,
      hstops.behind_of_eq [⟨.openBrace, start⟩] (isOk_selectionsOnly start), ?_⟩
    rw [openBraces]
    rcases hplace with ⟨selections, hset, hne, hopen⟩ | ⟨inside, hset, hopen⟩
    · rw [hset] at h
      obtain ⟨l, extra, rfl⟩ := List.exists_cons_of_ne_nil hne
      obtain rfl := Except.error.inj h
      simp [hopen]
    · rw [hset] at h
      obtain rfl := Except.error.inj h
      simp [hopen]
  · next hbrace =>
    obtain rfl := Except.error.inj h
    refine ⟨[], ls, rfl, ⟨⟨[⟨.openBrace, []⟩, ⟨.name "a", []⟩, ⟨.closeBrace, []⟩], rfl⟩, ?_, ?_⟩, rfl⟩
    · rintro ⟨token, start⟩ rest rfl more
      cases token with
      | openBrace => exact absurd rfl (hbrace start rest)
      | _ => rfl
    · rintro rfl
      rfl

/-- Reading a document fails at the token that offends, and tells the place of a token at which it gave up. -/
theorem stops_of_ofLexemes {text : List Char} {ls : List Lexeme} {place : List Char}
    (h : ofLexemes text ls = .error place) :
    ∃ before after, ls = before ++ after ∧ Stops (fun ls => (ofLexemes text ls).isOk) before after ∧
      place = refusedAt givenUp text before after := by
  have hviable : ∃ more, (ofLexemes text more).isOk = true :=
    ⟨[⟨.openBrace, []⟩, ⟨.name "a", []⟩, ⟨.closeBrace, []⟩], rfl⟩
  unfold ofLexemes at h
  split at h
  · next start rest =>
    have hcloses : closes [] [] rest = false := by
      rw [← isOk_openBrace text start, ofLexemes, h]
      rfl
    obtain ⟨before, after, rfl, hstops, hplace⟩ := stops_behind_brace start hcloses
    refine ⟨⟨.openBrace, start⟩ :: before, after, rfl,
      hstops.behind_of_eq [⟨.openBrace, start⟩] (isOk_openBrace text start), ?_⟩
    change place = (openBraces [start] before).getLast?.getD (startOf after)
    rcases hplace with ⟨selections, hset, hne, hopen⟩ | ⟨inside, hset, hopen⟩
    · rw [hset] at h
      obtain ⟨l, extra, rfl⟩ := List.exists_cons_of_ne_nil hne
      obtain rfl := Except.error.inj h
      simp [hopen]
    · rw [hset] at h
      obtain rfl := Except.error.inj h
      simp [hopen]
  · next word start rest =>
    split at h
    · next hword =>
      subst hword
      split at h
      · next operation start' rest =>
        obtain ⟨before, after, rfl, hstops, rfl⟩ := stops_of_selectionsOnly (eq_error_of_map h)
        exact ⟨⟨.name "query", start⟩ :: ⟨.name operation, start'⟩ :: before, after, rfl,
          hstops.behind_of_eq [⟨.name "query", start⟩, ⟨.name operation, start'⟩]
            (isOk_named text start start' operation), rfl⟩
      · next rest hname =>
        obtain ⟨before, after, rfl, hstops, rfl⟩ := stops_of_selectionsOnly (eq_error_of_map h)
        refine ⟨⟨.name "query", start⟩ :: before, after, rfl,
          hstops.behind [⟨.name "query", start⟩] (fun ls hls => ?_) (fun ls hls hread => ?_), rfl⟩
        -- The set of an operation starts with a brace, and no name stands here.
        · refine (isOk_unnamed text start ls fun l hl n hn => ?_).trans hls
          rw [head_of_selectionsOnly hls l hl] at hn
          cases hn
        · refine (isOk_unnamed text start ls fun l hl n hn => ?_).trans hread
          rw [hls] at hl
          obtain ⟨rest, hrest⟩ := List.head?_eq_some_iff.mp hl
          exact hname n l.start rest (by rw [hrest, ← hn])
    · next hword =>
      obtain rfl := Except.error.inj h
      refine ⟨[], ⟨.name word, start⟩ :: rest, rfl, ⟨hviable, ?_, by simp⟩, rfl⟩
      rintro l _ hl more
      obtain ⟨rfl, -⟩ := List.cons.inj hl
      simp [ofLexemes, hword, Except.isOk, Except.toBool]
  · next hbrace hname =>
    obtain rfl := Except.error.inj h
    refine ⟨[], ls, rfl, ⟨hviable, ?_, ?_⟩, ?_⟩
    · rintro ⟨token, start⟩ rest rfl more
      cases token with
      | openBrace => exact absurd rfl (hbrace start rest)
      | name word => exact absurd rfl (hname word start rest)
      | _ => rfl
    · rintro rfl
      rfl
    · exact (refusedAt_nil givenUp text hname).symm

theorem isDocument_of_ofLexemes {text : List Char} {ls : List Lexeme} {d : Document}
    (h : ofLexemes text ls = .ok d) : IsDocument (ls.map (·.token)) d := by
  unfold ofLexemes at h
  split at h
  · split at h
    · next hset =>
      obtain rfl := Except.ok.inj h
      exact .bare (isSelectionSet_iff.mpr (spells_of_selectionSet hset))
    · cases h
    · cases h
  · split at h
    · next hword =>
      subst hword
      split at h
      · obtain ⟨selections, hset, rfl⟩ := exists_of_map_eq_ok h
        exact .named _ (isSelectionSet_iff.mpr (spells_of_selectionsOnly hset))
      · obtain ⟨selections, hset, rfl⟩ := exists_of_map_eq_ok h
        exact .unnamed (isSelectionSet_iff.mpr (spells_of_selectionsOnly hset))
    · cases h
  · cases h

theorem isOk_ofLexemes_iff (text : List Char) (ls : List Lexeme) :
    (ofLexemes text ls).isOk = true ↔ ∃ d, IsDocument (ls.map (·.token)) d := by
  constructor
  · intro h
    obtain ⟨d, hd⟩ := exists_of_isOk h
    exact ⟨d, isDocument_of_ofLexemes hd⟩
  · rintro ⟨d, hd⟩
    rw [ofLexemes_of_isDocument hd]
    rfl

theorem parse_eq_error_iff {text : List Char} {fault : SyntaxFault} : parse text = .error fault ↔
    ∃ place, ofLexemes text (lexemes text) = .error place ∧ fault = .locate text place := by
  unfold parse
  cases ofLexemes text (lexemes text) <;> simp [Except.mapError, eq_comm]

/-- A malformed query is told at its offending token, unless that stands inside of nested sets. -/
theorem locatesFaults (text : List Char) :
    LocatesFaults (parse text = .error ·) (fun ts => ∃ d, IsDocument ts d) givenUp text :=
  .of_reader (fun _ => parse_eq_error_iff) (isOk_ofLexemes_iff text) (fun _ _ => stops_of_ofLexemes)
    fun _ _ => of_givenUp

end RouteQuery.Document
