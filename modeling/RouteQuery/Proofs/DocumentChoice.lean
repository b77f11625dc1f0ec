import RouteQuery.Document
import RouteQuery.Proofs.TokenReaders

/-! The grammar of query documents, `("query" Name?)? Set` with `Set = "{" Selection+ "}"` and `Selection = Name Set?`,
as readers made of ordered choice. What they read, and where they say that a document is malformed, is what reading
its tokens in one go comes to. -/
namespace RouteQuery.Document
open Scan

section
variable {σ : Type} (t : Terminals σ)

def setReader (selection : Scan σ Selection) : Scan σ (List Selection) :=
  t.openBrace.bind fun _ => selection.many1.bind fun selections => t.closeBrace.bind fun _ => Scan.pure selections

def withChildren (n : String) : Option (List Selection) → Selection
  | none => .leaf n
  | some children => .branch n children

/-- Sets are nested less deep than `depth`. -/
def selectionReader : Nat → Scan σ Selection
  | 0 => fun _ => .error []
  | depth + 1 => t.name.bind fun n => (setReader t (selectionReader depth)).opt.bind fun children =>
      Scan.pure (withChildren n children)

variable {t} {selection : Scan σ Selection}

theorem takes_setReader (h : Takes selection) : Takes (setReader t selection) :=
  t.takes_openBrace.bind fun _ => h.many1.shortens.bind fun _ => t.takes_closeBrace.shortens.bind fun _ =>
    shortens_pure _

theorem takes_selectionReader (depth : Nat) : Takes (selectionReader t depth) := by
  induction depth with
  | zero =>
    intro xs s rest h
    cases h
  | succ depth ih =>
    exact t.takes_name.bind fun _ => (takes_setReader ih).shortens.opt.bind fun _ => shortens_pure _

end

theorem lifts_setReader {p : Scan Char Selection} {q : Scan Lexeme Selection} (h : Lifts p q) (hp : Takes p)
    (hq : Takes q) : Lifts (setReader inText p) (setReader inTokens q) :=
  lifts_openBrace.bind fun _ => (h.many1 hp hq).bind fun _ => lifts_closeBrace.bind fun _ => lifts_pure _

theorem lifts_selectionReader (depth : Nat) :
    Lifts (selectionReader inText depth) (selectionReader inTokens depth) := by
  induction depth with
  | zero => exact fun _ => rfl
  | succ depth ih =>
    exact lifts_name.bind fun _ =>
      (lifts_setReader ih (takes_selectionReader depth) (takes_selectionReader depth)).opt.bind fun _ => lifts_pure _

theorem lifts_nestedSet (depth : Nat) : Lifts (setReader inText (selectionReader inText depth))
    (setReader inTokens (selectionReader inTokens depth)) :=
  lifts_setReader (lifts_selectionReader depth) (takes_selectionReader depth) (takes_selectionReader depth)

/-! ### One pass over the tokens -/

section
variable {depth : Nat} {n : String} {s : Selection} {start place : List Char} {ls rest : List Lexeme}

theorem selectionReader_name (depth : Nat) (n : String) (start : List Char) (ls : List Lexeme) :
    selectionReader inTokens (depth + 1) (⟨.name n, start⟩ :: ls) =
      match setReader inTokens (selectionReader inTokens depth) ls with
      | .ok (children, rest) => .ok (.branch n children, rest)
      | .error _ => .ok (.leaf n, ls) := by
  rw [selectionReader, bind_of_ok (p := inTokens.name) rfl]
  cases hset : setReader inTokens (selectionReader inTokens depth) ls with
  | ok result =>
    rw [bind_of_ok (opt_of_ok hset)]
    rfl
  | error place =>
    rw [bind_of_ok (opt_of_error hset)]
    rfl

theorem selectionReader_eq_error (hdepth : ls.length ≤ depth)
    (hname : ∀ n start rest, ls ≠ ⟨.name n, start⟩ :: rest) :
    selectionReader inTokens depth ls = .error (startOf ls) := by
  cases depth with
  | zero =>
    rw [List.eq_nil_of_length_eq_zero (Nat.le_zero.mp hdepth)]
    rfl
  | succ depth => exact bind_of_error (tokenName_eq_error hname)

/-- The end of a set of these selections. -/
def closeSet (selections : List Selection) : Scan Lexeme (List Selection) := fun ls =>
  match selections, ls with
  | _ :: _, ⟨.closeBrace, _⟩ :: rest => .ok (selections, rest)
  | _, _ => .error (startOf ls)

/-- What is left of a set of which `inner` has been read, in reverse. -/
def restOfSet (depth : Nat) (inner : List Selection) : Scan Lexeme (List Selection) := fun ls =>
  closeSet (inner.reverse ++ (repeated (selectionReader inTokens depth) ls).1)
    (repeated (selectionReader inTokens depth) ls).2

variable {inner : List Selection}

theorem restOfSet_of_ok (h : selectionReader inTokens depth ls = .ok (s, rest)) :
    restOfSet depth inner ls = restOfSet depth (s :: inner) rest := by
  rw [restOfSet, repeated_of_ok (takes_selectionReader depth) h, restOfSet, List.reverse_cons, List.append_assoc,
    List.singleton_append]

theorem restOfSet_of_error (h : selectionReader inTokens depth ls = .error place) :
    restOfSet depth inner ls = closeSet inner.reverse ls := by
  rw [restOfSet, repeated_of_error h, List.append_nil]

theorem closeSet_closeBrace (h : inner ≠ []) (start : List Char) (rest : List Lexeme) :
    closeSet inner (⟨.closeBrace, start⟩ :: rest) = .ok (inner, rest) := by
  obtain ⟨s, inner, rfl⟩ := List.exists_cons_of_ne_nil h
  rfl

theorem closeSet_eq_error (h : inner = [] ∨ ∀ start rest, ls ≠ ⟨.closeBrace, start⟩ :: rest) :
    closeSet inner ls = .error (startOf ls) := by
  unfold closeSet
  split
  · rcases h with h | h
    · cases h
    · exact absurd rfl (h _ _)
  · rfl

theorem closeBrace_bind_eq_closeSet (h : inner ≠ []) (ls : List Lexeme) :
    (inTokens.closeBrace.bind fun _ => Scan.pure inner) ls = closeSet inner ls := by
  by_cases hclose : ∃ start rest, ls = ⟨.closeBrace, start⟩ :: rest
  · obtain ⟨start, rest, rfl⟩ := hclose
    rw [closeSet_closeBrace h]
    rfl
  · push Not at hclose
    rw [closeSet_eq_error (.inr hclose)]
    exact bind_of_error (token_eq_error hclose)

theorem startOf_of_selectionReader (hdepth : ls.length ≤ depth)
    (h : selectionReader inTokens depth ls = .error place) : place = startOf ls := by
  by_cases hname : ∃ n start rest, ls = ⟨.name n, start⟩ :: rest
  · obtain ⟨n, start, rest, rfl⟩ := hname
    obtain ⟨depth, rfl⟩ := Nat.exists_eq_succ_of_ne_zero (Nat.ne_zero_of_lt hdepth)
    rw [selectionReader_name] at h
    split at h <;> cases h
  · push Not at hname
    rw [selectionReader_eq_error hdepth hname] at h
    exact (Except.error.inj h).symm

theorem setReader_openBrace (hdepth : ls.length ≤ depth) :
    setReader inTokens (selectionReader inTokens depth) (⟨.openBrace, start⟩ :: ls) = restOfSet depth [] ls := by
  rw [setReader, bind_of_ok (p := inTokens.openBrace) rfl]
  cases hfirst : selectionReader inTokens depth ls with
  | error place =>
    rw [restOfSet_of_error hfirst, List.reverse_nil, closeSet_eq_error (.inl rfl),
      bind_of_error (many1_of_error hfirst), startOf_of_selectionReader hdepth hfirst]
  | ok result =>
    rw [restOfSet_of_ok hfirst, bind_of_ok (many1_of_ok hfirst), closeBrace_bind_eq_closeSet (List.cons_ne_nil _ _)]
    rfl

theorem setReader_eq_error (h : ∀ start rest, ls ≠ ⟨.openBrace, start⟩ :: rest) (selection : Scan Lexeme Selection) :
    setReader inTokens selection ls = .error (startOf ls) := bind_of_error (token_eq_error h)

theorem restOfSet_eq_error (hdepth : ls.length ≤ depth) (hname : ∀ n start rest, ls ≠ ⟨.name n, start⟩ :: rest)
    (hclose : inner = [] ∨ ∀ start rest, ls ≠ ⟨.closeBrace, start⟩ :: rest) :
    restOfSet depth inner ls = .error (startOf ls) := by
  rw [restOfSet_of_error (selectionReader_eq_error hdepth hname)]
  exact closeSet_eq_error (hclose.imp_left fun h => by rw [h, List.reverse_nil])

end

/-- What a set that is read means for those around it. -/
def leave (nested : Option (List Char)) :
    List (String × List Selection) → List Selection × List Lexeme → Except (List Char) (List Selection × List Lexeme)
  | [], result => .ok result
  | (n, before) :: outer, (children, rest) =>
    selectionSet (.branch n children :: before) outer (if outer.isEmpty then none else nested) rest

theorem nested_behind {outer : List (String × List Selection)} {nested : Option (List Char)}
    (h : nested = none ↔ outer = []) (brace : List Char) :
    (if outer.isEmpty then none else nested.or (some brace)) = nested := by
  cases outer with
  | nil => exact (h.mpr rfl).symm
  | cons o outer =>
    obtain ⟨place, rfl⟩ := Option.ne_none_iff_exists'.mp fun hnone => List.cons_ne_nil _ _ (h.mp hnone)
    rfl

/-- One pass reads what is left of the set and goes on behind it. A fault in it is a fault of the sets around it,
which ends at the brace at which the outermost of the nested sets begins. -/
def ReadsOn (depth : Nat) (inner : List Selection) (outer : List (String × List Selection))
    (nested : Option (List Char)) (ls : List Lexeme) : Prop :=
  selectionSet inner outer nested ls =
    match restOfSet depth inner ls with
    | .ok result => leave nested outer result
    | .error place => .error (nested.getD place)

section
variable {depth : Nat} {inner : List Selection} {outer : List (String × List Selection)}
  {nested : Option (List Char)} {n : String} {start brace : List Char} {ls : List Lexeme}

theorem readsOn_of_error (hdepth : ls.length ≤ depth) (hname : ∀ n start rest, ls ≠ ⟨.name n, start⟩ :: rest)
    (hclose : inner = [] ∨ ∀ start rest, ls ≠ ⟨.closeBrace, start⟩ :: rest)
    (h : selectionSet inner outer nested ls = .error (nested.getD (startOf ls))) :
    ReadsOn depth inner outer nested ls := by
  rw [ReadsOn, h, restOfSet_eq_error hdepth hname hclose]

theorem readsOn_closeBrace (hinner : inner ≠ []) (hdepth : (⟨.closeBrace, start⟩ :: ls : List Lexeme).length ≤ depth) :
    ReadsOn depth inner outer nested (⟨.closeBrace, start⟩ :: ls) := by
  obtain ⟨s, inner, rfl⟩ := List.exists_cons_of_ne_nil hinner
  rw [ReadsOn, restOfSet_of_error (selectionReader_eq_error hdepth (by simp)), closeSet_closeBrace (by simp)]
  cases outer <;> rfl

theorem readsOn_leaf (hbrace : ∀ start rest, ls ≠ ⟨.openBrace, start⟩ :: rest)
    (h : ReadsOn (depth + 1) (.leaf n :: inner) outer nested ls) :
    ReadsOn (depth + 1) inner outer nested (⟨.name n, start⟩ :: ls) := by
  have hselection := selectionReader_name depth n start ls
  rw [setReader_eq_error hbrace] at hselection
  rw [ReadsOn, restOfSet_of_ok hselection, selectionSet]
  exact h

/-- The set behind the brace is read first. It ends up in the one around it, or its brace is where that fails. -/
theorem readsOn_branch (hnested : nested = none ↔ outer = []) (hdepth : ls.length < depth)
    (hinside : ReadsOn depth [] ((n, inner) :: outer) (nested.or (some brace)) ls)
    (hbehind : ∀ children after, after.length < ls.length + 2 →
      ReadsOn (depth + 1) (.branch n children :: inner) outer nested after) :
    ReadsOn (depth + 1) inner outer nested (⟨.name n, start⟩ :: ⟨.openBrace, brace⟩ :: ls) := by
  have hselection := selectionReader_name depth n start (⟨.openBrace, brace⟩ :: ls)
  rw [setReader_openBrace (Nat.le_of_lt hdepth)] at hselection
  rw [ReadsOn, selectionSet, selectionSet, hinside]
  cases hrest : restOfSet depth [] ls with
  | ok result =>
    obtain ⟨children, after⟩ := result
    rw [hrest] at hselection
    rw [restOfSet_of_ok hselection]
    change selectionSet (.branch n children :: inner) outer _ after = _
    rw [nested_behind hnested brace]
    exact hbehind children after (takes_selectionReader _ _ _ _ hselection)
  | error place =>
    rw [hrest] at hselection
    have hfail : restOfSet (depth + 1) (.leaf n :: inner) (⟨.openBrace, brace⟩ :: ls) = .error brace :=
      restOfSet_eq_error (Nat.succ_le_succ (Nat.le_of_lt hdepth)) (by simp) (.inr (by simp))
    rw [restOfSet_of_ok hselection, hfail]
    cases nested <;> rfl

end

/-- By `hset` a brace comes behind its name only, where the two of them are read as one step. -/
theorem readsOn {depth : Nat} {inner : List Selection} {outer : List (String × List Selection)}
    {nested : Option (List Char)} {ls : List Lexeme} (hdepth : ls.length ≤ depth)
    (hnested : nested = none ↔ outer = [])
    (hset : ∀ n before start rest, inner = .leaf n :: before → ls ≠ ⟨.openBrace, start⟩ :: rest) :
    ReadsOn depth inner outer nested ls := by
  induction hn : ls.length using Nat.strongRecOn generalizing depth inner outer nested ls with
  | _ m ih =>
    subst hn
    cases ls with
    | nil => exact readsOn_of_error hdepth (by simp) (.inr (by simp)) rfl
    | cons l ls =>
      obtain ⟨t, start⟩ := l
      obtain ⟨depth, rfl⟩ := Nat.exists_eq_succ_of_ne_zero (Nat.ne_zero_of_lt hdepth)
      cases t with
      | name n =>
        by_cases hbrace : ∃ start rest, ls = ⟨.openBrace, start⟩ :: rest
        · obtain ⟨brace, ls, rfl⟩ := hbrace
          have hls : ls.length < depth := Nat.le_of_succ_le_succ hdepth
          -- Both parts are shorter, what is behind the nested set because its reader takes something.
          refine readsOn_branch hnested hls ?_ fun children after hafter => ?_
          · exact ih ls.length (Nat.lt_succ_of_lt (Nat.lt_succ_self _)) (Nat.le_of_lt hls) (by simp) (by simp) rfl
          · exact ih after.length hafter (Nat.le_trans (Nat.le_of_lt hafter) hdepth) hnested (by simp) rfl
        · push Not at hbrace
          exact readsOn_leaf hbrace (ih ls.length (Nat.lt_succ_self _) (Nat.le_of_succ_le hdepth) hnested
            (fun _ _ start rest _ => hbrace start rest) rfl)
      | closeBrace =>
        cases inner with
        | nil => exact readsOn_of_error hdepth (by simp) (.inl rfl) rfl
        | cons s inner => exact readsOn_closeBrace (List.cons_ne_nil s inner) hdepth
      | openBrace =>
        refine readsOn_of_error hdepth (by simp) (.inr (by simp)) ?_
        match inner with
        | [] => rfl
        | .leaf n :: before => exact absurd rfl (hset n before start ls rfl)
        | .branch n children :: before => rfl
      | colon | bang | stray => exact readsOn_of_error hdepth (by simp) (.inr (by simp)) rfl

theorem selectionSet_eq_setReader {depth : Nat} {ls : List Lexeme} (hdepth : ls.length ≤ depth) (start : List Char) :
    selectionSet [] [] none ls = setReader inTokens (selectionReader inTokens depth) (⟨.openBrace, start⟩ :: ls) := by
  have hread : ReadsOn depth [] [] none ls := readsOn hdepth (by simp) (by simp)
  rw [hread, setReader_openBrace hdepth]
  cases restOfSet depth [] ls <;> rfl

/-! ### Whole documents -/

/-- The set alone is tried first. Where neither can be read the fault is that of the other. -/
def operationReader (depth : Nat) : Scan Char Document :=
  let set := setReader inText (selectionReader inText depth)
  (set.bind fun selections => Scan.pure ⟨none, selections⟩).orElse
    ((keyword "query").bind fun _ => inText.name.opt.bind fun operation => set.bind fun selections =>
      Scan.pure ⟨operation, selections⟩)

section
variable {depth : Nat} {text : List Char}

theorem selectionsOnly_eq_completeTokens {ls : List Lexeme} (hdepth : ls.length ≤ depth) :
    selectionsOnly ls = completeTokens (setReader inTokens (selectionReader inTokens depth) ls) := by
  unfold selectionsOnly
  split
  · next start rest =>
    rw [← selectionSet_eq_setReader (Nat.le_of_succ_le hdepth)]
    rcases selectionSet [] [] none rest with _ | ⟨_, _ | _⟩ <;> rfl
  · next hbrace =>
    rw [setReader_eq_error hbrace]
    rfl

theorem complete_setReader {cs : List Char} (hdepth : (lexemes cs).length ≤ depth) (operation : Option String) :
    complete (((setReader inText (selectionReader inText depth)).bind fun selections =>
      Scan.pure (Document.mk operation selections)) cs) = (selectionsOnly (lexemes cs)).map (⟨operation, ·⟩) := by
  rw [complete_pure, selectionsOnly_eq_completeTokens hdepth, (lifts_nestedSet depth).complete_eq]

theorem operationReader_of_ok {result : List Selection × List Char}
    (h : setReader inText (selectionReader inText depth) text = .ok result) :
    operationReader depth text =
      ((setReader inText (selectionReader inText depth)).bind fun selections => Scan.pure ⟨none, selections⟩) text := by
  rw [operationReader, orElse_of_ok (bind_of_ok h), bind_of_ok h]
  rfl

theorem operationReader_of_error {place : List Char}
    (h : setReader inText (selectionReader inText depth) text = .error place) :
    operationReader depth text = ((keyword "query").bind fun _ => inText.name.opt.bind fun operation =>
      (setReader inText (selectionReader inText depth)).bind fun selections => Scan.pure ⟨operation, selections⟩) text :=
  orElse_of_error (bind_of_error h)

theorem operationReader_eq_error {place place' : List Char}
    (h : setReader inText (selectionReader inText depth) text = .error place)
    (hname : inText.name text = .error place') :
    operationReader depth text = .error place' := by
  rw [operationReader_of_error h, bind_of_error (keyword_of_error hname "query")]

/-- Behind the word there is a name, or there is none, and a set. -/
theorem complete_behindWord {after : List Char} (hdepth : (lexemes after).length ≤ depth) :
    complete ((inText.name.opt.bind fun operation =>
      (setReader inText (selectionReader inText depth)).bind fun selections =>
        Scan.pure (Document.mk operation selections)) after) =
      match lexemes after with
      | ⟨.name operation, _⟩ :: rest => (selectionsOnly rest).map (⟨some operation, ·⟩)
      | rest => (selectionsOnly rest).map (⟨none, ·⟩) := by
  split
  · next operation start rest hafter =>
    obtain ⟨behind, hoperation, hbehind⟩ := lifts_name.exists_of_ok (inTokens_name hafter)
    rw [hafter] at hdepth
    rw [bind_of_ok (opt_of_ok hoperation), complete_setReader (hbehind ▸ Nat.le_of_succ_le hdepth), hbehind]
  · next hoperation =>
    have hnone : inText.name after = .error (startOf (lexemes after)) :=
      lifts_name.error_of_error (tokenName_eq_error (by simpa using hoperation))
    rw [bind_of_ok (opt_of_error hnone), complete_setReader hdepth]

/-- Reading the tokens of a document in one pass is reading its text by the grammar. -/
theorem ofLexemes_eq_complete (hdepth : text.length ≤ depth) :
    ofLexemes text (lexemes text) = complete (operationReader depth text) := by
  have hset := lifts_nestedSet depth
  have hlength := Nat.le_trans (length_lexemes_le text) hdepth
  unfold ofLexemes
  split
  · next start rest hls =>
    rw [hls] at hlength
    rw [selectionSet_eq_setReader (Nat.le_of_succ_le hlength) start, ← hls]
    cases hfirst : setReader inText (selectionReader inText depth) text with
    | ok result =>
      obtain ⟨selections, after⟩ := result
      rw [operationReader_of_ok hfirst, complete_pure, hset.complete_eq, hset.of_ok hfirst]
      cases lexemes after <;> rfl
    | error place =>
      have hname : inText.name text = .error start := lifts_name.error_of_error (by rw [hls]; rfl)
      rw [operationReader_eq_error hfirst hname, hset.of_error hfirst]
      rfl
  · next word start rest hls =>
    have hfail : setReader inText (selectionReader inText depth) text = .error start :=
      hset.error_of_error (by rw [hls]; exact setReader_eq_error (by simp) _)
    obtain ⟨after, hname, hafter⟩ := lifts_name.exists_of_ok (inTokens_name hls)
    rw [hls] at hlength
    rw [operationReader_of_error hfail]
    have hkeyword := keyword_of_ok hname "query"
    split at hkeyword
    · next hword =>
      have hbehind : (lexemes after).length ≤ depth := hafter ▸ Nat.le_of_succ_le hlength
      have hread := complete_behindWord hbehind
      rw [hafter] at hread
      rw [if_pos hword, bind_of_ok hkeyword]
      exact hread.symm
    · next hword =>
      rw [if_neg hword, bind_of_error hkeyword]
      rfl
  · next hbrace hname =>
    rw [operationReader_eq_error (hset.error_of_error (setReader_eq_error (by simpa using hbrace) _))
      (lifts_name.error_of_error (tokenName_eq_error (by simpa using hname)))]
    rfl

theorem parse_eq_complete (hdepth : text.length ≤ depth) :
    parse text = (complete (operationReader depth text)).mapError (SyntaxFault.locate text) := by
  rw [parse, ofLexemes_eq_complete hdepth]

end

end RouteQuery.Document
