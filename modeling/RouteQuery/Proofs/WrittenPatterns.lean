import RouteQuery.Proofs.ParamNames

/-! The regular expression for a literal path as it is written. Reading it gives what is put together piece
by piece. -/
namespace RouteQuery
open Pattern

namespace Pattern.Reader

theorem run?_cons {r : Reader} (h : r.flags.verbose = false) (fuel : Nat) (c : Char) (cs : List Char) :
    run? (fuel + 1) r (c :: cs) = (r.step? c cs).bind fun next => run? fuel next.1 next.2 := by
  simp only [run?, skip, h, Bool.false_eq_true, if_false]
  rfl

end Pattern.Reader

namespace PathTemplate
open Reader

/-- The reader behind `(?i)` when `b` is built. -/
def reading (b : Build) (groups : Nat) : Reader := ⟨b, caseless, groups, []⟩

variable {b : Build} {groups fuel : Nat} {cs : List Char}

theorem run?_reading_cons (c : Char) :
    run? (fuel + 1) (reading b groups) (c :: cs) =
      ((reading b groups).step? c cs).bind fun next => run? fuel next.1 next.2 :=
  run?_cons rfl fuel c cs

theorem escape?_of_isEscapable {f : Flags} {c : Char} (h : isEscapable c = true) :
    escape? f (c :: cs) = some (.literal c false, cs) := by
  have hne {d : Char} (hd : isEscapable d = false) : c ≠ d := by
    rintro rfl
    exact Bool.false_ne_true (hd.symm.trans h)
  have hunescapable : ['x', 'u', 'U', 'p', 'P', 'd', 's', 'w', 'D', 'S', 'W'].all (!isEscapable ·) = true := by
    decide
  have hletters : ∀ d ∈ ['x', 'u', 'U', 'p', 'P', 'd', 's', 'w', 'D', 'S', 'W'], c ≠ d :=
    fun d hd => hne (by simpa using List.all_eq_true.mp hunescapable d hd)
  simp only [List.forall_mem_cons] at hletters
  simp [escape?, hletters, h]

theorem isEscapable_of_isMeta {c : Char} (h : isMeta c = true) : isEscapable c = true :=
  List.all_eq_true.mp (by decide : metaChars.all isEscapable = true) c (List.contains_iff_mem.mp h)

theorem step?_escaped {c : Char} (h : isMeta c = true) :
    (reading b groups).step? '\\' (c :: cs) = some (reading (b.push (plainPart c)) groups, cs) := by
  have hstep : (reading b groups).step? '\\' (c :: cs) = (reading b groups).escaped? (c :: cs) := rfl
  rw [hstep, escaped?, escape?_of_isEscapable (isEscapable_of_isMeta h)]
  rfl

theorem step?_plain {c : Char} (h : isMeta c = false) :
    (reading b groups).step? c cs = some (reading (b.push (plainPart c)) groups, cs) := by
  have hmeta : ['(', ')', '|', '[', '?', '*', '+', '\x7b', '\\', '.', '^', '$'].all isMeta = true := by decide
  have hoperators : ∀ d ∈ ['(', ')', '|', '[', '?', '*', '+', '\x7b', '\\', '.', '^', '$'], c ≠ d := by
    rintro d hd rfl
    exact Bool.false_ne_true (h.symm.trans (List.all_eq_true.mp hmeta c hd))
  simp only [List.forall_mem_cons] at hoperators
  simp only [step?, hoperators, if_false]
  rfl

theorem run?_plain (c : Char) :
    run? (fuel + 1) (reading b groups) ((Piece.plain c).text ++ cs) =
      run? fuel (reading (b.push (plainPart c)) groups) cs := by
  cases h : isMeta c with
  | true =>
    rw [Piece.text, h, if_pos rfl, List.cons_append, run?_reading_cons, List.cons_append, List.nil_append,
      step?_escaped h, Option.bind_some]
  | false =>
    rw [Piece.text, h, if_neg Bool.false_ne_true, List.cons_append, run?_reading_cons, List.nil_append,
      step?_plain h, Option.bind_some]

theorem bracketed?_notSlash :
    bracketed? caseless (fuel + 2) ⟨true, none, .nothing, 1⟩ [] ('/' :: ']' :: cs) = some (notSlash, 1, cs) := by
  have hitem : classRange? caseless ('/' :: ']' :: cs) = some (.single '/', ']' :: cs) := rfl
  have hopen : bracketed? caseless (fuel + 2) ⟨true, none, .nothing, 1⟩ [] ('/' :: ']' :: cs) =
      (classRange? caseless ('/' :: ']' :: cs)).bind fun next =>
        bracketed? caseless (fuel + 1) ⟨true, none, .union .nothing next.1, 1⟩ [] next.2 := rfl
  rw [hopen, hitem, Option.bind_some]
  rfl

theorem step?_notSlash :
    (reading b groups).step? '[' ('^' :: '/' :: ']' :: cs) =
      some (reading (b.push ⟨.one notSlash, 1⟩) groups, cs) := by
  have hstep : (reading b groups).step? '[' ('^' :: '/' :: ']' :: cs) =
      (bracketed? caseless (cs.length + 2 + 2) ⟨true, none, .nothing, 1⟩ [] ('/' :: ']' :: cs)).bind
        fun next => some (reading (b.push ⟨.one next.1, next.2.1⟩) groups, next.2.2) := rfl
  rw [hstep, bracketed?_notSlash, Option.bind_some]

theorem run?_param :
    run? (fuel + 4) (reading b groups) (paramText ++ cs) =
      run? fuel (reading (b.push (paramPart (groups + 1))) (groups + 1)) cs := by
  have hopen : run? (fuel + 4) (reading b groups) (paramText ++ cs) =
      run? (fuel + 3) (reading (b.openGroup (some (groups + 1)) caseless) (groups + 1))
        ('[' :: '^' :: '/' :: ']' :: '+' :: '?' :: ')' :: cs) := rfl
  rw [hopen, run?_reading_cons, step?_notSlash, Option.bind_some]
  rfl

theorem run?_wildcard :
    run? (fuel + 4) (reading b groups) (wildcardText ++ cs) =
      run? fuel (reading (b.push (wildcardPart (groups + 1))) (groups + 1)) cs := rfl

theorem run?_openGroup :
    run? (fuel + 1) (reading b groups) ('(' :: '?' :: ':' :: cs) =
      run? fuel (reading (b.openGroup none caseless) groups) cs := rfl

/-- All but the operator at the end. -/
theorem run?_segment :
    run? (fuel + 7) (reading b groups) (segmentText ++ cs) =
      run? fuel (reading (b.push (segmentPart (groups + 1))) (groups + 1)) ('?' :: cs) := by
  have hopen : run? (fuel + 7) (reading b groups) (segmentText ++ cs) =
      run? (fuel + 5) (reading ((b.openGroup none caseless).push (plainPart '/')) groups)
        (paramText ++ ')' :: '?' :: cs) := rfl
  rw [hopen, run?_param]
  rfl

/-- An operator is greedy where no `?` stands behind it. -/
theorem run?_iterate {c : Char} {least : Nat} {most : Option Nat}
    (hstep : ∀ cs, (reading b groups).step? c cs = (reading b groups).iterate? least most cs)
    (hcs : cs.head? ≠ some '?') :
    run? (fuel + 1) (reading b groups) (c :: cs) =
      (b.iterate? least most true).bind fun b => run? fuel (reading b groups) cs := by
  have hgreedy : (reading b groups).iterate? least most cs =
      (b.iterate? least most true).bind fun b => some (reading b groups, cs) := by
    rw [iterate?]
    · rfl
    · rintro rest rfl
      exact hcs rfl
  rw [run?_reading_cons, hstep, hgreedy, Option.bind_assoc]
  rfl

theorem run?_iterate_reluctant {c : Char} {least : Nat} {most : Option Nat}
    (hstep : ∀ cs, (reading b groups).step? c cs = (reading b groups).iterate? least most cs) :
    run? (fuel + 1) (reading b groups) (c :: '?' :: cs) =
      (b.iterate? least most false).bind fun b => run? fuel (reading b groups) cs := by
  have hreluctant : (reading b groups).iterate? least most ('?' :: cs) =
      (b.iterate? least most false).bind fun b => some (reading b groups, cs) := rfl
  rw [run?_reading_cons, hstep, hreluctant, Option.bind_assoc]
  rfl

/-! ### Open groups -/

/-- The flags that come back in force as groups are closed, after those of the innermost. -/
def flagStack (b : Build) : List Flags := b.level.flags :: b.outer.map Level.flags

/-- Every group that is open stands behind `(?i)`. -/
def Folding (b : Build) : Prop := ∀ f ∈ (flagStack b).dropLast, f = caseless

theorem Folding.push (hb : Folding b) (part : Part) : Folding (b.push part) := hb

theorem Folding.openGroup (hb : Folding b) : Folding (b.openGroup none caseless) :=
  List.forall_mem_cons.mpr ⟨rfl, hb⟩

theorem Folding.iterate {b' : Build} {least : Nat} {most : Option Nat} {greedy : Bool} (hb : Folding b)
    (h : b.iterate? least most greedy = some b') : Folding b' := by
  obtain ⟨l, hl, rfl⟩ := Option.map_eq_some_iff.mp h
  unfold Level.iterate? at hl
  split at hl
  · obtain rfl := Option.some.inj hl
    exact hb
  · cases hl

theorem Folding.closeGroup {b' : Build} (hb : Folding b) (h : b.closeGroup? = some b') : Folding b' := by
  obtain ⟨l, outer⟩ := b
  cases outer with
  | nil => cases h
  | cons m outer =>
    obtain rfl := Option.some.inj h
    exact (List.forall_mem_cons.mp hb).2

theorem run?_closeGroup (hb : Folding b) :
    run? (fuel + 1) (reading b groups) (')' :: cs) =
      b.closeGroup?.bind fun b => run? fuel (reading b groups) cs := by
  obtain ⟨l, outer⟩ := b
  rw [run?_reading_cons]
  cases outer with
  | nil => rfl
  | cons m outer =>
    have hflags : l.flags = caseless := (List.forall_mem_cons.mp hb).1
    have hstep : (reading ⟨l, m :: outer⟩ groups).step? ')' cs =
        some (⟨⟨m.push l.closed, outer⟩, l.flags, groups, []⟩, cs) := rfl
    rw [hstep, hflags]
    rfl

/-! ### Pieces one after another -/

theorem text_plain {c : Char} {ps : List Piece}
    (h : ∀ name rest, ps = .param name :: .question :: rest → c = '/' → False) :
    text (.plain c :: ps) = (Piece.plain c).text ++ text ps := by
  rw [text]
  rintro name rest hc rfl
  exact h name rest rfl (Piece.plain.inj hc)

/-- What stands behind the pieces of a path. -/
def textEnd : MatchMode → List Char
  | .route => ['$']
  | .mount => []

theorem source_eq (ps : List Piece) (mode : MatchMode) :
    source ps mode = ['(', '?', 'i', ')', '^'] ++ (text ps ++ textEnd mode) := by
  cases mode with
  | route => rw [source, textEnd, List.append_assoc]
  | mount => rw [source, textEnd, List.append_nil]

theorem Piece.head?_text_ne {p : Piece} (h : p ≠ .question) (cs : List Char) :
    (p.text ++ cs).head? ≠ some '?' := by
  cases p with
  | question => exact absurd rfl h
  | plain c =>
    rw [Piece.text]
    split
    · simp
    · next hc =>
      rintro hhead
      obtain rfl := Option.some.inj hhead
      exact hc (by decide)
  | param name | wildcard | openGroup | closeGroup | plus => simp [Piece.text, paramText, wildcardText]

theorem Piece.text_length_pos (p : Piece) : 1 ≤ p.text.length := by
  cases p with
  | plain c =>
    rw [Piece.text]
    split <;> simp
  | _ => simp [Piece.text, paramText, wildcardText]

/-- Only an operator is written as a `?` in front. -/
theorem head?_text_ne {ps : List Piece} (h : ∀ rest, ps = .question :: rest → False) (mode : MatchMode) :
    (text ps ++ textEnd mode).head? ≠ some '?' := by
  fun_cases text ps with
  | case1 => cases mode <;> simp [textEnd]
  | case2 name rest => simp [segmentText]
  | case3 p rest =>
    rw [List.append_assoc]
    exact Piece.head?_text_ne (fun hp => h rest (by rw [hp])) _

/-- The reader takes at least one character in each step. -/
theorem spend (xs : List Char) {ys : List Char} (k : Nat) (hk : k ≤ xs.length) (h : (xs ++ ys).length < fuel) :
    ∃ m, fuel = m + k ∧ ys.length < m := by
  rw [List.length_append] at h
  exact ⟨fuel - k, by omega, by omega⟩

/-- The reader at the end of an expression for which `built` has been put together. -/
def finished (mode : MatchMode) (built : Build × List String) : Reader :=
  reading (closing built.1 mode) built.2.length

theorem bind_finished {o : Option Build} {keys : List String} {wildcards : Nat} {ps : List Piece}
    {mode : MatchMode} (h : ∀ b, o = some b → run? fuel (reading b keys.length) cs =
      (assemble b keys wildcards ps).map (finished mode)) :
    (o.bind fun b => run? fuel (reading b keys.length) cs) =
      (do assemble (← o) keys wildcards ps : Option (Build × List String)).map (finished mode) := by
  rw [Option.bind_eq_bind, Option.map_bind]
  exact Option.bind_congr h

/-- Reading pieces that are written out builds what they are assembled to. -/
theorem run?_text (keys : List String) {wildcards : Nat} {ps : List Piece} {mode : MatchMode}
    (hb : Folding b) (hfuel : (text ps ++ textEnd mode).length < fuel) :
    run? fuel (reading b keys.length) (text ps ++ textEnd mode) =
      (assemble b keys wildcards ps).map (finished mode) := by
  fun_induction assemble b keys wildcards ps generalizing fuel with
  | case1 b keys =>
    have hend : (textEnd mode ++ []).length < fuel := by rwa [List.append_nil]
    obtain ⟨fuel, rfl, hless⟩ := spend (textEnd mode) _ le_rfl hend
    obtain ⟨fuel, rfl⟩ := Nat.exists_eq_add_of_lt hless
    cases mode <;> rfl
  | case2 b keys wildcards name rest ih =>
    obtain ⟨fuel, rfl, hless⟩ := spend (segmentText ++ ['?']) 8 (by decide) hfuel
    refine run?_segment.trans ((run?_iterate_reluctant fun _ => rfl).trans ?_)
    exact bind_finished fun b' hb' => ih b' ((hb.push _).iterate hb') hless
  | case3 b keys wildcards name rest hrest ih =>
    obtain ⟨fuel, rfl, hless⟩ := spend segmentText 8 (by decide) hfuel
    refine run?_segment.trans ((run?_iterate (fun _ => rfl) (head?_text_ne hrest mode)).trans ?_)
    exact bind_finished fun b' hb' => ih b' ((hb.push _).iterate hb') hless
  | case4 b keys wildcards c rest _ hplain ih =>
    rw [text_plain hplain, List.append_assoc] at hfuel ⊢
    obtain ⟨fuel, rfl, hless⟩ := spend _ 1 (Piece.text_length_pos _) hfuel
    exact (run?_plain c).trans (ih (hb.push _) hless)
  | case5 b keys wildcards name rest ih =>
    obtain ⟨fuel, rfl, hless⟩ := spend paramText 4 (by decide) hfuel
    exact run?_param.trans (ih (hb.push _) hless)
  | case6 b keys wildcards rest ih =>
    obtain ⟨fuel, rfl, hless⟩ := spend wildcardText 4 le_rfl hfuel
    exact run?_wildcard.trans (ih (hb.push _) hless)
  | case7 b keys wildcards rest ih =>
    obtain ⟨fuel, rfl, hless⟩ := spend ['(', '?', ':'] 1 (by decide) hfuel
    exact run?_openGroup.trans (ih hb.openGroup hless)
  | case8 b keys wildcards rest ih =>
    obtain ⟨fuel, rfl, hless⟩ := spend [')'] 1 le_rfl hfuel
    refine (run?_closeGroup hb).trans ?_
    exact bind_finished fun b' hb' => ih b' (hb.closeGroup hb') hless
  | case9 b keys wildcards rest ih | case11 b keys wildcards rest ih =>
    obtain ⟨fuel, rfl, hless⟩ := spend ['+', '?'] 1 (by decide) hfuel
    refine (run?_iterate_reluctant fun _ => rfl).trans ?_
    exact bind_finished fun b' hb' => ih b' (hb.iterate hb') hless
  | case10 b keys wildcards rest hrest ih | case12 b keys wildcards rest hrest ih =>
    obtain ⟨fuel, rfl, hless⟩ := spend ['+'] 1 le_rfl hfuel
    refine (run?_iterate (fun _ => rfl) (head?_text_ne hrest mode)).trans ?_
    exact bind_finished fun b' hb' => ih b' (hb.iterate hb') hless

/-- Reading the written expression for some pieces gives the expression put together from them, or nothing
where none can be put together. -/
theorem parse?_source (ps : List Piece) (mode : MatchMode) :
    parse? (source ps mode) = (assemble opening [] 0 ps).bind fun built =>
      (closing built.1 mode).finish?.map fun node => ⟨node, []⟩ := by
  have hstart : run? ((source ps mode).length + 1) ⟨.start {}, {}, 0, []⟩ (source ps mode) =
      run? ((text ps ++ textEnd mode).length + 4) (reading opening 0) (text ps ++ textEnd mode) := by
    rw [source_eq]
    rfl
  have hread : run? ((text ps ++ textEnd mode).length + 4) (reading opening 0) (text ps ++ textEnd mode) =
      (assemble opening [] 0 ps).map (finished mode) :=
    run?_text [] (fun _ h => absurd h List.not_mem_nil) (by omega)
  rw [parse?, hstart, hread]
  cases assemble opening [] 0 ps with
  | none => rfl
  | some built =>
    have hfinish : (finished mode built).build.finish? = (closing built.1 mode).finish? := rfl
    simp only [Option.map_some, Option.bind_eq_bind, Option.bind_some, hfinish]
    cases (closing built.1 mode).finish? <;> rfl

example : source [.plain '/', .plain 'u', .plain '/', .param "id", .question, .plain '/', .question] .route =
    "(?i)^/u(?:/([^/]+?))?/?$".toList := by decide

/-- A path compiles to the expression that is written for it, as the reader of expressions takes it, with
the names of its groups; where that is no expression, the fault quotes it. -/
theorem compile_eq_parse {path : String} {mode : MatchMode} {ps : List Piece}
    (hps : pieces 0 (body path.toList mode) = .ok ps) :
    compile path mode = match parse? (source (ps ++ ending (body path.toList mode) mode) mode) with
      | some parsed => .ok (parsed.node, Piece.keys 0 ps)
      | none =>
        .error (.badPattern (String.ofList (source (ps ++ ending (body path.toList mode) mode) mode))) := by
  rw [parse?_source, compile_eq hps]
  cases hassemble : assemble opening [] 0 (ps ++ ending (body path.toList mode) mode) with
  | none => rfl
  | some built =>
    have hkeys : built.2.reverse = Piece.keys 0 ps := by
      rw [keys_of_assemble hassemble, List.append_nil, List.reverse_reverse, Piece.keys_append_ending]
    simp only [Option.bind_some, hkeys]
    cases (closing built.1 mode).finish? <;> rfl

end PathTemplate
end RouteQuery
