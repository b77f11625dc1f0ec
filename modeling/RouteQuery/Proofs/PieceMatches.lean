import RouteQuery.Proofs.AsciiBytes
import RouteQuery.Proofs.PathPatterns
import RouteQuery.Proofs.Words

/-! What the parts of a literal path match: plain characters stand for themselves up to case, and a
parameter takes a stretch without slashes. -/
namespace RouteQuery
open Pattern

namespace Text

/-- A slash has no other case. -/
theorem simpleFold_eq_slash_iff {c : Char} : simpleFold c = '/' ↔ c = '/' := by
  have hletters : ∀ r ∈ foldRuns, 0x61 ≤ (r.first : Int) + r.offset := by decide +kernel
  constructor
  · intro h
    unfold simpleFold at h
    split at h
    · next r hfind =>
      have hcovers : r.covers c.toNat = true := by simpa using List.find?_some hfind
      have hletter := hletters r (List.mem_of_find?_eq_some hfind)
      have hslash := eq_of_ofNat_eq h (by decide)
      have hnat : '/'.toNat = 47 := rfl
      simp only [FoldRun.covers, Bool.and_eq_true, decide_eq_true_eq] at hcovers
      omega
    · exact h
  · rintro rfl
    decide +kernel

/-- No character folds to a slash, so none has it for another case. -/
theorem slash_notMem_variants (target : Char) : '/' ∉ foldRuns.filterMap fun r =>
    let source := ((target.toNat : Int) - r.offset).toNat
    if r.covers source then some (Char.ofNat source) else none := by
  have huncovered : ∀ r ∈ foldRuns, r.covers 47 = false := by decide +kernel
  intro h
  obtain ⟨r, hr, hsource⟩ := List.mem_filterMap.mp h
  simp only at hsource
  split at hsource
  · next hcovers =>
    have hslash := eq_of_ofNat_eq (Option.some.inj hsource) (by decide)
    rw [hslash] at hcovers
    exact absurd hcovers (by rw [show '/'.toNat = 47 from rfl, huncovered r hr]; decide)
  · cases hsource

end Text

namespace PathTemplate

theorem contains_single {c d : Char} : (CharClass.single c).contains d = true ↔ d = c := by
  have hcontains : (CharClass.single c).contains d =
      (decide (c.toNat ≤ d.toNat) && decide (d.toNat ≤ c.toNat)) := by
    simp [CharClass.single, CharClass.contains, Text.RangeTable.contains]
  rw [hcontains, Bool.and_eq_true, decide_eq_true_eq, decide_eq_true_eq, ← Char.toNat_inj]
  omega

theorem contains_like {c d : Char} :
    (CharClass.like d).contains c = true ↔ Text.simpleFold c = Text.simpleFold d := beq_iff_eq

theorem contains_negated_single {c d : Char} :
    (CharClass.negated (.single c)).contains d = true ↔ d ≠ c := by
  rw [CharClass.contains, Bool.not_eq_true', ← Bool.not_eq_true, contains_single]

/-- Case does not let a slash in. -/
theorem contains_notSlash {d : Char} : notSlash.contains d = true ↔ d ≠ '/' := by
  have hvariants : '/' ∈ Text.caseVariants d ↔ d = '/' := by
    constructor
    · intro h
      rcases List.mem_cons.mp h with h | h
      · exact Text.simpleFold_eq_slash_iff.mp h.symm
      · exact absurd h (Text.slash_notMem_variants _)
    · rintro rfl
      exact List.mem_cons.mpr (.inl (Text.simpleFold_eq_slash_iff.mpr rfl).symm)
  have hfolded : (CharClass.folded (.union .nothing (.single '/'))).contains d = true ↔ d = '/' := by
    rw [CharClass.contains, List.any_eq_true, ← hvariants]
    constructor
    · rintro ⟨e, he, hcontains⟩
      rw [CharClass.contains, Bool.or_eq_true, contains_single] at hcontains
      rcases hcontains with hcontains | rfl
      · cases hcontains
      · exact he
    · exact fun h => ⟨'/', h, by decide⟩
  rw [notSlash, CharClass.contains, Bool.not_eq_true', ← Bool.not_eq_true, hfolded]

theorem reaches_one {k : CharClass} {p q : Point} :
    (Node.one k).Reaches p q ↔
      ∃ c, k.contains c = true ∧ p.Passes [c] q ∧ q.captured = p.captured := by
  constructor
  · rintro ⟨c, hc, hrest, hbefore, hcaptured⟩
    exact ⟨c, hc, ⟨hrest, hbefore⟩, hcaptured⟩
  · rintro ⟨c, hc, hpasses, hcaptured⟩
    exact ⟨c, hc, hpasses.rest, hpasses.before, hcaptured⟩

/-- Plain characters match the characters equal to them up to case. -/
theorem reachesAll_plain {cs : List Char} {p q : Point} :
    ReachesAll (cs.map plainPart) p q ↔
      ∃ x, x.map Text.simpleFold = cs.map Text.simpleFold ∧ p.Passes x q ∧ q.captured = p.captured := by
  induction cs generalizing p with
  | nil =>
    simp only [List.map_nil, ReachesAll, List.map_eq_nil_iff, exists_eq_left, Point.passes_nil]
    exact ⟨fun h => h ▸ ⟨.refl q, rfl⟩, fun h => h.1.eq h.2⟩
  | cons d cs ih =>
    simp only [List.map_cons, ReachesAll, ih]
    constructor
    · rintro ⟨s, hs, x, hfold, hx, hcaptured⟩
      obtain ⟨c, hc, hfirst, hcaptured'⟩ := reaches_one.mp hs
      exact ⟨c :: x, by rw [List.map_cons, contains_like.mp hc, hfold], hfirst.trans hx,
        hcaptured.trans hcaptured'⟩
    · rintro ⟨x, hfold, hx, hcaptured⟩
      obtain ⟨c, x, rfl, hc, hfold⟩ := List.map_eq_cons_iff.mp hfold
      obtain ⟨s, hfirst, hrest, hs⟩ := Point.Passes.split (x := [c]) hx p.captured
      exact ⟨s, reaches_one.mpr ⟨c, contains_like.mpr hc, hfirst, hs⟩, x, hfold, hrest,
        hcaptured.trans hs.symm⟩

theorem repeats_one {k : CharClass} {n : Nat} {p q : Point} :
    Repeats (Node.one k).Reaches n p q ↔
      ∃ x, x.length = n ∧ (∀ c ∈ x, k.contains c = true) ∧ p.Passes x q ∧ q.captured = p.captured := by
  induction n generalizing p with
  | zero =>
    simp only [List.length_eq_zero_iff, exists_eq_left, Point.passes_nil]
    constructor
    · rintro ⟨⟩
      exact ⟨List.forall_mem_nil _, .refl _, rfl⟩
    · rintro ⟨-, hsame, hcaptured⟩
      rw [hsame.eq hcaptured]
      exact .zero p
  | succ n ih =>
    constructor
    · rintro (_ | ⟨first, others⟩)
      obtain ⟨c, hc, hfirst, hs⟩ := reaches_one.mp first
      obtain ⟨x, hlength, hx, hpasses, hcaptured⟩ := ih.mp others
      exact ⟨c :: x, by rw [List.length_cons, hlength], List.forall_mem_cons.mpr ⟨hc, hx⟩,
        hfirst.trans hpasses, hcaptured.trans hs⟩
    · rintro ⟨x, hlength, hx, hpasses, hcaptured⟩
      obtain ⟨c, x, rfl⟩ := List.exists_cons_of_length_eq_add_one hlength
      rw [List.forall_mem_cons] at hx
      obtain ⟨s, hfirst, hrest, hs⟩ := Point.Passes.split (x := [c]) hpasses p.captured
      exact .succ (reaches_one.mpr ⟨c, hx.1, hfirst, hs⟩)
        (ih.mpr ⟨x, Nat.succ.inj hlength, hx.2, hrest, hcaptured.trans hs.symm⟩)

/-- A parameter captures a stretch of at least one character without slashes. -/
theorem reaches_paramPart {index : Nat} {p q : Point} :
    (paramPart index).node.Reaches p q ↔
      ∃ x, x ≠ [] ∧ '/' ∉ x ∧ p.Passes x q ∧ q.captured = (index, x) :: p.captured := by
  have hcapture : ∀ {s : Point} {x : List Char}, p.Passes x s →
      Point.capture index p s = { s with captured := (index, x) :: s.captured } := by
    intro s x hx
    have htake : p.rest.take (p.left - s.left) = x := by
      rw [hx.left_eq, Nat.add_sub_cancel, hx.rest, List.take_left]
    rw [Point.capture, htake]
  constructor
  · rintro ⟨s, ⟨n, hleast, -, hn⟩, rfl⟩
    obtain ⟨x, rfl, hx, hpasses, hcaptured⟩ := repeats_one.mp hn
    refine ⟨x, List.ne_nil_of_length_pos hleast, fun hslash => contains_notSlash.mp (hx _ hslash) rfl, ?_⟩
    rw [hcapture hpasses]
    exact ⟨⟨hpasses.rest, hpasses.before⟩, by rw [hcaptured]⟩
  · rintro ⟨x, hne, hslash, hpasses, hcaptured⟩
    have hpasses' : p.Passes x { q with captured := p.captured } := ⟨hpasses.rest, hpasses.before⟩
    refine ⟨{ q with captured := p.captured }, ⟨x.length, List.length_pos_of_ne_nil hne, by simp,
      repeats_one.mpr ⟨x, rfl, fun c hc => contains_notSlash.mpr ?_, hpasses', rfl⟩⟩, ?_⟩
    · rintro rfl
      exact hslash hc
    · rw [hcapture hpasses', ← hcaptured]

/-! ### From text to parts -/

/-- The characters that do not stand for themselves in a path. -/
def operators : List Char := [':', '*', '(', ')', '+', '?']

theorem Piece.ofChar_of_plain {c : Char} (h : c ∉ operators) : ofChar c = .plain c := by
  simp only [operators, List.mem_cons, not_or] at h
  simp [ofChar, h]

theorem pieces_nil (position : Nat) : pieces position [] = .ok [] := by rw [pieces]

theorem pieces_ofChar_cons {c : Char} {rest : List Char} {ps : List Piece} (hc : c ≠ ':')
    (hrest : ∀ position, pieces position rest = .ok ps) (position : Nat) :
    pieces position (c :: rest) = .ok (Piece.ofChar c :: ps) := by
  rw [pieces, if_neg hc, hrest]
  rfl

theorem pieces_plain_append {cs rest : List Char} {ps : List Piece} (h : ∀ c ∈ cs, c ∉ operators)
    (hrest : ∀ position, pieces position rest = .ok ps) (position : Nat) :
    pieces position (cs ++ rest) = .ok (cs.map .plain ++ ps) := by
  induction cs generalizing position with
  | nil => exact hrest position
  | cons c cs ih =>
    rw [List.forall_mem_cons] at h
    have hcolon : c ≠ ':' := by
      rintro rfl
      exact h.1 (by decide)
    rw [List.cons_append, pieces_ofChar_cons hcolon (ih h.2), Piece.ofChar_of_plain h.1]
    rfl

theorem pieces_param_append {name rest : List Char} {ps : List Piece} (hne : name ≠ [])
    (hname : ∀ c ∈ name, Text.isWordChar c = true) (hstop : Text.StopsAt Text.isWordChar rest)
    (hrest : ∀ position, pieces position rest = .ok ps) (position : Nat) :
    pieces position (':' :: (name ++ rest)) = .ok (.param (String.ofList name) :: ps) := by
  have htake : (name ++ rest).takeWhile Text.isWordChar = name := by
    rw [Text.takeWhile_append_stop hstop, List.takeWhile_eq_self_iff.mpr hname]
  have hdrop : (name ++ rest).dropWhile Text.isWordChar = rest := by
    rw [Text.dropWhile_append_stop hstop, List.dropWhile_eq_nil_iff.mpr hname, List.nil_append]
  rw [pieces, if_pos rfl]
  simp only [htake, hdrop, hrest, List.isEmpty_iff, if_neg hne]
  rfl

/-- Parts put behind those of the innermost group. -/
def pushAll (b : Build) (parts : List Part) : Build := parts.foldl Build.push b

theorem assemble_plain {b : Build} {keys : List String} {wildcards : Nat} {c : Char} {rest : List Piece}
    (h : ∀ name behind, rest ≠ .param name :: .question :: behind) :
    assemble b keys wildcards (.plain c :: rest) = assemble (b.push (plainPart c)) keys wildcards rest := by
  rw [assemble]
  · exact fun _ _ heq _ => h _ _ heq
  · exact fun _ _ heq _ => h _ _ heq

theorem assemble_plain_append {b : Build} {keys : List String} {wildcards : Nat} {cs : List Char}
    {rest : List Piece} (h : ∀ name behind, rest ≠ .param name :: .question :: behind) :
    assemble b keys wildcards (cs.map .plain ++ rest) =
      assemble (pushAll b (cs.map plainPart)) keys wildcards rest := by
  induction cs generalizing b with
  | nil => rfl
  | cons c cs ih =>
    rw [List.map_cons, List.cons_append, assemble_plain, ih]
    · rfl
    · intro name behind heq
      cases cs with
      | nil => exact h name behind heq
      | cons d cs => cases heq

theorem pushAll_append (b : Build) (parts parts' : List Part) :
    pushAll b (parts ++ parts') = pushAll (pushAll b parts) parts' := List.foldl_append

theorem pushAll_eq (b : Build) (parts : List Part) :
    pushAll b parts = ⟨{ b.level with parts := (parts.map some).reverse ++ b.level.parts }, b.outer⟩ := by
  induction parts generalizing b with
  | nil => rfl
  | cons part parts ih =>
    rw [pushAll, List.foldl_cons, ← pushAll, ih]
    simp [Build.push, Level.push]

theorem deepest_le {parts : List Part} {n : Nat} (h : ∀ part ∈ parts, part.depth ≤ n) :
    Part.deepest parts ≤ n := by
  have hfold : ∀ d ≤ n, parts.foldl (fun d part => max d part.depth) d ≤ n := by
    induction parts with
    | nil => exact fun d hd => hd
    | cons part parts ih =>
      rw [List.forall_mem_cons] at h
      exact fun d hd => ih h.2 _ (Nat.max_le.mpr ⟨hd, h.1⟩)
  exact hfold 0 (Nat.zero_le n)

/-- Nothing but its size keeps a sequence of shallow parts from being an expression. -/
theorem finish_pushAll {parts : List Part} (hdepth : ∀ part ∈ parts, part.depth ≤ 3) :
    (pushAll opening parts).finish? =
      if (Part.seqNode (anchor :: parts)).size ≤ Build.maxSize then some (Part.seqNode (anchor :: parts))
      else none := by
  have hnode : (pushAll opening parts).level.whole.node = Part.seqNode (anchor :: parts) := by
    rw [pushAll_eq, Level.whole_node rfl]
    simp [opening]
  have hdepth : (pushAll opening parts).level.whole.depth ≤ Build.maxDepth := by
    have hdeepest : Part.deepest (anchor :: parts) ≤ 3 :=
      deepest_le (List.forall_mem_cons.mpr ⟨by decide, hdepth⟩)
    have hwhole : (pushAll opening parts).level.whole.depth ≤ Part.deepest (anchor :: parts) + 1 := by
      rw [pushAll_eq]
      exact Nat.le_trans (Level.whole_depth_le rfl) (by simp [opening])
    exact Nat.le_trans hwhole (Nat.le_trans (Nat.succ_le_succ hdeepest) (by decide))
  have hclosed : (pushAll opening parts).outer.isEmpty := by rw [pushAll_eq]; rfl
  rw [Build.finish?, hnode]
  by_cases hsize : (Part.seqNode (anchor :: parts)).size ≤ Build.maxSize
  · simp [hclosed, hdepth, hsize]
  · simp [hsize]

end PathTemplate
end RouteQuery
