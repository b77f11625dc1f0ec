import Mathlib.Data.List.DropRight
import RouteQuery.PathMatcher
import RouteQuery.Proofs.Anchoring
import RouteQuery.Proofs.Outcomes

/-! What the expressions for literal paths are made of, and where they match: they are held to the start
of the path unless the path opens with an operator, and before the end of a route they look at nothing
that follows. -/
namespace RouteQuery
open Pattern

/-! ### Sequences -/

namespace Pattern

/-- The parts match one behind the other. -/
def ReachesAll : List Part → Point → Point → Prop
  | [], p, q => q = p
  | part :: parts, p, q => ∃ s, part.node.Reaches p s ∧ ReachesAll parts s q

theorem reachesAll_append {parts parts' : List Part} {p q : Point} :
    ReachesAll (parts ++ parts') p q ↔ ∃ s, ReachesAll parts p s ∧ ReachesAll parts' s q := by
  induction parts generalizing p with
  | nil => simp [ReachesAll]
  | cons part parts ih => simp only [List.cons_append, ReachesAll, ih]; grind

theorem reaches_foldl_seq {node : Node} {parts : List Part} {p q : Point} :
    (parts.foldl (fun node part => .seq node part.node) node).Reaches p q ↔
      ∃ s, node.Reaches p s ∧ ReachesAll parts s q := by
  induction parts generalizing node with
  | nil => simp [ReachesAll]
  | cons part parts ih =>
    rw [List.foldl_cons, ih]
    simp only [Node.Reaches, ReachesAll]
    grind

theorem Part.reaches_seqNode_cons {part : Part} {parts : List Part} {p q : Point} :
    (Part.seqNode (part :: parts)).Reaches p q ↔
      ∃ s, part.node.Reaches p s ∧ ReachesAll parts s q := reaches_foldl_seq

theorem Part.reaches_seqNode {parts : List Part} {p q : Point} :
    (Part.seqNode parts).Reaches p q ↔ ReachesAll parts p q := by
  cases parts with
  | nil => simp [Part.seqNode, Node.Reaches, ReachesAll]
  | cons part parts => exact Part.reaches_seqNode_cons

theorem ReachesAll.extend {parts : List Part} {p q : Point} (hback : ∀ part ∈ parts, part.node.LooksBack)
    (h : ReachesAll parts p q) (tail : List Char) : ReachesAll parts (p.extend tail) (q.extend tail) := by
  induction parts generalizing p with
  | nil => exact congrArg (Point.extend tail) h
  | cons part parts ih =>
    rw [List.forall_mem_cons] at hback
    obtain ⟨s, hs, hrest⟩ := h
    exact ⟨s.extend tail, hs.extend hback.1 tail, ih hback.2 hrest⟩

theorem looksBack_foldl_seq {node : Node} {parts : List Part} (hnode : node.LooksBack)
    (hparts : ∀ part ∈ parts, part.node.LooksBack) :
    (parts.foldl (fun node part => .seq node part.node) node).LooksBack := by
  induction parts generalizing node with
  | nil => exact hnode
  | cons part parts ih =>
    rw [List.forall_mem_cons] at hparts
    exact ih ⟨hnode, hparts.1⟩ hparts.2

theorem Part.looksBack_seqNode {parts : List Part} (h : ∀ part ∈ parts, part.node.LooksBack) :
    (Part.seqNode parts).LooksBack := by
  cases parts with
  | nil => trivial
  | cons part parts =>
    rw [List.forall_mem_cons] at h
    exact looksBack_foldl_seq h.1 h.2

theorem Level.whole_node {l : Level} (h : l.branches = []) :
    l.whole.node = Part.seqNode (l.parts.reverse.filterMap id) := by
  unfold Level.whole Level.branch
  rw [h]
  dsimp only
  split
  · next hparts => rw [hparts]; rfl
  all_goals rfl

theorem Level.whole_depth_le {l : Level} (h : l.branches = []) :
    l.whole.depth ≤ Part.deepest (l.parts.reverse.filterMap id) + 1 := by
  unfold Level.whole Level.branch
  rw [h]
  dsimp only
  split
  · exact Nat.zero_le _
  · exact Nat.le_succ _
  · exact Nat.le_refl _

theorem Build.of_finish_eq_some {b : Build} {node : Node} (h : b.finish? = some node) :
    b.outer = [] ∧ node = b.level.whole.node := by
  unfold Build.finish? at h
  dsimp only at h
  split at h
  · next hclosed => exact ⟨List.isEmpty_iff.mp hclosed.1, (Option.some.inj h).symm⟩
  · cases h

end Pattern

namespace PathTemplate

/-! ### How an expression is assembled -/

/-- The part that holds an expression to the start of the path. -/
def anchor : Part := .atom (.look .startText)

def opening : Build := ⟨⟨none, {}, [], [some anchor, none]⟩, []⟩

/-- What is allowed behind a path, in pieces and by assertion. -/
def ending (path : List Char) : MatchMode → List Piece
  | .route => routeEnd path
  | .mount => []

def closing (b : Build) : MatchMode → Build
  | .route => b.push (.atom (.look .endText))
  | .mount => b

theorem compile_eq {path : String} {mode : MatchMode} {ps : List Piece}
    (hps : pieces 0 (body path.toList mode) = .ok ps) :
    compile path mode =
      match (assemble opening [] 0 (ps ++ ending (body path.toList mode) mode)).bind fun built =>
        (closing built.1 mode).finish?.map fun node => (node, built.2.reverse) with
      | some result => .ok result
      | none =>
        .error (.badPattern (String.ofList (source (ps ++ ending (body path.toList mode) mode) mode))) := by
  unfold compile
  simp only [hps, bind, Except.bind, pure, Option.map_eq_bind]
  cases mode with
  | route => rfl
  | mount =>
    rw [ending, List.append_nil]
    rfl

theorem of_compile_eq_ok {path : String} {mode : MatchMode} {node : Node} {keys : List String}
    (h : compile path mode = .ok (node, keys)) :
    ∃ ps b keys', pieces 0 (body path.toList mode) = .ok ps ∧
      assemble opening [] 0 (ps ++ ending (body path.toList mode) mode) = some (b, keys') ∧
      (closing b mode).finish? = some node ∧ keys = keys'.reverse := by
  obtain ⟨ps, hps, -⟩ := exists_of_bind_eq_ok h
  rw [compile_eq hps] at h
  split at h
  · next hbuilt =>
    obtain rfl := Except.ok.inj h
    obtain ⟨⟨b, keys'⟩, hassemble, hmap⟩ := Option.bind_eq_some_iff.mp hbuilt
    obtain ⟨node', hfinish, heq⟩ := Option.map_eq_some_iff.mp hmap
    obtain ⟨rfl, rfl⟩ := Prod.mk.inj heq
    exact ⟨ps, b, keys', hps, hassemble, hfinish, rfl⟩
  · cases h

theorem compile_of_assemble {path : String} {mode : MatchMode} {ps : List Piece} {b : Build}
    {keys : List String} (hps : pieces 0 (body path.toList mode) = .ok ps)
    (hassemble : assemble opening [] 0 (ps ++ ending (body path.toList mode) mode) = some (b, keys)) :
    compile path mode = match (closing b mode).finish? with
      | some node => .ok (node, keys.reverse)
      | none =>
        .error (.badPattern (String.ofList (source (ps ++ ending (body path.toList mode) mode) mode))) := by
  rw [compile_eq hps, hassemble, Option.bind_some]
  cases (closing b mode).finish? <;> rfl

/-- What the pieces of a path add to an expression by themselves. -/
inductive Drawn : Part → Prop
  | plain (c : Char) : Drawn (plainPart c)
  | param (index : Nat) : Drawn (paramPart index)
  | wildcard (index : Nat) : Drawn (wildcardPart index)
  | segment (index : Nat) : Drawn (segmentPart index)

/-- What each way of going on keeps, the whole assembly keeps. -/
theorem assemble_preserves {P : Build → Prop}
    (hpush : ∀ b part, Drawn part → P b → P (b.push part))
    (hopen : ∀ b, P b → P (b.openGroup none caseless))
    (hclose : ∀ b b', b.closeGroup? = some b' → P b → P b')
    (hiterate : ∀ b b' least most greedy, b.iterate? least most greedy = some b' → P b → P b')
    {b b' : Build} {keys keys' : List String} {wildcards : Nat} {ps : List Piece}
    (h : assemble b keys wildcards ps = some (b', keys')) (hb : P b) : P b' := by
  fun_induction assemble b keys wildcards ps with
  | case1 =>
    obtain ⟨rfl, -⟩ := Prod.mk.inj (Option.some.inj h)
    exact hb
  | case2 b keys wildcards name rest ih | case3 b keys wildcards name rest _ ih =>
    obtain ⟨b₁, hb₁, hrest⟩ := Option.bind_eq_some_iff.mp h
    exact ih b₁ hrest (hiterate _ _ _ _ _ hb₁ (hpush _ _ (.segment _) hb))
  | case4 b keys wildcards c rest _ _ ih => exact ih h (hpush _ _ (.plain c) hb)
  | case5 b keys wildcards name rest ih => exact ih h (hpush _ _ (.param _) hb)
  | case6 b keys wildcards rest ih => exact ih h (hpush _ _ (.wildcard _) hb)
  | case7 b keys wildcards rest ih => exact ih h (hopen _ hb)
  | case8 b keys wildcards rest ih =>
    obtain ⟨b₁, hb₁, hrest⟩ := Option.bind_eq_some_iff.mp h
    exact ih b₁ hrest (hclose _ _ hb₁ hb)
  | case9 b keys wildcards rest ih | case10 b keys wildcards rest _ ih
  | case11 b keys wildcards rest ih | case12 b keys wildcards rest _ ih =>
    obtain ⟨b₁, hb₁, hrest⟩ := Option.bind_eq_some_iff.mp h
    exact ih b₁ hrest (hiterate _ _ _ _ _ hb₁ hb)

/-! ### Expressions that look back -/

/-- All that has been assembled asserts no more than to be at the start. -/
def LevelLooksBack (l : Level) : Prop :=
  l.branches = [] ∧ ∀ part, some part ∈ l.parts → part.node.LooksBack

def BuildLooksBack (b : Build) : Prop := LevelLooksBack b.level ∧ ∀ l ∈ b.outer, LevelLooksBack l

theorem Drawn.looksBack {part : Part} (h : Drawn part) : part.node.LooksBack := by
  cases h with
  | plain c | param index | wildcard index => trivial
  | segment index => exact ⟨trivial, trivial⟩

theorem LevelLooksBack.push {l : Level} (h : LevelLooksBack l) {part : Part}
    (hpart : part.node.LooksBack) : LevelLooksBack (l.push part) := by
  refine ⟨h.1, fun part' hmem => ?_⟩
  rcases List.mem_cons.mp hmem with heq | hmem
  · rwa [Option.some.inj heq]
  · exact h.2 part' hmem

theorem LevelLooksBack.whole {l : Level} (h : LevelLooksBack l) : l.whole.node.LooksBack := by
  rw [Level.whole_node h.1]
  exact Part.looksBack_seqNode fun part hpart => h.2 part (by simpa using hpart)

theorem LevelLooksBack.closed {l : Level} (h : LevelLooksBack l) : l.closed.node.LooksBack := by
  unfold Level.closed
  cases l.capture <;> exact h.whole

theorem looksBack_iterated {node : Node} (h : node.LooksBack) (least : Nat) (most : Option Nat)
    (greedy : Bool) : (node.iterated least most greedy).LooksBack := by
  unfold Node.iterated
  split
  · trivial
  · exact h

theorem looksBack_of_assemble {b : Build} {keys : List String} {ps : List Piece}
    (h : assemble opening [] 0 ps = some (b, keys)) : BuildLooksBack b := by
  refine assemble_preserves (P := BuildLooksBack) ?_ ?_ ?_ ?_ h ?_
  · exact fun b part hpart hb => ⟨hb.1.push hpart.looksBack, hb.2⟩
  · intro b hb
    exact ⟨⟨rfl, fun _ h => by cases h⟩, List.forall_mem_cons.mpr hb⟩
  · intro b b' hclose hb
    unfold Build.closeGroup? at hclose
    split at hclose
    · next l outer houter =>
      obtain rfl := Option.some.inj hclose
      have hlevels := hb.2
      rw [houter, List.forall_mem_cons] at hlevels
      exact ⟨hlevels.1.push hb.1.closed, hlevels.2⟩
    · cases hclose
  · intro b b' least most greedy hiterate hb
    obtain ⟨l, hl, rfl⟩ := Option.map_eq_some_iff.mp hiterate
    refine ⟨?_, hb.2⟩
    unfold Level.iterate? at hl
    split at hl
    · next part parts hparts =>
      obtain rfl := Option.some.inj hl
      have hpart : part.node.LooksBack := hb.1.2 part (by simp [hparts])
      refine ⟨hb.1.1, fun part' hmem => ?_⟩
      rcases List.mem_cons.mp hmem with heq | hmem
      · rw [Option.some.inj heq]
        exact looksBack_iterated hpart least most greedy
      · exact hb.1.2 part' (by simp [hparts, hmem])
    · cases hl
  · refine ⟨⟨rfl, fun part hmem => ?_⟩, fun _ h => by cases h⟩
    obtain rfl : part = anchor := by simpa [opening] using hmem
    rfl

/-! ### Expressions that are held to the start -/

def onAnchor (above : List (Option Part)) : List (Option Part) := above ++ [some anchor, none]

/-- The anchor lies at the bottom, and something else would be repeated next. -/
def Held (b : Build) : Prop :=
  match b.outer.getLast? with
  | none => b.level.branches = [] ∧ ∃ above, above ≠ [] ∧ b.level.parts = onAnchor above
  | some l => l.branches = [] ∧ ∃ above, l.parts = onAnchor above

theorem held_push {b : Build} (part : Part) (h : Held b) : Held (b.push part) := by
  unfold Held at h ⊢
  simp only [Build.push]
  split
  · next hnone =>
    rw [hnone] at h
    obtain ⟨hbranches, above, -, hparts⟩ := h
    exact ⟨hbranches, some part :: above, by simp, by simp [Level.push, hparts, onAnchor]⟩
  · next l hsome =>
    rw [hsome] at h
    exact h

theorem held_openGroup {b : Build} (h : Held b ∨ b = opening) : Held (b.openGroup none caseless) := by
  have hbottom : ∃ l, (b.level :: b.outer).getLast? = some l ∧ l.branches = [] ∧
      ∃ above, l.parts = onAnchor above := by
    rcases h with h | rfl
    · unfold Held at h
      rw [List.getLast?_cons]
      split at h
      · next hnone =>
        obtain ⟨hbranches, above, -, hparts⟩ := h
        exact ⟨b.level, by rw [hnone]; rfl, hbranches, above, hparts⟩
      · next l hsome => exact ⟨l, by rw [hsome]; rfl, h⟩
    · exact ⟨opening.level, rfl, rfl, [], rfl⟩
  obtain ⟨l, hl, hanchor⟩ := hbottom
  unfold Held Build.openGroup
  simpa only [hl] using hanchor

theorem held_closeGroup {b b' : Build} (hclose : b.closeGroup? = some b') (h : Held b) : Held b' := by
  unfold Build.closeGroup? at hclose
  split at hclose
  · next l outer houter =>
    obtain rfl := Option.some.inj hclose
    unfold Held at h ⊢
    rw [houter, List.getLast?_cons] at h
    simp only at h ⊢
    split
    · next hnone =>
      rw [hnone] at h
      obtain ⟨hbranches, above, hparts⟩ := h
      exact ⟨hbranches, some b.level.closed :: above, by simp,
        by simp only [Option.getD_none] at hparts; simp [Level.push, hparts, onAnchor]⟩
    · next l' hsome =>
      rw [hsome] at h
      exact h
  · cases hclose

theorem held_iterate {b b' : Build} {least : Nat} {most : Option Nat} {greedy : Bool}
    (hiterate : b.iterate? least most greedy = some b') (h : Held b) : Held b' := by
  obtain ⟨l, hl, rfl⟩ := Option.map_eq_some_iff.mp hiterate
  unfold Level.iterate? at hl
  split at hl
  · next part parts hparts =>
    obtain rfl := Option.some.inj hl
    unfold Held at h ⊢
    simp only
    split
    · next hnone =>
      rw [hnone] at h
      obtain ⟨hbranches, above, habove, hall⟩ := h
      obtain ⟨first, above, rfl⟩ := List.exists_cons_of_ne_nil habove
      rw [hparts] at hall
      obtain ⟨-, hrest⟩ := List.cons.inj hall
      exact ⟨hbranches, _ :: above, by simp, by rw [hrest]; rfl⟩
    · next l hsome =>
      rw [hsome] at h
      exact h
  · cases hl

theorem held_of_assemble {b b' : Build} {keys keys' : List String} {wildcards : Nat} {ps : List Piece}
    (h : assemble b keys wildcards ps = some (b', keys')) (hb : Held b) : Held b' :=
  assemble_preserves (fun _ part _ => held_push part) (fun _ hb => held_openGroup (.inl hb))
    (fun _ _ => held_closeGroup) (fun _ _ _ _ _ => held_iterate) h hb

theorem held_push_opening (part : Part) : Held (opening.push part) :=
  ⟨rfl, [some part], by simp, rfl⟩

/-- A piece that repeats what stands before it. -/
inductive Piece.IsOperator : Piece → Prop
  | plus : IsOperator .plus
  | question : IsOperator .question

/-- Pieces that do not open with an operator leave the anchor as it is. -/
theorem held_of_assemble_opening {b : Build} {keys : List String} {p : Piece} {ps : List Piece}
    (hp : ¬p.IsOperator) (h : assemble opening [] 0 (p :: ps) = some (b, keys)) : Held b := by
  have hplus : ∀ rest, p :: ps ≠ .plus :: rest := fun rest heq => hp ((List.cons.inj heq).1 ▸ .plus)
  have hquestion : ∀ rest, p :: ps ≠ .question :: rest :=
    fun rest heq => hp ((List.cons.inj heq).1 ▸ .question)
  unfold assemble at h
  split at h
  case h_1 => contradiction
  case h_2 | h_3 =>
    obtain ⟨b₁, hb₁, hrest⟩ := Option.bind_eq_some_iff.mp h
    exact held_of_assemble hrest (held_iterate hb₁ (held_push_opening _))
  case h_4 | h_5 | h_6 => exact held_of_assemble h (held_push_opening _)
  case h_7 => exact held_of_assemble h (held_openGroup (.inr rfl))
  case h_8 =>
    obtain ⟨b₁, hb₁, -⟩ := Option.bind_eq_some_iff.mp h
    cases hb₁
  case h_9 heq | h_10 _ heq => exact absurd heq (hplus _)
  case h_11 heq | h_12 _ heq => exact absurd heq (hquestion _)

theorem anchored_seqNode (parts : List Part) : (Part.seqNode (anchor :: parts)).Anchored := by
  intro p q hq
  obtain ⟨s, ⟨hstart, -⟩, -⟩ := Part.reaches_seqNode_cons.mp hq
  exact Option.isNone_iff_eq_none.mp hstart

theorem anchored_of_finish {b : Build} {node : Node} (hb : Held b ∨ b = opening)
    (h : b.finish? = some node) : node.Anchored := by
  obtain ⟨hclosed, rfl⟩ := Build.of_finish_eq_some h
  obtain ⟨hbranches, above, hparts⟩ : b.level.branches = [] ∧ ∃ above, b.level.parts = onAnchor above := by
    rcases hb with hb | rfl
    · unfold Held at hb
      rw [hclosed] at hb
      obtain ⟨hbranches, above, -, hparts⟩ := hb
      exact ⟨hbranches, above, hparts⟩
    · exact ⟨rfl, [], rfl⟩
  have hsplit : b.level.parts.reverse.filterMap id = anchor :: above.reverse.filterMap id := by
    simp [hparts, onAnchor]
  rw [Level.whole_node hbranches, hsplit]
  exact anchored_seqNode _

theorem body_isPrefix (path : List Char) (mode : MatchMode) : body path mode <+: path := by
  cases mode with
  | route => exact List.prefix_rfl
  | mount => exact List.rdropWhile_prefix _ _

theorem not_isOperator_of_pieces {position : Nat} {c : Char} {cs : List Char} {ps : List Piece}
    (hplus : c ≠ '+') (hquestion : c ≠ '?') (h : pieces position (c :: cs) = .ok ps) :
    ∃ p rest, ps = p :: rest ∧ ¬p.IsOperator := by
  rw [pieces] at h
  dsimp only at h
  split_ifs at h
  · obtain ⟨rest, -, hps⟩ := exists_of_bind_eq_ok h
    obtain rfl := Except.ok.inj hps
    exact ⟨_, rest, rfl, fun h => by cases h⟩
  · obtain ⟨rest, -, hps⟩ := exists_of_bind_eq_ok h
    obtain rfl := Except.ok.inj hps
    refine ⟨_, rest, rfl, fun h => ?_⟩
    unfold Piece.ofChar at h
    split_ifs at h <;> contradiction

/-- The text of a path whose first character repeats nothing. -/
def OpensPlainly (path : String) : Prop :=
  path.toList.head? ≠ some '+' ∧ path.toList.head? ≠ some '?'

instance (path : String) : Decidable (OpensPlainly path) := inferInstanceAs (Decidable (_ ∧ _))

theorem anchored_of_compile {path : String} {mode : MatchMode} {node : Node} {keys : List String}
    (hopens : OpensPlainly path) (h : compile path mode = .ok (node, keys)) : node.Anchored := by
  obtain ⟨ps, b, keys', hps, hassemble, hfinish, -⟩ := of_compile_eq_ok h
  have hheld : Held b ∨ b = opening := by
    cases hbody : body path.toList mode with
    | nil =>
      rw [hbody] at hps hassemble
      obtain rfl : ps = [] := by simpa [pieces] using hps.symm
      cases mode with
      | route => exact .inl (held_of_assemble_opening (fun h => by cases h) hassemble)
      | mount => exact .inr (Prod.mk.inj (Option.some.inj hassemble)).1.symm
    | cons c cs =>
      obtain ⟨rest, hpath⟩ := body_isPrefix path.toList mode
      rw [hbody] at hps hpath
      have hfirst : path.toList.head? = some c := by simp [← hpath]
      have hplus : c ≠ '+' := fun hc => hopens.1 (hc ▸ hfirst)
      have hquestion : c ≠ '?' := fun hc => hopens.2 (hc ▸ hfirst)
      obtain ⟨p, ps, rfl, hp⟩ := not_isOperator_of_pieces hplus hquestion hps
      exact .inl (held_of_assemble_opening hp hassemble)
  refine anchored_of_finish ?_ hfinish
  cases mode with
  | mount => exact hheld
  | route =>
    rcases hheld with hheld | rfl
    · exact .inl (held_push _ hheld)
    · exact .inl (held_push_opening _)

theorem looksBack_of_compile {path : String} {node : Node} {keys : List String}
    (h : compile path .mount = .ok (node, keys)) : node.LooksBack := by
  obtain ⟨ps, b, keys', -, hassemble, hfinish, -⟩ := of_compile_eq_ok h
  obtain ⟨-, rfl⟩ := Build.of_finish_eq_some hfinish
  exact (looksBack_of_assemble hassemble).1.whole

end PathTemplate

/-! ### The paths that a matcher accepts -/

namespace PathMatcher

theorem of_compile_eq_ok {text : String} {mode : MatchMode} {m : PathMatcher}
    (h : compile (.literal text) mode = .ok m) :
    PathTemplate.compile text mode = .ok (m.node, m.keys) ∧ m.source = .literal text ∧ m.mode = mode := by
  unfold compile at h
  simp only at h
  split at h
  · next node keys hcompile =>
    obtain rfl := Except.ok.inj h
    exact ⟨hcompile, rfl, rfl⟩
  · cases h

/-- A matcher from the pieces of its path. -/
theorem compile_of_pieces {path : String} {mode : MatchMode} {ps : List PathTemplate.Piece} {b : Build}
    {keys : List String} {node : Node} (hps : PathTemplate.pieces 0 (PathTemplate.body path.toList mode) = .ok ps)
    (hassemble : PathTemplate.assemble PathTemplate.opening [] 0
      (ps ++ PathTemplate.ending (PathTemplate.body path.toList mode) mode) = some (b, keys))
    (hfinish : (PathTemplate.closing b mode).finish? = some node) :
    compile (.literal path) mode = .ok ⟨.literal path, mode, node, keys.reverse⟩ := by
  have hbuild : PathTemplate.compile path mode = .ok (node, keys.reverse) := by
    rw [PathTemplate.compile_of_assemble hps hassemble, hfinish]
  rw [compile, hbuild]

/-- What a match of the expression that ends at `q` gives. -/
def found (m : PathMatcher) (q : Point) : PathMatch :=
  ⟨(m.keys.zipIdx 1).filterMap fun (key, i) =>
    (q.captured.lookup i).map fun value => (key, String.ofList value), q.rest⟩

theorem matches?_route {m : PathMatcher} (hmode : m.mode = .route) (text : List Char) :
    m.matches? text = (search m.node text).map m.found := by
  unfold matches?
  rw [hmode]
  cases search m.node text with
  | none => rfl
  | some q => cases m.source <;> rfl

/-- Of a literal mount, a match counts only where it ends on a boundary. -/
theorem matches?_mount {m : PathMatcher} {path : String} (hsource : m.source = .literal path)
    (hmode : m.mode = .mount) (text : List Char) :
    m.matches? text = ((search m.node text).filter onBoundary).map m.found := by
  unfold matches?
  rw [hsource, hmode]
  cases search m.node text with
  | none => rfl
  | some q => cases hq : onBoundary q <;> simp [hq, found, Option.filter_some]

end PathMatcher
end RouteQuery
