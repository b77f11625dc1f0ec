import Mathlib.Data.List.Forall2
import RouteQuery.Proofs.ParamNames
import RouteQuery.Proofs.SegmentRoutes

/-! The groups of the expression for a literal path: one for each `:name` and each `*`, in the order of
the path, and what they capture. -/
namespace RouteQuery
open Pattern

/-! ### Groups of an expression -/

namespace Pattern

/-- The groups of an expression in the order in which they open, each with what stands in it. -/
def Node.captureGroups : Node → List (Nat × Node)
  | .empty | .one _ | .look _ => []
  | .group index body => (index, body) :: body.captureGroups
  | .seq a b | .alt a b => a.captureGroups ++ b.captureGroups
  | .iterate body .. => body.captureGroups

/-- The number of groups is the highest number of one. -/
theorem Node.groups_le_iff {node : Node} {n : Nat} :
    node.groups ≤ n ↔ ∀ group ∈ node.captureGroups, group.1 ≤ n := by
  induction node with
  | empty | one k | look a => simp [Node.groups, Node.captureGroups]
  | group index body ih => rw [Node.groups, Nat.max_le, ih, Node.captureGroups, List.forall_mem_cons]
  | seq a b iha ihb | alt a b iha ihb =>
    rw [Node.groups, Nat.max_le, iha, ihb, Node.captureGroups, List.forall_mem_append]
  | iterate body least most greedy ih => exact ih

/-- Somewhere behind `p` the body of group `index` matches `x`. -/
def Node.Captures (node : Node) (p : Point) (index : Nat) (x : List Char) : Prop :=
  ∃ body, (index, body) ∈ node.captureGroups ∧
    ∃ y s s', p.Passes y s ∧ body.Reaches s s' ∧ s.Passes x s'

theorem Node.Captures.behind {node : Node} {p p' : Point} {y : List Char} {index : Nat} {x : List Char}
    (h : node.Captures p' index x) (hp : p.Passes y p') : node.Captures p index x := by
  obtain ⟨body, hbody, y', s, s', hs, hreaches, hx⟩ := h
  exact ⟨body, hbody, y ++ y', s, s', hp.trans hs, hreaches, hx⟩

theorem Node.Captures.mono {node node' : Node} {p : Point} {index : Nat} {x : List Char}
    (h : node.Captures p index x) (hle : node.captureGroups ⊆ node'.captureGroups) :
    node'.Captures p index x := by
  obtain ⟨body, hbody, hplace⟩ := h
  exact ⟨body, hle hbody, hplace⟩

/-- Whatever is captured on the way, the body of its group matches it. -/
theorem Node.Reaches.captures {node : Node} {p q : Point} (h : node.Reaches p q) {index : Nat}
    {x : List Char} (hx : (index, x) ∈ q.captured) :
    (index, x) ∈ p.captured ∨ node.Captures p index x := by
  induction node generalizing p q with
  | empty => exact .inl (h ▸ hx)
  | one k =>
    obtain ⟨c, -, -, -, hcaptured⟩ := h
    exact .inl (hcaptured ▸ hx)
  | look a => exact .inl (h.2 ▸ hx)
  | group i body ih =>
    obtain ⟨s, hbody, rfl⟩ := h
    rcases List.mem_cons.mp hx with heq | hx
    · obtain ⟨rfl, rfl⟩ := Prod.mk.inj heq
      obtain ⟨x, hpasses⟩ := hbody.passes
      have htake : p.rest.take (p.left - s.left) = x := by
        rw [hpasses.left_eq, Nat.add_sub_cancel, hpasses.rest, List.take_left]
      exact .inr ⟨body, List.mem_cons_self, [], p, s, .refl p, hbody, htake ▸ hpasses⟩
    · exact (ih hbody hx).imp_right fun h => h.mono (List.subset_cons_self _ _)
  | seq a b iha ihb =>
    obtain ⟨s, ha, hb⟩ := h
    obtain ⟨y, hy⟩ := ha.passes
    rcases ihb hb hx with hx | hcaptures
    · exact (iha ha hx).imp_right fun h => h.mono (List.subset_append_left _ _)
    · exact .inr ((hcaptures.behind hy).mono (List.subset_append_right _ _))
  | alt a b iha ihb =>
    rcases h with h | h
    · exact (iha h hx).imp_right fun h => h.mono (List.subset_append_left _ _)
    · exact (ihb h hx).imp_right fun h => h.mono (List.subset_append_right _ _)
  | iterate body least most greedy ih =>
    obtain ⟨n, -, -, hn⟩ := h
    induction hn with
    | zero p => exact .inl hx
    | succ first _ ih' =>
      obtain ⟨y, hy⟩ := first.passes
      rcases ih' hx with hx | hcaptures
      · exact ih first hx
      · exact .inr (hcaptures.behind hy)

/-! ### Groups of an expression that is being built -/

theorem Part.captureGroups_seqNode (parts : List Part) :
    (Part.seqNode parts).captureGroups = parts.flatMap (·.node.captureGroups) := by
  cases parts with
  | nil => rfl
  | cons part parts =>
    have hfold : ∀ node : Node, (parts.foldl (fun node part => .seq node part.node) node).captureGroups =
        node.captureGroups ++ parts.flatMap (·.node.captureGroups) := by
      induction parts with
      | nil => simp
      | cons part parts ih => simp [ih, Node.captureGroups]
    rw [Part.seqNode, hfold, List.flatMap_cons]

/-- A level with neither alternatives nor a group of its own. -/
structure Level.Plain (l : Level) : Prop where
  branches : l.branches = []
  capture : l.capture = none

def Level.captureGroups (l : Level) : List (Nat × Node) :=
  (l.parts.reverse.filterMap id).flatMap (·.node.captureGroups)

theorem Level.captureGroups_push (l : Level) (part : Part) :
    (l.push part).captureGroups = l.captureGroups ++ part.node.captureGroups := by
  simp [Level.captureGroups, Level.push]

theorem Level.Plain.captureGroups_whole {l : Level} (h : l.Plain) :
    l.whole.node.captureGroups = l.captureGroups := by
  rw [Level.whole_node h.branches, Part.captureGroups_seqNode]
  rfl

theorem Level.Plain.captureGroups_closed {l : Level} (h : l.Plain) :
    l.closed.node.captureGroups = l.captureGroups := by
  unfold Level.closed
  rw [h.capture]
  exact h.captureGroups_whole

namespace Build

def Plain (b : Build) : Prop := b.level.Plain ∧ ∀ l ∈ b.outer, l.Plain

/-- The groups of all that is open, from the outside to the inside. -/
def captureGroups (b : Build) : List (Nat × Node) :=
  b.outer.reverse.flatMap Level.captureGroups ++ b.level.captureGroups

variable {b b' : Build}

theorem Plain.push (h : b.Plain) (part : Part) : (b.push part).Plain :=
  ⟨⟨h.1.branches, h.1.capture⟩, h.2⟩

theorem captureGroups_push (b : Build) (part : Part) :
    (b.push part).captureGroups = b.captureGroups ++ part.node.captureGroups := by
  simp [captureGroups, Build.push, Level.captureGroups_push]

theorem Plain.openGroup (h : b.Plain) : (b.openGroup none caseless).Plain :=
  ⟨⟨rfl, rfl⟩, List.forall_mem_cons.mpr h⟩

theorem captureGroups_openGroup (b : Build) : (b.openGroup none caseless).captureGroups = b.captureGroups := by
  simp [captureGroups, Build.openGroup, Level.opening, Level.captureGroups]

theorem Plain.closeGroup (h : b.Plain) (hclose : b.closeGroup? = some b') :
    b'.Plain ∧ b'.captureGroups = b.captureGroups := by
  unfold Build.closeGroup? at hclose
  split at hclose
  · next l outer houter =>
    obtain rfl := Option.some.inj hclose
    have hlevels := h.2
    rw [houter, List.forall_mem_cons] at hlevels
    refine ⟨⟨⟨hlevels.1.branches, hlevels.1.capture⟩, hlevels.2⟩, ?_⟩
    simp [captureGroups, houter, Level.captureGroups_push, h.1.captureGroups_closed]
  · cases hclose

/-- What is repeated keeps its groups, unless it is repeated zero times. -/
theorem Plain.iterate (h : b.Plain) {least : Nat} {most : Option Nat} {greedy : Bool}
    (hmost : most ≠ some 0) (hiterate : b.iterate? least most greedy = some b') :
    b'.Plain ∧ b'.captureGroups = b.captureGroups := by
  obtain ⟨l, hl, rfl⟩ := Option.map_eq_some_iff.mp hiterate
  unfold Level.iterate? at hl
  split at hl
  · next part parts hparts =>
    obtain rfl := Option.some.inj hl
    refine ⟨⟨⟨h.1.branches, h.1.capture⟩, h.2⟩, ?_⟩
    simp [captureGroups, Level.captureGroups, hparts, Node.iterated, hmost, Node.captureGroups]
  · cases hl

end Build
end Pattern

/-! ### Places of a path whose text is captured -/

inductive Slot where
  /-- A parameter, `:name`. -/
  | param (name : String)
  /-- A star, `*`. -/
  | wildcard
  deriving DecidableEq, Repr

namespace Slot

/-- The slots of a path, in order. -/
def ofPath : List Char → List Slot
  | [] => []
  | c :: cs =>
    if c = ':' then
      param (String.ofList (cs.takeWhile Text.isWordChar)) :: ofPath (cs.dropWhile Text.isWordChar)
    else if c = '*' then wildcard :: ofPath cs
    else ofPath cs
termination_by cs => cs.length
decreasing_by
  · have := Text.length_dropWhile_le Text.isWordChar cs
    simp only [List.length_cons]
    omega
  all_goals simp

/-- A parameter goes by its name, a wildcard by the number of wildcards before it. -/
def keys (wildcards : Nat) : List Slot → List String
  | [] => []
  | param name :: slots => name :: keys wildcards slots
  | wildcard :: slots => toString wildcards :: keys (wildcards + 1) slots

/-- What the group of a slot repeats: anything but slashes, or anything but line feeds. -/
def body : Slot → Node
  | param _ => .iterate (.one PathTemplate.notSlash) 1 none false
  | wildcard => .iterate (.one (.negated (.single '\n'))) 0 none true

/-- The text that a slot can stand for. -/
def Admits : Slot → List Char → Prop
  | param _, x => x ≠ [] ∧ '/' ∉ x
  | wildcard, x => '\n' ∉ x

/-- What a slot holds of a request path: a piece that it can stand for, or nothing. -/
def Holds (text : List Char) (slot : Slot) (value? : Option (List Char)) : Prop :=
  ∀ value ∈ value?, slot.Admits value ∧ value <:+: text

/-- One group for each slot, numbered from `first` on. -/
def groups (first : Nat) (slots : List Slot) : List (Nat × Node) :=
  (slots.zipIdx first).map fun (slot, index) => (index, slot.body)

theorem ofPath_append_stop {cs rest : List Char} (hrest : Text.StopsAt Text.isWordChar rest) :
    ofPath (cs ++ rest) = ofPath cs ++ ofPath rest := by
  fun_induction ofPath cs with
  | case1 => rfl
  | case2 cs ih =>
    rw [List.cons_append, ofPath, if_pos rfl, Text.takeWhile_append_stop hrest,
      Text.dropWhile_append_stop hrest, ih]
    rfl
  | case3 cs _ ih => rw [List.cons_append, ofPath, if_neg (by decide), if_pos rfl, ih]; rfl
  | case4 c cs hcolon hstar ih => rw [List.cons_append, ofPath, if_neg hcolon, if_neg hstar, ih]

theorem ofPath_slashes {slashes : List Char} (h : ∀ c ∈ slashes, c = '/') : ofPath slashes = [] := by
  induction slashes with
  | nil => rw [ofPath]
  | cons c slashes ih =>
    obtain ⟨rfl, hslashes⟩ := List.forall_mem_cons.mp h
    rw [ofPath, if_neg (by decide), if_neg (by decide), ih hslashes]

/-- The slashes that a mount leaves out stand for nothing. -/
theorem ofPath_body (path : List Char) (mode : MatchMode) :
    ofPath (PathTemplate.body path mode) = ofPath path := by
  cases mode with
  | route => rfl
  | mount =>
    have hsplit : path.rdropWhile (· == '/') ++ path.rtakeWhile (· == '/') = path := by
      simp
    have hslashes : ∀ c ∈ path.rtakeWhile (· == '/'), c = '/' := fun c hc =>
      eq_of_beq (List.mem_rtakeWhile_imp (p := (· == '/')) hc)
    have hstop : Text.StopsAt Text.isWordChar (path.rtakeWhile (· == '/')) := by
      intro c hc
      rw [hslashes c (List.mem_of_mem_head? hc)]
      decide
    have happend : ofPath (path.rdropWhile (· == '/') ++ path.rtakeWhile (· == '/')) = _ :=
      ofPath_append_stop hstop
    rw [hsplit, ofPath_slashes hslashes, List.append_nil] at happend
    exact happend.symm

theorem groups_cons (first : Nat) (slot : Slot) (slots : List Slot) :
    groups first (slot :: slots) = (first, slot.body) :: groups (first + 1) slots := rfl

end Slot

namespace PathTemplate

def Piece.slot? : Piece → Option Slot
  | .param name => some (.param name)
  | .wildcard => some .wildcard
  | _ => none

theorem Piece.slot?_ofChar (c : Char) :
    (Piece.ofChar c).slot? = if c = '*' then some .wildcard else none := by
  unfold Piece.ofChar
  split_ifs <;> rfl

theorem slots_of_pieces {position : Nat} {cs : List Char} {ps : List Piece}
    (h : pieces position cs = .ok ps) : ps.filterMap Piece.slot? = Slot.ofPath cs := by
  fun_induction pieces position cs generalizing ps with
  | case1 =>
    obtain rfl := Except.ok.inj h
    simp [Slot.ofPath]
  | case2 => cases h
  | case3 position cs name hname =>
    rename_i ih
    obtain ⟨rest, hrest, hps⟩ := exists_of_bind_eq_ok h
    obtain rfl := Except.ok.inj hps
    rw [Slot.ofPath, if_pos rfl, ← ih hrest]
    rfl
  | case4 position c cs hc ih =>
    obtain ⟨rest, hrest, hps⟩ := exists_of_bind_eq_ok h
    obtain rfl := Except.ok.inj hps
    rw [Slot.ofPath, if_neg hc, List.filterMap_cons, Piece.slot?_ofChar, ih hrest]
    split_ifs <;> rfl

theorem keys_eq_slotKeys (wildcards : Nat) (ps : List Piece) :
    Piece.keys wildcards ps = Slot.keys wildcards (ps.filterMap Piece.slot?) := by
  fun_induction Piece.keys wildcards ps with
  | case1 => rfl
  | case2 wildcards name rest ih => rw [ih]; rfl
  | case3 wildcards rest ih => rw [ih]; rfl
  | case4 wildcards p rest hparam hwildcard ih =>
    have hnone : p.slot? = none := by
      cases p with
      | param name => exact absurd rfl (hparam name)
      | wildcard => exact absurd rfl hwildcard
      | _ => rfl
    rw [ih, List.filterMap_cons_none hnone]

/-- Each piece that opens a group opens the one of its slot. -/
theorem captureGroups_of_assemble {b b' : Build} {keys keys' : List String} {wildcards : Nat}
    {ps : List Piece} (h : assemble b keys wildcards ps = some (b', keys')) (hb : b.Plain) :
    b'.Plain ∧ b'.captureGroups =
      b.captureGroups ++ Slot.groups (keys.length + 1) (ps.filterMap Piece.slot?) := by
  fun_induction assemble b keys wildcards ps with
  | case1 b keys =>
    obtain ⟨rfl, -⟩ := Prod.mk.inj (Option.some.inj h)
    exact ⟨hb, by simp [Slot.groups]⟩
  | case4 b keys wildcards c rest _ _ ih | case5 b keys wildcards name rest ih
  | case6 b keys wildcards rest ih =>
    obtain ⟨hplain, hgroups⟩ := ih h (hb.push _)
    refine ⟨hplain, ?_⟩
    rw [hgroups, Build.captureGroups_push, List.append_assoc]
    rfl
  | case7 b keys wildcards rest ih =>
    obtain ⟨hplain, hgroups⟩ := ih h hb.openGroup
    refine ⟨hplain, ?_⟩
    rw [hgroups, Build.captureGroups_openGroup]
    rfl
  | case8 b keys wildcards rest ih =>
    obtain ⟨b₁, hb₁, hrest⟩ := Option.bind_eq_some_iff.mp h
    obtain ⟨hplain₁, hgroups₁⟩ := hb.closeGroup hb₁
    obtain ⟨hplain, hgroups⟩ := ih b₁ hrest hplain₁
    exact ⟨hplain, by rw [hgroups, hgroups₁]; rfl⟩
  | case2 b keys wildcards name rest ih | case3 b keys wildcards name rest _ ih =>
    obtain ⟨b₁, hb₁, hrest⟩ := Option.bind_eq_some_iff.mp h
    obtain ⟨hplain₁, hgroups₁⟩ := (hb.push _).iterate (by simp) hb₁
    obtain ⟨hplain, hgroups⟩ := ih b₁ hrest hplain₁
    refine ⟨hplain, ?_⟩
    rw [hgroups, hgroups₁, Build.captureGroups_push, List.append_assoc]
    rfl
  | case9 b keys wildcards rest ih | case10 b keys wildcards rest _ ih
  | case11 b keys wildcards rest ih | case12 b keys wildcards rest _ ih =>
    obtain ⟨b₁, hb₁, hrest⟩ := Option.bind_eq_some_iff.mp h
    obtain ⟨hplain₁, hgroups₁⟩ := hb.iterate (by simp) hb₁
    obtain ⟨hplain, hgroups⟩ := ih b₁ hrest hplain₁
    exact ⟨hplain, by rw [hgroups, hgroups₁]; rfl⟩

theorem captureGroups_closing {b : Build} (h : b.Plain) (mode : MatchMode) :
    (closing b mode).Plain ∧ (closing b mode).captureGroups = b.captureGroups := by
  cases mode with
  | mount => exact ⟨h, rfl⟩
  | route => exact ⟨h.push _, (Build.captureGroups_push _ _).trans (List.append_nil _)⟩

theorem slots_ending (path : List Char) (mode : MatchMode) :
    (ending path mode).filterMap Piece.slot? = [] := by
  cases mode with
  | mount => rfl
  | route =>
    unfold ending routeEnd
    split_ifs <;> rfl

theorem captureGroups_of_compile {path : String} {mode : MatchMode} {node : Node} {keys : List String}
    (h : compile path mode = .ok (node, keys)) :
    node.captureGroups = Slot.groups 1 (Slot.ofPath path.toList) := by
  obtain ⟨ps, b, keys', hps, hassemble, hfinish, -⟩ := of_compile_eq_ok h
  have hslots : (ps ++ ending (body path.toList mode) mode).filterMap Piece.slot? =
      Slot.ofPath path.toList := by
    rw [List.filterMap_append, slots_ending, List.append_nil, slots_of_pieces hps, Slot.ofPath_body]
  have hopening : opening.Plain := ⟨⟨rfl, rfl⟩, by simp [opening]⟩
  obtain ⟨hplain, hgroups⟩ := captureGroups_of_assemble hassemble hopening
  obtain ⟨hclosed, hsame⟩ := captureGroups_closing hplain mode
  obtain ⟨houter, rfl⟩ := Build.of_finish_eq_some hfinish
  have hwhole : (closing b mode).captureGroups = (closing b mode).level.captureGroups := by
    rw [Build.captureGroups, houter]
    rfl
  rw [hclosed.1.captureGroups_whole, ← hwhole, hsame, hgroups, hslots]
  rfl

theorem slotKeys_of_compile {path : String} {mode : MatchMode} {node : Node} {keys : List String}
    (h : compile path mode = .ok (node, keys)) : keys = Slot.keys 0 (Slot.ofPath path.toList) := by
  obtain ⟨ps, hps, rfl⟩ := keys_of_compile h
  rw [keys_eq_slotKeys, slots_of_pieces hps, Slot.ofPath_body]

end PathTemplate

/-! ### What is captured -/

namespace Slot

theorem admits_of_reaches {slot : Slot} {p q : Point} {x : List Char} (h : slot.body.Reaches p q)
    (hx : p.Passes x q) : slot.Admits x := by
  have hsame : ∀ {k : CharClass} {n : Nat}, Repeats (Node.one k).Reaches n p q →
      x.length = n ∧ ∀ c ∈ x, k.contains c = true := by
    intro k n hn
    obtain ⟨y, hlength, hall, hy, -⟩ := PathTemplate.repeats_one.mp hn
    obtain rfl : x = y := List.append_cancel_right (hx.rest.symm.trans hy.rest)
    exact ⟨hlength, hall⟩
  cases slot with
  | param name =>
    obtain ⟨n, hleast, -, hn⟩ := h
    obtain ⟨rfl, hall⟩ := hsame hn
    exact ⟨List.ne_nil_of_length_pos hleast,
      fun hslash => PathTemplate.contains_notSlash.mp (hall _ hslash) rfl⟩
  | wildcard =>
    obtain ⟨n, -, -, hn⟩ := h
    obtain ⟨-, hall⟩ := hsame hn
    exact fun hfeed => PathTemplate.contains_negated_single.mp (hall _ hfeed) rfl

theorem mem_groups {first index : Nat} {slots : List Slot} {slot : Slot} {body : Node}
    (hslot : (slot, index) ∈ slots.zipIdx first) (h : (index, body) ∈ groups first slots) :
    body = slot.body := by
  obtain ⟨⟨slot', index'⟩, hslot', heq⟩ := List.mem_map.mp h
  obtain ⟨rfl, rfl⟩ := Prod.mk.inj heq
  rw [List.mk_mem_zipIdx_iff_le_and_getElem?_sub] at hslot hslot'
  rw [Option.some.inj (hslot.2.symm.trans hslot'.2)]

theorem length_keys (wildcards : Nat) (slots : List Slot) : (keys wildcards slots).length = slots.length := by
  fun_induction keys wildcards slots <;> simp_all

theorem groups_le_iff {first n : Nat} {slots : List Slot} :
    (∀ group ∈ groups (first + 1) slots, group.1 ≤ n) ↔ slots = [] ∨ first + slots.length ≤ n := by
  induction slots generalizing first with
  | nil => simp [groups]
  | cons slot slots ih =>
    rw [groups_cons, List.forall_mem_cons, ih]
    cases slots
    · simp
    · simp
      omega

theorem length_groups (first : Nat) (slots : List Slot) : (groups first slots).length = slots.length := by
  simp [groups]

end Slot

namespace PathMatcher

/-- What the groups of a matcher captured on the way to a point; those that took no part, nothing. -/
def values (m : PathMatcher) (q : Point) : List (Option (List Char)) :=
  (List.range' 1 m.keys.length).map (q.captured.lookup ·)

/-- The keys for which there is a value. -/
def reported (keys : List String) (values : List (Option (List Char))) : List (String × String) :=
  (keys.zip values).filterMap fun (key, value?) => value?.map fun value => (key, String.ofList value)

theorem params_found (m : PathMatcher) (q : Point) :
    (m.found q).params = reported m.keys (m.values q) := by
  rw [found, reported, values, List.zip_map_right, List.filterMap_map, List.zipIdx_eq_zip_range']
  rfl

theorem exists_search_of_matches? {m : PathMatcher} {text : List Char} {found : PathMatch}
    (h : m.matches? text = some found) : ∃ q, search m.node text = some q ∧ found = m.found q := by
  unfold matches? at h
  split at h
  · cases h
  · next q hq =>
    dsimp only at h
    split_ifs at h
    exact ⟨q, hq, (Option.some.inj h).symm⟩

/-- What a slot captured is a piece of the request path that the slot can stand for. -/
theorem admits_of_lookup {path : String} {mode : MatchMode} {m : PathMatcher} {text value : List Char}
    {q : Point} {slot : Slot} {index : Nat} (hm : compile (.literal path) mode = .ok m)
    (hq : search m.node text = some q) (hslot : (slot, index) ∈ (Slot.ofPath path.toList).zipIdx 1)
    (hvalue : q.captured.lookup index = some value) : slot.Admits value ∧ value <:+: text := by
  have hgroups := PathTemplate.captureGroups_of_compile (of_compile_eq_ok hm).1
  obtain ⟨x, p, hp, hnone, hreaches⟩ := reaches_of_searchFrom hq
  have hmem : (index, value) ∈ q.captured := by
    obtain ⟨before, after, hcaptured, -⟩ := List.lookup_eq_some_iff.mp hvalue
    simp [hcaptured]
  rcases hreaches.captures hmem with hmem | ⟨body, hbody, y, s, s', hs, hmatch, hpasses⟩
  · rw [hnone] at hmem
    cases hmem
  · rw [hgroups] at hbody
    rw [Slot.mem_groups hslot hbody] at hmatch
    have htext : text = (x ++ y) ++ value ++ s'.rest := by
      rw [List.append_assoc, ← hpasses.rest]
      exact (hp.trans hs).rest
    exact ⟨Slot.admits_of_reaches hmatch hpasses, x ++ y, s'.rest, htext.symm⟩

/-- The groups of a literal path are those of its `:name` and `*`, in order, and so are the keys. In a
match each key that is reported comes with what its own group captured: a piece of the request path, not
empty and without slashes where the key is a name. The keys of groups that took no part are left out. -/
theorem groups_line_up_with_keys {path : String} {mode : MatchMode} {m : PathMatcher}
    (hm : compile (.literal path) mode = .ok m) :
    m.node.captureGroups = Slot.groups 1 (Slot.ofPath path.toList) ∧
    m.keys = Slot.keys 0 (Slot.ofPath path.toList) ∧
    m.node.captureGroups.length = m.keys.length ∧ m.node.groups = m.keys.length ∧
    ∀ text found, m.matches? text = some found → ∃ q, search m.node text = some q ∧
      found.params = reported m.keys (m.values q) ∧
      List.Forall₂ (Slot.Holds text) (Slot.ofPath path.toList) (m.values q) := by
  have hgroups := PathTemplate.captureGroups_of_compile (of_compile_eq_ok hm).1
  have hkeys := PathTemplate.slotKeys_of_compile (of_compile_eq_ok hm).1
  have hlength : m.keys.length = (Slot.ofPath path.toList).length := by rw [hkeys, Slot.length_keys]
  have hcount : m.node.groups = m.keys.length := by
    refine eq_of_forall_ge_iff fun n => ?_
    rw [Node.groups_le_iff, hgroups, Slot.groups_le_iff, hlength]
    simp +contextual
  refine ⟨hgroups, hkeys, by rw [hgroups, hlength, Slot.length_groups], hcount, ?_⟩
  intro text found hfound
  obtain ⟨q, hq, rfl⟩ := exists_search_of_matches? hfound
  refine ⟨q, hq, m.params_found q, ?_⟩
  rw [values, hlength, List.forall₂_map_right_iff, List.forall₂_iff_zip]
  refine ⟨(List.length_range').symm, fun {slot index} hmem value hvalue => ?_⟩
  rw [← List.zipIdx_eq_zip_range'] at hmem
  exact admits_of_lookup hm hq hmem hvalue

open PathTemplate in
/-- The matcher for `/:id?/files/*`. -/
def userFiles : PathMatcher :=
  let files := "/files/".toList.map plainPart
  ⟨.literal "/:id?/files/*", .route,
    Part.seqNode (anchor :: ⟨.iterate (segmentPart 1).node 0 (some 1) true, 6⟩ ::
      files ++ [wildcardPart 2, Segment.slashPart, Segment.endPart]), ["id", "0"]⟩

open PathTemplate in
theorem compile_userFiles : compile (.literal "/:id?/files/*") .route = .ok userFiles := by
  have hstar : ∀ position, pieces position ['*'] = .ok [.wildcard] :=
    pieces_ofChar_cons (by decide) pieces_nil
  have hfiles : ∀ position, pieces position ("/files/".toList ++ ['*']) =
      .ok ("/files/".toList.map .plain ++ [.wildcard]) := pieces_plain_append (by simp [operators]) hstar
  have hquestion : ∀ position, pieces position ('?' :: ("/files/".toList ++ ['*'])) =
      .ok (.question :: ("/files/".toList.map .plain ++ [.wildcard])) :=
    pieces_ofChar_cons (by decide) hfiles
  have hname : ∀ position, pieces position (':' :: (['i', 'd'] ++ '?' :: ("/files/".toList ++ ['*']))) =
      .ok (.param "id" :: .question :: ("/files/".toList.map .plain ++ [.wildcard])) :=
    pieces_param_append (by decide) (List.all_eq_true.mp (by decide)) (Text.stopsAt_cons.mpr (by decide))
      hquestion
  have hslash : ∀ c ∈ ['/'], c ∉ operators := List.forall_mem_singleton.mpr (by decide)
  have hps : pieces 0 (body "/:id?/files/*".toList .route) =
      .ok (['/'].map .plain ++ .param "id" :: .question :: ("/files/".toList.map .plain ++ [.wildcard])) :=
    pieces_plain_append hslash hname 0
  exact compile_of_pieces hps rfl rfl

theorem userFiles_groups_line_up :
    compile (.literal "/:id?/files/*") .route = .ok userFiles ∧
    userFiles.node.captureGroups = Slot.groups 1 [.param "id", .wildcard] ∧
    userFiles.matches? "/files/a/b".toList = some ⟨[("0", "a/b")], []⟩ ∧
    ∃ q, search userFiles.node "/files/a/b".toList = some q ∧
      [("0", "a/b")] = reported ["id", "0"] (userFiles.values q) ∧
      List.Forall₂ (Slot.Holds "/files/a/b".toList) [.param "id", .wildcard] (userFiles.values q) := by
  have hslots : Slot.ofPath "/:id?/files/*".toList = [.param "id", .wildcard] := by
    simp [Slot.ofPath, Text.isWordChar]
  have hfound : userFiles.matches? "/files/a/b".toList = some ⟨[("0", "a/b")], []⟩ := by decide +kernel
  obtain ⟨hgroups, -, -, -, hreports⟩ := groups_line_up_with_keys compile_userFiles
  obtain ⟨q, hq, hparams, hadmits⟩ := hreports _ _ hfound
  exact ⟨compile_userFiles, hslots ▸ hgroups, hfound, q, hq, hparams, hslots ▸ hadmits⟩

end PathMatcher
end RouteQuery
