import Mathlib.Data.List.Basic
import Mathlib.Logic.Relation
import Mathlib.Tactic.Common
import RouteQuery.Pattern.Basic

/-! What it means that an expression matches, said without the order in which ends are tried. The
search leads to such ends only, and it misses no place where there is one. -/
namespace RouteQuery.Pattern

/-! ### Places -/

namespace Point

/-- `q` lies behind the text `x` from `p` on. -/
structure Passes (p : Point) (x : List Char) (q : Point) : Prop where
  rest : p.rest = x ++ q.rest
  before : q.before = x.getLast?.or p.before

/-- Both lie at one place, whatever was captured on the way there. -/
structure Same (p q : Point) : Prop where
  before : p.before = q.before
  rest : p.rest = q.rest

variable {o p q s : Point} {x y : List Char}

theorem Same.refl (p : Point) : p.Same p := ⟨rfl, rfl⟩

theorem Same.symm (h : p.Same q) : q.Same p := ⟨h.before.symm, h.rest.symm⟩

theorem Same.trans (h : p.Same q) (h' : q.Same s) : p.Same s :=
  ⟨h.before.trans h'.before, h.rest.trans h'.rest⟩

theorem Same.left_eq (h : p.Same q) : p.left = q.left := congrArg List.length h.rest

theorem Passes.refl (p : Point) : p.Passes [] p := ⟨rfl, rfl⟩

theorem Passes.trans (h : p.Passes x q) (h' : q.Passes y s) : p.Passes (x ++ y) s where
  rest := by rw [h.rest, h'.rest, List.append_assoc]
  before := by rw [h'.before, h.before, List.getLast?_append, Option.or_assoc]

theorem passes_nil : p.Passes [] q ↔ p.Same q :=
  ⟨fun h => ⟨h.before.symm, h.rest⟩, fun h => ⟨h.rest, h.before.symm⟩⟩

theorem Same.eq (h : p.Same q) (hcaptured : q.captured = p.captured) : q = p := by
  obtain ⟨before, rest, captured⟩ := p
  obtain ⟨rfl, rfl⟩ := h
  obtain rfl := hcaptured
  rfl

/-- Between two parts of a text lies a point with whatever captures. -/
theorem Passes.split (h : p.Passes (x ++ y) q) (captured : List (Nat × List Char)) :
    ∃ s, p.Passes x s ∧ s.Passes y q ∧ s.captured = captured :=
  ⟨⟨x.getLast?.or p.before, y ++ q.rest, captured⟩, ⟨by rw [h.rest, List.append_assoc], rfl⟩,
    ⟨rfl, by rw [h.before, List.getLast?_append, Option.or_assoc]⟩, rfl⟩

theorem Passes.left_eq (h : p.Passes x q) : p.left = x.length + q.left := by
  rw [left, h.rest, List.length_append, left]

theorem Passes.left_le (h : p.Passes x q) : q.left ≤ p.left := by
  have := h.left_eq
  omega

/-- Behind one point, a place is known by how much is left. -/
theorem Passes.same (h : o.Passes x p) (h' : o.Passes y q) (hleft : p.left = q.left) : p.Same q := by
  have hsplit : x ++ p.rest = y ++ q.rest := h.rest.symm.trans h'.rest
  obtain ⟨rfl, hrest⟩ := List.append_inj' hsplit hleft
  exact ⟨h.before.trans h'.before.symm, hrest⟩

end Point

/-! ### Matching as a relation -/

/-- `n` steps, one behind the other. -/
inductive Repeats (step : Point → Point → Prop) : Nat → Point → Point → Prop
  | zero (p : Point) : Repeats step 0 p p
  | succ {n : Nat} {p q s : Point} (first : step p q) (others : Repeats step n q s) :
      Repeats step (n + 1) p s

/-- The expression matches what lies between two points. -/
def Node.Reaches : Node → Point → Point → Prop
  | .empty, p, q => q = p
  | .one k, p, q =>
    ∃ c, k.contains c = true ∧ p.rest = c :: q.rest ∧ q.before = some c ∧ q.captured = p.captured
  | .look a, p, q => a.holds p.before p.rest.head? = true ∧ q = p
  | .group index body, p, q => ∃ s, body.Reaches p s ∧ q = Point.capture index p s
  | .seq a b, p, q => ∃ s, a.Reaches p s ∧ b.Reaches s q
  | .alt a b, p, q => a.Reaches p q ∨ b.Reaches p q
  | .iterate body least most _, p, q =>
    ∃ n, least ≤ n ∧ (∀ m, most = some m → n ≤ max least m) ∧ Repeats body.Reaches n p q

/-- The expression matches the text from its start to its end. -/
def Node.MatchesAll (node : Node) (text : List Char) : Prop :=
  ∃ q, node.Reaches (Point.atStart text) q ∧ q.rest = []

section
variable {step step' : Point → Point → Prop} {n m : Nat} {p q s : Point}

theorem Repeats.trans (h : Repeats step n p q) (h' : Repeats step m q s) :
    Repeats step (n + m) p s := by
  induction h with
  | zero p => rwa [Nat.zero_add]
  | @succ n p q r first others ih =>
    rw [Nat.add_right_comm]
    exact .succ first (ih h')

theorem Repeats.split (h : Repeats step (n + m) p q) :
    ∃ s, Repeats step n p s ∧ Repeats step m s q := by
  induction n generalizing p with
  | zero => exact ⟨p, .zero p, by rwa [Nat.zero_add] at h⟩
  | succ n ih =>
    rw [Nat.add_right_comm] at h
    cases h with
    | succ first others =>
      obtain ⟨s, hbefore, hbehind⟩ := ih others
      exact ⟨s, .succ first hbefore, hbehind⟩

theorem Repeats.imp (hstep : ∀ p q, step p q → step' p q) (h : Repeats step n p q) :
    Repeats step' n p q := by
  induction h with
  | zero p => exact .zero p
  | succ first _ ih => exact .succ (hstep _ _ first) ih

theorem Repeats.passes (hstep : ∀ p q, step p q → ∃ x, p.Passes x q) (h : Repeats step n p q) :
    ∃ x, p.Passes x q := by
  induction h with
  | zero p => exact ⟨[], .refl p⟩
  | succ first _ ih =>
    obtain ⟨x, hx⟩ := hstep _ _ first
    obtain ⟨y, hy⟩ := ih
    exact ⟨x ++ y, hx.trans hy⟩

/-- Steps that can be taken elsewhere, up to what was captured, can be repeated there. -/
theorem Repeats.follow (hstep : ∀ p q p', step p q → p.Same p' → ∃ q', step' p' q' ∧ q.Same q')
    (h : Repeats step n p q) {p' : Point} (hsame : p.Same p') :
    ∃ q', Repeats step' n p' q' ∧ q.Same q' := by
  induction h generalizing p' with
  | zero p => exact ⟨p', .zero p', hsame⟩
  | succ first _ ih =>
    obtain ⟨s, hs, hsame'⟩ := hstep _ _ _ first hsame
    obtain ⟨q', hq, hsame''⟩ := ih hsame'
    exact ⟨q', .succ hs hq, hsame''⟩

end

/-- A match passes over a part of the text. -/
theorem Node.Reaches.passes {node : Node} {p q : Point} (h : node.Reaches p q) :
    ∃ x, p.Passes x q := by
  induction node generalizing p q with
  | empty => exact ⟨[], by rw [h]; exact .refl p⟩
  | one k =>
    obtain ⟨c, -, hrest, hbefore, -⟩ := h
    exact ⟨[c], hrest, hbefore⟩
  | look a => exact ⟨[], by rw [h.2]; exact .refl p⟩
  | group index body ih =>
    obtain ⟨s, hbody, rfl⟩ := h
    obtain ⟨x, hx⟩ := ih hbody
    exact ⟨x, hx.rest, hx.before⟩
  | seq a b iha ihb =>
    obtain ⟨s, ha, hb⟩ := h
    obtain ⟨x, hx⟩ := iha ha
    obtain ⟨y, hy⟩ := ihb hb
    exact ⟨x ++ y, hx.trans hy⟩
  | alt a b iha ihb => exact h.elim iha ihb
  | iterate body least most greedy ih =>
    obtain ⟨n, -, -, hsteps⟩ := h
    exact hsteps.passes fun _ _ => ih

/-- What matches at a place does not depend on what was captured before. -/
theorem Node.Reaches.follow {node : Node} {p q p' : Point} (h : node.Reaches p q)
    (hsame : p.Same p') : ∃ q', node.Reaches p' q' ∧ q.Same q' := by
  induction node generalizing p q p' with
  | empty => exact ⟨p', rfl, by rw [h]; exact hsame⟩
  | one k =>
    obtain ⟨c, hc, hrest, hbefore, -⟩ := h
    exact ⟨{ q with captured := p'.captured }, ⟨c, hc, hsame.rest ▸ hrest, hbefore, rfl⟩, rfl, rfl⟩
  | look a =>
    obtain ⟨ha, rfl⟩ := h
    exact ⟨p', ⟨by rwa [← hsame.before, ← hsame.rest], rfl⟩, hsame⟩
  | group index body ih =>
    obtain ⟨s, hbody, rfl⟩ := h
    obtain ⟨s', hs, hsame'⟩ := ih hbody hsame
    exact ⟨Point.capture index p' s', ⟨s', hs, rfl⟩, hsame'.before, hsame'.rest⟩
  | seq a b iha ihb =>
    obtain ⟨s, ha, hb⟩ := h
    obtain ⟨s', hs, hsame'⟩ := iha ha hsame
    obtain ⟨q', hq, hsame''⟩ := ihb hb hsame'
    exact ⟨q', ⟨s', hs, hq⟩, hsame''⟩
  | alt a b iha ihb =>
    rcases h with h | h
    · obtain ⟨q', hq, hsame'⟩ := iha h hsame
      exact ⟨q', .inl hq, hsame'⟩
    · obtain ⟨q', hq, hsame'⟩ := ihb h hsame
      exact ⟨q', .inr hq, hsame'⟩
  | iterate body least most greedy ih =>
    obtain ⟨n, hleast, hmost, hsteps⟩ := h
    obtain ⟨q', hq, hsame'⟩ := hsteps.follow (fun _ _ _ => ih) hsame
    exact ⟨q', ⟨n, hleast, hmost, hq⟩, hsame'⟩

/-! ### Ends without repetition -/

section
variable {α β : Type} [BEq β] {key : α → β} {xs kept : List α} {x : α}

def keepFirst (key : α → β) (kept : List α) (x : α) : List α :=
  if kept.any (key · == key x) then kept else x :: kept

theorem mem_keepFirst_of_mem (y : α) (h : x ∈ kept) : x ∈ keepFirst key kept y := by
  unfold keepFirst
  split
  · exact h
  · exact List.mem_cons_of_mem _ h

theorem mem_foldl_keepFirst_of_mem (h : x ∈ kept) : x ∈ xs.foldl (keepFirst key) kept := by
  induction xs generalizing kept with
  | nil => exact h
  | cons y xs ih => exact ih (mem_keepFirst_of_mem y h)

theorem of_mem_foldl_keepFirst (h : x ∈ xs.foldl (keepFirst key) kept) : x ∈ kept ∨ x ∈ xs := by
  induction xs generalizing kept with
  | nil => exact .inl h
  | cons y xs ih =>
    rcases ih h with hkept | hxs
    · unfold keepFirst at hkept
      split at hkept
      · exact .inl hkept
      · exact (List.mem_cons.mp hkept).elim (fun hx => .inr (by simp [hx])) .inl
    · exact .inr (List.mem_cons_of_mem _ hxs)

theorem mem_of_mem_firstBy (h : x ∈ firstBy key xs) : x ∈ xs := by
  have hfold : x ∈ xs.foldl (keepFirst key) [] := List.mem_reverse.mp h
  simpa using of_mem_foldl_keepFirst hfold

theorem exists_mem_firstBy [LawfulBEq β] (key : α → β) (h : x ∈ xs) :
    ∃ y ∈ firstBy key xs, key y = key x := by
  have hfold : ∀ kept : List α, ∃ y ∈ xs.foldl (keepFirst key) kept, key y = key x := by
    induction xs with
    | nil => cases h
    | cons z xs ih =>
      intro kept
      rw [List.foldl_cons]
      rcases List.mem_cons.mp h with rfl | h
      · by_cases hany : kept.any (key · == key x) = true
        · obtain ⟨y, hy, hkey⟩ := List.any_eq_true.mp hany
          exact ⟨y, mem_foldl_keepFirst_of_mem (mem_keepFirst_of_mem x hy), eq_of_beq hkey⟩
        · refine ⟨x, mem_foldl_keepFirst_of_mem ?_, rfl⟩
          rw [keepFirst, if_neg hany]
          exact List.mem_cons_self
      · exact ih h _
  obtain ⟨y, hy, hkey⟩ := hfold []
  exact ⟨y, List.mem_reverse.mpr hy, hkey⟩

end

section
variable {points : List Point} {o q : Point}

theorem mem_of_mem_firstArrivals (h : q ∈ firstArrivals points) : q ∈ points := mem_of_mem_firstBy h

/-- Of points behind one point, each place is kept. -/
theorem exists_mem_firstArrivals (hbehind : ∀ s ∈ points, ∃ x, o.Passes x s) (h : q ∈ points) :
    ∃ s ∈ firstArrivals points, q.Same s := by
  obtain ⟨s, hs, hleft⟩ := exists_mem_firstBy Point.left h
  obtain ⟨x, hx⟩ := hbehind q h
  obtain ⟨y, hy⟩ := hbehind s (mem_of_mem_firstArrivals hs)
  exact ⟨s, hs, hx.same hy hleft.symm⟩

end

/-! ### Repetition finds what steps lead to -/

/-- Steps as a search takes them. -/
def Takes (step : Point → List Point) (p q : Point) : Prop := q ∈ step p

/-- What the search does with one of the points that a step from `p` leads to: it goes on from there
if something was consumed, and else notes the point down when `idle` holds. -/
def visit (step : Point → List Point) (greedy idle : Bool) (fuel : Point → Nat) (p : Point)
    (acc : List Point × List Nat) (q : Point) : List Point × List Nat :=
  if q.left < p.left then
    (acc.1 ++ (explore step greedy (fuel q) acc.2 q).1, (explore step greedy (fuel q) acc.2 q).2)
  else if idle then (acc.1 ++ [q], acc.2) else acc

section
variable {step : Point → List Point} {greedy idle : Bool} {fuel : Point → Nat}
  {acc : List Point × List Nat} {points seen : List Nat} {o p q s : Point}

theorem explore_succ (step : Point → List Point) (greedy : Bool) (n : Nat) (seen : List Nat) (p : Point) :
    explore step greedy (n + 1) seen p =
      if p.left ∈ seen then ([], seen)
      else
        let result := (step p).foldl (visit step greedy false (fun _ => n) p) ([], p.left :: seen)
        (if greedy then result.1 ++ [p] else p :: result.1, result.2) := rfl

theorem oneOrMore_eq (step : Point → List Point) (greedy : Bool) (p : Point) :
    oneOrMore step greedy p = ((step p).foldl (visit step greedy true Point.left p) ([], [])).1 := rfl

theorem Repeats.one {step : Point → Point → Prop} (h : step p q) : Repeats step 1 p q :=
  .succ h (.zero q)

theorem of_mem_foldl_visit {qs : List Point} (h : s ∈ (qs.foldl (visit step greedy idle fuel p) acc).1) :
    s ∈ acc.1 ∨ ∃ q ∈ qs, s = q ∨ ∃ seen, s ∈ (explore step greedy (fuel q) seen q).1 := by
  induction qs generalizing acc with
  | nil => exact .inl h
  | cons q qs ih =>
    rcases ih h with hacc | ⟨r, hr, hs⟩
    · unfold visit at hacc
      split_ifs at hacc
      · rcases List.mem_append.mp hacc with hs | hs
        · exact .inl hs
        · exact .inr ⟨q, List.mem_cons_self, .inr ⟨_, hs⟩⟩
      · rcases List.mem_append.mp hacc with hs | hs
        · exact .inl hs
        · exact .inr ⟨q, List.mem_cons_self, .inl (List.mem_singleton.mp hs)⟩
      · exact .inl hacc
    · exact .inr ⟨r, List.mem_cons_of_mem _ hr, hs⟩

theorem repeats_of_mem_explore {n : Nat} {seen : List Nat}
    (h : s ∈ (explore step greedy n seen p).1) : ∃ m, Repeats (Takes step) m p s := by
  induction n generalizing seen p with
  | zero =>
    obtain rfl := List.mem_singleton.mp h
    exact ⟨0, .zero _⟩
  | succ n ih =>
    rw [explore_succ] at h
    split_ifs at h with hseen
    · cases h
    all_goals
      have hcases : s = p ∨ s ∈
          ((step p).foldl (visit step greedy false (fun _ => n) p) ([], p.left :: seen)).1 := by
        simpa [or_comm] using h
      rcases hcases with rfl | hs
      · exact ⟨0, .zero _⟩
      rcases of_mem_foldl_visit hs with hs | ⟨q, hq, rfl | ⟨seen', hs⟩⟩
      · cases hs
      · exact ⟨1, .one hq⟩
      · obtain ⟨m, hm⟩ := ih hs
        exact ⟨m + 1, .succ hq hm⟩

theorem repeats_of_mem_oneOrMore (h : s ∈ oneOrMore step greedy p) :
    ∃ m, Repeats (Takes step) (m + 1) p s := by
  rw [oneOrMore_eq] at h
  rcases of_mem_foldl_visit h with hs | ⟨q, hq, rfl | ⟨seen, hs⟩⟩
  · cases hs
  · exact ⟨0, .one hq⟩
  · obtain ⟨m, hm⟩ := repeats_of_mem_explore hs
    exact ⟨m, .succ hq hm⟩

theorem repeats_of_mem_zeroOrMore (h : s ∈ zeroOrMore step greedy p) :
    ∃ m, Repeats (Takes step) m p s := by
  have hcases : s = p ∨ s ∈ oneOrMore step greedy p := by
    unfold zeroOrMore at h
    split at h <;> simpa [or_comm] using h
  rcases hcases with rfl | hs
  · exact ⟨0, .zero _⟩
  · obtain ⟨m, hm⟩ := repeats_of_mem_oneOrMore hs
    exact ⟨m + 1, hm⟩

theorem repeats_of_mem_exactly {n : Nat} {points : List Point} (h : s ∈ exactly step n points) :
    ∃ p ∈ points, Repeats (Takes step) n p s := by
  induction n generalizing points with
  | zero => exact ⟨s, h, .zero s⟩
  | succ n ih =>
    obtain ⟨q, hq, hs⟩ := ih h
    obtain ⟨p, hp, hstep⟩ := List.mem_flatMap.mp (mem_of_mem_firstArrivals hq)
    exact ⟨p, hp, .succ hstep hs⟩

theorem mem_branches {mark : Point × Bool} :
    mark ∈ branches step greedy p ↔ mark = (p, false) ∨ ∃ q ∈ step p, mark = (q, true) := by
  unfold branches
  split <;> simp [or_comm, eq_comm]

/-- Where a mark leads with one more step at most: a marked point stays or goes on, others stay. -/
def onward (step : Point → List Point) (greedy : Bool) (mark : Point × Bool) : List (Point × Bool) :=
  if mark.2 then branches step greedy mark.1 else [(mark.1, false)]

/-- Of marks that are alike in this only one is kept. -/
def markKey (mark : Point × Bool) : Nat × Bool := (mark.1.left, mark.2)

theorem upTo_succ (step : Point → List Point) (greedy : Bool) (n : Nat) (marks : List (Point × Bool)) :
    upTo step greedy (n + 1) marks =
      upTo step greedy n (firstBy markKey (marks.flatMap (onward step greedy))) := rfl

theorem mem_onward {goesOn : Bool} {mark : Point × Bool} :
    mark ∈ onward step greedy (p, goesOn) ↔
      mark = (p, false) ∨ goesOn = true ∧ ∃ q ∈ step p, mark = (q, true) := by
  cases goesOn with
  | false => simp [onward]
  | true => simp [onward, mem_branches]

/-- Marked points go on for at most so many steps, and the others stay. -/
theorem repeats_of_mem_upTo {n : Nat} {marks : List (Point × Bool)} (h : s ∈ upTo step greedy n marks) :
    ∃ mark ∈ marks, ∃ m ≤ n, Repeats (Takes step) m mark.1 s ∧ (mark.2 = false → m = 0) := by
  induction n generalizing marks with
  | zero =>
    obtain ⟨mark, hmark, rfl⟩ := List.mem_map.mp h
    exact ⟨mark, hmark, 0, Nat.le_refl 0, .zero _, fun _ => rfl⟩
  | succ n ih =>
    rw [upTo_succ] at h
    obtain ⟨next, hnext, m, hm, hs, hstay⟩ := ih h
    obtain ⟨⟨p, goesOn⟩, hmark, honward⟩ := List.mem_flatMap.mp (mem_of_mem_firstBy hnext)
    refine ⟨(p, goesOn), hmark, ?_⟩
    rcases mem_onward.mp honward with rfl | ⟨rfl, q, hq, rfl⟩
    · exact ⟨m, Nat.le_succ_of_le hm, hs, fun _ => hstay rfl⟩
    · exact ⟨m + 1, Nat.succ_le_succ hm, .succ hq hs, fun h => by cases h⟩

/-- The places where repeated steps end, before those that are reached twice are left out. -/
def repeated (step : Point → List Point) (least : Nat) (most : Option Nat) (greedy : Bool) (p : Point) :
    List Point :=
  match least, most with
  | 0, none => zeroOrMore step greedy p
  | n + 1, none => (exactly step n [p]).flatMap (oneOrMore step greedy)
  | n, some m => upTo step greedy (m - n) ((exactly step n [p]).map (·, true))

theorem repeats_of_mem_repeated {least : Nat} {most : Option Nat}
    (h : s ∈ repeated step least most greedy p) :
    ∃ n, least ≤ n ∧ (∀ m, most = some m → n ≤ max least m) ∧ Repeats (Takes step) n p s := by
  unfold repeated at h
  split at h
  · obtain ⟨m, hm⟩ := repeats_of_mem_zeroOrMore h
    exact ⟨m, Nat.zero_le m, by simp, hm⟩
  · next n =>
    obtain ⟨q, hq, hs⟩ := List.mem_flatMap.mp h
    obtain ⟨p', hp, hn⟩ := repeats_of_mem_exactly hq
    obtain rfl := List.mem_singleton.mp hp
    obtain ⟨m, hm⟩ := repeats_of_mem_oneOrMore hs
    exact ⟨n + (m + 1), by omega, by simp, hn.trans hm⟩
  · next bound _ =>
    obtain ⟨mark, hmark, m, hle, hm, -⟩ := repeats_of_mem_upTo h
    obtain ⟨q, hq, rfl⟩ := List.mem_map.mp hmark
    obtain ⟨p', hp, hn⟩ := repeats_of_mem_exactly hq
    obtain rfl := List.mem_singleton.mp hp
    refine ⟨least + m, by omega, ?_, hn.trans hm⟩
    rintro _ ⟨⟩
    omega

end

/-- Ends that the search finds are ends of matches. -/
theorem reaches_of_mem_ends {node : Node} {p q : Point} (h : q ∈ ends node p) : node.Reaches p q := by
  induction node generalizing p q with
  | empty => exact List.mem_singleton.mp h
  | one k =>
    unfold ends at h
    split at h
    · next c cs hrest =>
      split_ifs at h with hc
      · obtain rfl := List.mem_singleton.mp h
        exact ⟨c, hc, hrest, rfl, rfl⟩
      · cases h
    · cases h
  | look a =>
    unfold ends at h
    split_ifs at h with ha
    · exact ⟨ha, List.mem_singleton.mp h⟩
    · cases h
  | group index body ih =>
    obtain ⟨s, hs, rfl⟩ := List.mem_map.mp h
    exact ⟨s, ih hs, rfl⟩
  | seq a b iha ihb =>
    obtain ⟨s, hs, hq⟩ := List.mem_flatMap.mp (mem_of_mem_firstArrivals h)
    exact ⟨s, iha hs, ihb hq⟩
  | alt a b iha ihb => exact (List.mem_append.mp (mem_of_mem_firstArrivals h)).imp iha ihb
  | iterate body least most greedy ih =>
    obtain ⟨n, hleast, hmost, hn⟩ := repeats_of_mem_repeated (mem_of_mem_firstArrivals h)
    exact ⟨n, hleast, hmost, hn.imp fun _ _ => ih⟩

/-! ### Repetition misses no place -/

/-- Steps that depend on the place alone and go forward. -/
structure Local (step : Point → List Point) : Prop where
  passes : ∀ {p q}, q ∈ step p → ∃ x, p.Passes x q
  follow : ∀ {p q p'}, q ∈ step p → p.Same p' → ∃ q' ∈ step p', q.Same q'

def Consumes (step : Point → List Point) (p q : Point) : Prop := q ∈ step p ∧ q.left < p.left

abbrev Leads (step : Point → List Point) : Point → Point → Prop :=
  Relation.ReflTransGen (Consumes step)

/-- The places to which consuming steps lead from where `l` is left behind `o` are all found. -/
def Closed (step : Point → List Point) (o : Point) (found : Nat → Prop) (l : Nat) : Prop :=
  ∀ p x, o.Passes x p → p.left = l → ∀ q, Leads step p q → found q.left

def Adding (found : Nat → Prop) (points : List Point) (l : Nat) : Prop :=
  found l ∨ ∃ p ∈ points, p.left = l

section
variable {step : Point → List Point} {greedy idle : Bool} {fuel : Point → Nat}
  {acc : List Point × List Nat} {found found' : Nat → Prop} {o p q s : Point} {x : List Char} {l : Nat}

theorem Leads.left_le (h : Leads step p q) : q.left ≤ p.left := by
  induction h with
  | refl => exact Nat.le_refl _
  | tail _ hstep ih => exact Nat.le_trans (Nat.le_of_lt hstep.2) ih

theorem Leads.follow (hlocal : Local step) (h : Leads step p q) {p' : Point} (hsame : p.Same p') :
    ∃ q', Leads step p' q' ∧ q.Same q' := by
  induction h with
  | refl => exact ⟨p', .refl, hsame⟩
  | tail _ hstep ih =>
    obtain ⟨s', hs, hsame'⟩ := ih
    obtain ⟨q', hq, hsame''⟩ := hlocal.follow hstep.1 hsame'
    refine ⟨q', hs.tail ⟨hq, ?_⟩, hsame''⟩
    rw [← hsame'.left_eq, ← hsame''.left_eq]
    exact hstep.2

theorem Closed.mono (h : Closed step o found l) (hle : ∀ l, found l → found' l) :
    Closed step o found' l := fun p x hp hl q hq => hle _ (h p x hp hl q hq)

theorem Adding.mono {points points' : List Point} (h : Adding found points l)
    (hle : ∀ p ∈ points, p ∈ points') : Adding found points' l :=
  h.imp_right (Exists.imp fun p => And.imp_left (hle p))

theorem adding_append {points points' : List Point} :
    Adding found (points ++ points') l ↔ Adding (Adding found points) points' l := by
  simp only [Adding, List.mem_append, or_and_right, exists_or, or_assoc]

/-- What an exploration from `p` owes: it finds all places that consuming steps lead to, given that
this is so already for the places it will not leave again, and then it is so for those it has left. -/
def Explored (step : Point → List Point) (o p : Point) (seen : List Nat)
    (result : List Point × List Nat) : Prop :=
  ∀ found : Nat → Prop, (∀ l ∈ seen, l ≤ p.left → Closed step o found l) →
    (∀ q, Leads step p q → Adding found result.1 q.left) ∧
    ∀ l ∈ result.2, l ∈ seen ∨ l ≤ p.left ∧ Closed step o (Adding found result.1) l

/-- What visiting the points `qs` that a step from `p` leads to adds to what there was. -/
structure Covers (step : Point → List Point) (o p : Point) (idle : Bool) (found : Nat → Prop)
    (qs : List Point) (acc result : List Point × List Nat) : Prop where
  kept : ∀ s ∈ acc.1, s ∈ result.1
  led : ∀ q ∈ qs, q.left < p.left → ∀ s, Leads step q s → Adding found result.1 s.left
  noted : idle = true → ∀ q ∈ qs, ¬q.left < p.left → q ∈ result.1
  closed : ∀ l ∈ result.2, l ∈ acc.2 ∨ l < p.left ∧ Closed step o (Adding found result.1) l

theorem covers_visit (hexplore : q.left < p.left → ∀ seen,
      Explored step o q seen (explore step greedy (fuel q) seen q))
    (hseen : ∀ l ∈ acc.2, l < p.left → Closed step o (Adding found acc.1) l) :
    Covers step o p idle found [q] acc (visit step greedy idle fuel p acc q) := by
  unfold visit
  split_ifs with hlt hidle
  · obtain ⟨hled, hclosed⟩ := hexplore hlt acc.2 (Adding found acc.1) fun l hl hle =>
      hseen l hl (Nat.lt_of_le_of_lt hle hlt)
    refine ⟨fun s hs => List.mem_append_left _ hs, ?_, ?_, fun l hl => ?_⟩
    · intro q' hq' _ s hs
      obtain rfl := List.mem_singleton.mp hq'
      exact adding_append.mpr (hled s hs)
    · intro _ q' hq' hidle
      obtain rfl := List.mem_singleton.mp hq'
      exact absurd hlt hidle
    · exact (hclosed l hl).imp_right fun h =>
        ⟨Nat.lt_of_le_of_lt h.1 hlt, h.2.mono fun l => adding_append.mpr⟩
  · refine ⟨fun s hs => List.mem_append_left _ hs, ?_, ?_, fun l hl => .inl hl⟩
    · intro q' hq' hlt'
      obtain rfl := List.mem_singleton.mp hq'
      exact absurd hlt' hlt
    · exact fun _ q' hq' _ => List.mem_append_right _ hq'
  · refine ⟨fun s hs => hs, ?_, fun h => absurd h hidle, fun l hl => .inl hl⟩
    intro q' hq' hlt'
    obtain rfl := List.mem_singleton.mp hq'
    exact absurd hlt' hlt

theorem covers_foldl_visit {qs : List Point} (hexplore : ∀ q ∈ qs, q.left < p.left → ∀ seen,
      Explored step o q seen (explore step greedy (fuel q) seen q))
    (hseen : ∀ l ∈ acc.2, l < p.left → Closed step o (Adding found acc.1) l) :
    Covers step o p idle found qs acc (qs.foldl (visit step greedy idle fuel p) acc) := by
  induction qs generalizing acc with
  | nil => exact ⟨fun _ hs => hs, by simp, by simp, fun _ hl => .inl hl⟩
  | cons q qs ih =>
    rw [List.forall_mem_cons] at hexplore
    have hfirst : Covers step o p idle found [q] acc (visit step greedy idle fuel p acc q) :=
      covers_visit hexplore.1 hseen
    have hseen' : ∀ l ∈ (visit step greedy idle fuel p acc q).2, l < p.left →
        Closed step o (Adding found (visit step greedy idle fuel p acc q).1) l := by
      intro l hl hlt
      rcases hfirst.closed l hl with hl | ⟨-, hclosed⟩
      · exact (hseen l hl hlt).mono fun l h => h.mono hfirst.kept
      · exact hclosed
    have hothers := ih hexplore.2 hseen'
    refine ⟨fun s hs => hothers.kept s (hfirst.kept s hs), ?_, ?_, fun l hl => ?_⟩
    · rw [List.forall_mem_cons]
      exact ⟨fun hlt s hs => (hfirst.led q List.mem_cons_self hlt s hs).mono hothers.kept, hothers.led⟩
    · intro hidle
      rw [List.forall_mem_cons]
      exact ⟨fun hle => hothers.kept q (hfirst.noted hidle q List.mem_cons_self hle),
        hothers.noted hidle⟩
    · rcases hothers.closed l hl with hl | hclosed
      · exact (hfirst.closed l hl).imp_right (And.imp_right (Closed.mono · fun l h => h.mono hothers.kept))
      · exact .inr hclosed

theorem explored_explore (hlocal : Local step) {n : Nat} {seen : List Nat} (hfuel : p.left ≤ n)
    (hp : o.Passes x p) : Explored step o p seen (explore step greedy n seen p) := by
  induction n generalizing p x seen with
  | zero =>
    intro found hseen
    refine ⟨fun q hq => .inr ⟨p, List.mem_singleton.mpr rfl, ?_⟩, fun l hl => .inl hl⟩
    have := hq.left_le
    omega
  | succ n ih =>
    intro found hseen
    by_cases hmem : p.left ∈ seen
    · rw [explore_succ, if_pos hmem]
      exact ⟨fun q hq => .inl (hseen _ hmem (Nat.le_refl _) p x hp rfl q hq), fun l hl => .inl hl⟩
    have hexplore : ∀ q ∈ step p, q.left < p.left → ∀ seen,
        Explored step o q seen (explore step greedy n seen q) := by
      intro q hq hlt seen
      obtain ⟨y, hy⟩ := hlocal.passes hq
      exact ih (by omega) (hp.trans hy)
    have hseen' : ∀ l ∈ p.left :: seen, l < p.left → Closed step o (Adding found []) l := by
      intro l hl hlt
      rcases List.mem_cons.mp hl with rfl | hl
      · exact absurd hlt (Nat.lt_irrefl _)
      · exact (hseen l hl (Nat.le_of_lt hlt)).mono fun l => .inl
    have hcovers : Covers step o p false found (step p) ([], p.left :: seen)
        ((step p).foldl (visit step greedy false (fun _ => n) p) ([], p.left :: seen)) :=
      covers_foldl_visit hexplore hseen'
    -- With `p` itself, whichever way it is noted down, all that it leads to is found.
    have hall : ∀ points, p ∈ points → (∀ s ∈ ((step p).foldl (visit step greedy false (fun _ => n) p)
        ([], p.left :: seen)).1, s ∈ points) →
        (∀ q, Leads step p q → Adding found points q.left) ∧
        ∀ l ∈ ((step p).foldl (visit step greedy false (fun _ => n) p) ([], p.left :: seen)).2,
          l ∈ seen ∨ l ≤ p.left ∧ Closed step o (Adding found points) l := by
      intro points hself hpoints
      have hled : ∀ q, Leads step p q → Adding found points q.left := by
        intro q hq
        rcases hq.cases_head with rfl | ⟨s, ⟨hs, hlt⟩, hq⟩
        · exact .inr ⟨p, hself, rfl⟩
        · exact (hcovers.led s hs hlt q hq).mono hpoints
      refine ⟨hled, fun l hl => ?_⟩
      rcases hcovers.closed l hl with hl | ⟨hlt, hclosed⟩
      · rcases List.mem_cons.mp hl with rfl | hl
        · refine .inr ⟨Nat.le_refl _, fun z y hz hleft q hq => ?_⟩
          obtain ⟨q', hq', hsame⟩ := hq.follow hlocal (hz.same hp hleft)
          rw [hsame.left_eq]
          exact hled q' hq'
        · exact .inl hl
      · exact .inr ⟨Nat.le_of_lt hlt, hclosed.mono fun l h => h.mono hpoints⟩
    rw [explore_succ, if_neg hmem]
    exact hall _ (by split <;> simp) (by split <;> simp +contextual)

theorem Local.same_of_le (hlocal : Local step) (h : q ∈ step p) (hle : ¬q.left < p.left) : q.Same p := by
  obtain ⟨x, hx⟩ := hlocal.passes h
  have := hx.left_le
  exact hx.same (.refl p) (by omega)

theorem Local.passes_repeats (hlocal : Local step) {n : Nat} (h : Repeats (Takes step) n p q) :
    ∃ x, p.Passes x q := h.passes fun _ _ => hlocal.passes

theorem Local.follow_repeats (hlocal : Local step) {n : Nat} (h : Repeats (Takes step) n p q)
    {p' : Point} (hsame : p.Same p') : ∃ q', Repeats (Takes step) n p' q' ∧ q.Same q' := by
  refine h.follow (fun _ _ _ hstep hsame => ?_) hsame
  obtain ⟨q', hq, hsame'⟩ := hlocal.follow hstep hsame
  exact ⟨q', hq, hsame'⟩

/-- Steps that consume nothing lead nowhere else. -/
theorem Local.leads_of_repeats (hlocal : Local step) {n : Nat} (h : Repeats (Takes step) n p q) :
    ∃ q', Leads step p q' ∧ q.Same q' := by
  induction h with
  | zero p => exact ⟨p, .refl, .refl p⟩
  | @succ n p m q first _ ih =>
    obtain ⟨q', hq, hsame⟩ := ih
    by_cases hlt : m.left < p.left
    · exact ⟨q', hq.head ⟨first, hlt⟩, hsame⟩
    · obtain ⟨q'', hq', hsame'⟩ := hq.follow hlocal (hlocal.same_of_le first hlt)
      exact ⟨q'', hq', hsame.trans hsame'⟩

/-- Of the places that one or more steps lead to, none is missed. -/
theorem exists_mem_oneOrMore (hlocal : Local step) (greedy : Bool) {n : Nat}
    (h : Repeats (Takes step) (n + 1) p q) :
    ∃ s ∈ oneOrMore step greedy p, q.Same s := by
  have hexplore : ∀ q ∈ step p, q.left < p.left → ∀ seen,
      Explored step p q seen (explore step greedy q.left seen q) := by
    intro q hq _ seen
    obtain ⟨x, hx⟩ := hlocal.passes hq
    exact explored_explore hlocal (Nat.le_refl _) hx
  have hcovers : Covers step p p true (fun _ => False) (step p) ([], [])
      ((step p).foldl (visit step greedy true Point.left p) ([], [])) :=
    covers_foldl_visit hexplore (by simp)
  have hfound : ∀ {q : Point}, Adding (fun _ => False) (oneOrMore step greedy p) q.left →
      (∃ x, p.Passes x q) → ∃ s ∈ oneOrMore step greedy p, q.Same s := by
    rintro q hadded ⟨x, hx⟩
    obtain ⟨s, hs, hleft⟩ := hadded.resolve_left id
    obtain ⟨m, hm⟩ := repeats_of_mem_oneOrMore hs
    obtain ⟨y, hy⟩ := hlocal.passes_repeats hm
    exact ⟨s, hs, hx.same hy hleft.symm⟩
  induction n generalizing q with
  | zero =>
    cases h with
    | @succ _ _ m _ first others =>
      cases others with
      | zero =>
        by_cases hlt : q.left < p.left
        · exact hfound (hcovers.led q first hlt q .refl) (hlocal.passes first)
        · exact ⟨q, hcovers.noted rfl q first hlt, .refl q⟩
  | succ n ih =>
    cases h with
    | @succ _ _ m _ first others =>
      by_cases hlt : m.left < p.left
      · obtain ⟨q', hq, hsame⟩ := hlocal.leads_of_repeats others
        refine hfound ?_ (hlocal.passes_repeats (.succ first others))
        rw [hsame.left_eq]
        exact hcovers.led m first hlt q' hq
      -- A first step that stays where it is can be left out.
      · obtain ⟨q', hq, hsame⟩ := hlocal.follow_repeats others (hlocal.same_of_le first hlt)
        obtain ⟨s, hs, hsame'⟩ := ih hq
        exact ⟨s, hs, hsame.trans hsame'⟩

theorem exists_mem_zeroOrMore (hlocal : Local step) {n : Nat} (h : Repeats (Takes step) n p q) :
    ∃ s ∈ zeroOrMore step greedy p, q.Same s := by
  cases h with
  | zero => exact ⟨p, by unfold zeroOrMore; split <;> simp, .refl p⟩
  | succ first others =>
    obtain ⟨s, hs, hsame⟩ := exists_mem_oneOrMore hlocal greedy (.succ first others)
    exact ⟨s, by unfold zeroOrMore; split <;> simp [hs], hsame⟩

theorem exists_mem_exactly (hlocal : Local step) {n : Nat} {points : List Point}
    (hbehind : ∀ s ∈ points, ∃ x, o.Passes x s) (hp : p ∈ points) (h : Repeats (Takes step) n p q) :
    ∃ s ∈ exactly step n points, q.Same s := by
  induction n generalizing points p q with
  | zero =>
    cases h with
    | zero => exact ⟨p, hp, .refl p⟩
  | succ n ih =>
    cases h with
    | @succ _ _ m _ first others =>
      have hnext : ∀ s ∈ points.flatMap step, ∃ x, o.Passes x s := by
        intro s hs
        obtain ⟨r, hr, hs⟩ := List.mem_flatMap.mp hs
        obtain ⟨x, hx⟩ := hbehind r hr
        obtain ⟨y, hy⟩ := hlocal.passes hs
        exact ⟨x ++ y, hx.trans hy⟩
      obtain ⟨m', hm', hsame⟩ :=
        exists_mem_firstArrivals hnext (List.mem_flatMap.mpr ⟨p, hp, first⟩)
      obtain ⟨q', hq, hsame'⟩ := hlocal.follow_repeats others hsame
      obtain ⟨s, hs, hsame''⟩ := ih (fun s hs => hnext s (mem_of_mem_firstArrivals hs)) hm' hq
      exact ⟨s, hs, hsame'.trans hsame''⟩

theorem passes_onward (hlocal : Local step) {mark next : Point × Bool} (hbehind : ∃ x, o.Passes x mark.1)
    (h : next ∈ onward step greedy mark) : ∃ x, o.Passes x next.1 := by
  obtain ⟨x, hx⟩ := hbehind
  rcases mem_onward.mp h with rfl | ⟨-, q, hq, rfl⟩
  · exact ⟨x, hx⟩
  · obtain ⟨y, hy⟩ := hlocal.passes hq
    exact ⟨x ++ y, hx.trans hy⟩

/-- Whatever mark there is, one is kept at its place that goes on just as it does. -/
theorem exists_mem_firstBy_markKey {marks : List (Point × Bool)} {goesOn : Bool}
    (hbehind : ∀ mark ∈ marks, ∃ x, o.Passes x mark.1) (h : (p, goesOn) ∈ marks) :
    ∃ p', (p', goesOn) ∈ firstBy markKey marks ∧ p.Same p' := by
  obtain ⟨⟨p', goesOn'⟩, hp', hkey⟩ := exists_mem_firstBy markKey h
  obtain ⟨hleft, rfl⟩ := Prod.mk.inj hkey
  obtain ⟨x, hx⟩ := hbehind _ h
  obtain ⟨y, hy⟩ := hbehind _ (mem_of_mem_firstBy hp')
  exact ⟨p', hp', hx.same hy hleft.symm⟩

theorem exists_mem_upTo (hlocal : Local step) (greedy : Bool) (n : Nat) {m : Nat}
    {marks : List (Point × Bool)} {goesOn : Bool} (hbehind : ∀ mark ∈ marks, ∃ x, o.Passes x mark.1)
    (hp : (p, goesOn) ∈ marks) (hle : m ≤ n) (hstay : goesOn = false → m = 0)
    (h : Repeats (Takes step) m p q) : ∃ s ∈ upTo step greedy n marks, q.Same s := by
  induction n generalizing marks p q m goesOn with
  | zero =>
    obtain rfl := Nat.le_zero.mp hle
    cases h with
    | zero => exact ⟨p, List.mem_map.mpr ⟨_, hp, rfl⟩, .refl p⟩
  | succ n ih =>
    rw [upTo_succ]
    have hnext : ∀ mark ∈ marks.flatMap (onward step greedy), ∃ x, o.Passes x mark.1 := by
      intro mark hmark
      obtain ⟨before, hbefore, honward⟩ := List.mem_flatMap.mp hmark
      exact passes_onward hlocal (hbehind before hbefore) honward
    have hkept : ∀ mark ∈ firstBy markKey (marks.flatMap (onward step greedy)), ∃ x, o.Passes x mark.1 :=
      fun mark hmark => hnext mark (mem_of_mem_firstBy hmark)
    cases h with
    | zero =>
      have hmark : (p, false) ∈ marks.flatMap (onward step greedy) :=
        List.mem_flatMap.mpr ⟨_, hp, mem_onward.mpr (.inl rfl)⟩
      obtain ⟨p', hp', hsame⟩ := exists_mem_firstBy_markKey hnext hmark
      obtain ⟨s, hs, hsame'⟩ := ih hkept hp' (Nat.zero_le n) (fun _ => rfl) (.zero p')
      exact ⟨s, hs, hsame.trans hsame'⟩
    | @succ m _ r _ first others =>
      have hgoes : goesOn = true := by
        cases goesOn with
        | false => exact absurd (hstay rfl) (Nat.succ_ne_zero m)
        | true => rfl
      have hmark : (r, true) ∈ marks.flatMap (onward step greedy) :=
        List.mem_flatMap.mpr ⟨_, hp, mem_onward.mpr (.inr ⟨hgoes, r, first, rfl⟩)⟩
      obtain ⟨r', hr', hsame⟩ := exists_mem_firstBy_markKey hnext hmark
      obtain ⟨q', hq, hsame'⟩ := hlocal.follow_repeats others hsame
      obtain ⟨s, hs, hsame''⟩ := ih hkept hr' (Nat.le_of_succ_le_succ hle) (fun h => by cases h) hq
      exact ⟨s, hs, hsame'.trans hsame''⟩

theorem exists_mem_repeated (hlocal : Local step) (greedy : Bool) {n least : Nat} {most : Option Nat}
    (hleast : least ≤ n) (hmost : ∀ m, most = some m → n ≤ max least m)
    (h : Repeats (Takes step) n p q) : ∃ s ∈ repeated step least most greedy p, q.Same s := by
  have hself : ∀ s ∈ [p], ∃ x, p.Passes x s := by simpa using ⟨[], .refl p⟩
  unfold repeated
  split
  · exact exists_mem_zeroOrMore hlocal h
  · next least =>
    obtain ⟨m, rfl⟩ := Nat.exists_eq_add_of_le hleast
    rw [Nat.succ_add_eq_add_succ] at h
    obtain ⟨r, hr, hq⟩ := h.split
    obtain ⟨r', hr', hsame⟩ := exists_mem_exactly hlocal hself List.mem_cons_self hr
    obtain ⟨q', hq', hsame'⟩ := hlocal.follow_repeats hq hsame
    obtain ⟨s, hs, hsame''⟩ := exists_mem_oneOrMore hlocal greedy hq'
    exact ⟨s, List.mem_flatMap.mpr ⟨r', hr', hs⟩, hsame'.trans hsame''⟩
  · next bound =>
    obtain ⟨m, rfl⟩ := Nat.exists_eq_add_of_le hleast
    have hle := hmost bound rfl
    obtain ⟨r, hr, hq⟩ := h.split
    obtain ⟨r', hr', hsame⟩ := exists_mem_exactly hlocal hself List.mem_cons_self hr
    obtain ⟨q', hq', hsame'⟩ := hlocal.follow_repeats hq hsame
    have hbehind : ∀ mark ∈ (exactly step least [p]).map (·, true), ∃ x, p.Passes x mark.1 := by
      intro mark hmark
      obtain ⟨s, hs, rfl⟩ := List.mem_map.mp hmark
      obtain ⟨p', hp, hn⟩ := repeats_of_mem_exactly hs
      obtain rfl := List.mem_singleton.mp hp
      exact hlocal.passes_repeats hn
    obtain ⟨s, hs, hsame''⟩ := exists_mem_upTo hlocal greedy (bound - least) hbehind
      (List.mem_map.mpr ⟨r', hr', rfl⟩) (by omega) (fun h => by cases h) hq'
    exact ⟨s, hs, hsame'.trans hsame''⟩

end

/-- Wherever a match ends, the search finds an end. -/
theorem exists_mem_ends {node : Node} {p q : Point} (h : node.Reaches p q) :
    ∃ s ∈ ends node p, q.Same s := by
  induction node generalizing p q with
  | empty => exact ⟨p, List.mem_singleton.mpr rfl, by rw [h]; exact .refl p⟩
  | one k =>
    obtain ⟨c, hc, hrest, hbefore, -⟩ := h
    refine ⟨{ p with before := some c, rest := q.rest }, ?_, hbefore, rfl⟩
    simp [ends, hrest, hc]
  | look a =>
    obtain ⟨ha, rfl⟩ := h
    exact ⟨q, by simp [ends, ha], .refl q⟩
  | group index body ih =>
    obtain ⟨s, hbody, rfl⟩ := h
    obtain ⟨s', hs, hsame⟩ := ih hbody
    exact ⟨_, List.mem_map.mpr ⟨s', hs, rfl⟩, hsame.before, hsame.rest⟩
  | seq a b iha ihb =>
    obtain ⟨r, ha, hb⟩ := h
    obtain ⟨r', hr, hsame⟩ := iha ha
    obtain ⟨q', hq, hsame'⟩ := hb.follow hsame
    obtain ⟨s, hs, hsame''⟩ := ihb hq
    have hbehind : ∀ s ∈ (ends a p).flatMap (ends b), ∃ x, p.Passes x s := by
      intro s hs
      obtain ⟨r, hr, hs⟩ := List.mem_flatMap.mp hs
      obtain ⟨x, hx⟩ := (reaches_of_mem_ends hr).passes
      obtain ⟨y, hy⟩ := (reaches_of_mem_ends hs).passes
      exact ⟨x ++ y, hx.trans hy⟩
    obtain ⟨s', hs', hsame₃⟩ :=
      exists_mem_firstArrivals hbehind (List.mem_flatMap.mpr ⟨r', hr, hs⟩)
    exact ⟨s', hs', hsame'.trans (hsame''.trans hsame₃)⟩
  | alt a b iha ihb =>
    have hbehind : ∀ s ∈ ends a p ++ ends b p, ∃ x, p.Passes x s := by
      intro s hs
      rcases List.mem_append.mp hs with hs | hs <;> exact (reaches_of_mem_ends hs).passes
    obtain ⟨s, hs, hsame⟩ : ∃ s ∈ ends a p ++ ends b p, q.Same s := by
      rcases h with h | h
      · obtain ⟨s, hs, hsame⟩ := iha h
        exact ⟨s, List.mem_append_left _ hs, hsame⟩
      · obtain ⟨s, hs, hsame⟩ := ihb h
        exact ⟨s, List.mem_append_right _ hs, hsame⟩
    obtain ⟨s', hs', hsame'⟩ := exists_mem_firstArrivals hbehind hs
    exact ⟨s', hs', hsame.trans hsame'⟩
  | iterate body least most greedy ih =>
    have hlocal : Local (ends body) := by
      refine ⟨fun hq => (reaches_of_mem_ends hq).passes, fun hq hsame => ?_⟩
      obtain ⟨q', hq', hsame'⟩ := (reaches_of_mem_ends hq).follow hsame
      obtain ⟨s, hs, hsame''⟩ := ih hq'
      exact ⟨s, hs, hsame'.trans hsame''⟩
    obtain ⟨n, hleast, hmost, hn⟩ := h
    obtain ⟨q', hsteps, hsame⟩ : ∃ q', Repeats (Takes (ends body)) n p q' ∧ q.Same q' := by
      refine hn.follow (fun _ _ _ hstep hsame => ?_) (.refl p)
      obtain ⟨r, hr, hsame'⟩ := hstep.follow hsame
      obtain ⟨s, hs, hsame''⟩ := ih hr
      exact ⟨s, hs, hsame'.trans hsame''⟩
    obtain ⟨s, hs, hsame'⟩ := exists_mem_repeated hlocal greedy hleast hmost hsteps
    have hbehind : ∀ s ∈ repeated (ends body) least most greedy p, ∃ x, p.Passes x s := by
      intro s hs
      obtain ⟨m, -, -, hm⟩ := repeats_of_mem_repeated hs
      exact hlocal.passes_repeats hm
    obtain ⟨s', hs', hsame''⟩ := exists_mem_firstArrivals hbehind hs
    exact ⟨s', hs', hsame.trans (hsame'.trans hsame'')⟩

end RouteQuery.Pattern
