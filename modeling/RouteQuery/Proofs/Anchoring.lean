import RouteQuery.Proofs.Matching

/-! Expressions that are held to the start of a text, and expressions that do not look at what follows
them: the former match nowhere else, and what the latter match is the same in any longer text. -/
namespace RouteQuery.Pattern

namespace Node

/-- Wherever it matches, nothing stands before. -/
def Anchored (node : Node) : Prop := ∀ p q, node.Reaches p q → p.before = none

/-- It asserts nothing but to be at the start of the text. -/
def LooksBack : Node → Prop
  | .empty | .one _ => True
  | .look a => a = .startText
  | .group _ body | .iterate body .. => body.LooksBack
  | .seq a b | .alt a b => a.LooksBack ∧ b.LooksBack

end Node

/-- What the search finds is the end of a match behind some part of the text, with nothing captured
before. -/
theorem reaches_of_searchFrom {node : Node} {before : Option Char} {text : List Char} {q : Point}
    (h : searchFrom node before text = some q) :
    ∃ x p, Point.Passes ⟨before, text, []⟩ x p ∧ p.captured = [] ∧ node.Reaches p q := by
  have hends : ∀ {p : Point}, (ends node p).head? = some q → node.Reaches p q :=
    fun hq => reaches_of_mem_ends (List.mem_of_mem_head? hq)
  induction text generalizing before with
  | nil => exact ⟨[], _, .refl _, rfl, hends h⟩
  | cons c cs ih =>
    rw [searchFrom] at h
    split at h
    · next q' hq' =>
      obtain rfl := Option.some.inj h
      exact ⟨[], _, .refl _, rfl, hends hq'⟩
    · obtain ⟨x, p, hp, hcaptured, hq⟩ := ih h
      exact ⟨c :: x, p, Point.Passes.trans (x := [c]) ⟨rfl, rfl⟩ hp, hcaptured, hq⟩

/-- Whatever the search finds, the text behind it is left. -/
theorem suffix_of_searchFrom {node : Node} {before : Option Char} {text : List Char} {q : Point}
    (h : searchFrom node before text = some q) : q.rest <:+ text := by
  obtain ⟨x, p, hp, -, hq⟩ := reaches_of_searchFrom h
  obtain ⟨y, hy⟩ := hq.passes
  exact ⟨x ++ y, (hp.trans hy).rest.symm⟩

/-- Where the expression matches somewhere in the text, the search finds something. -/
theorem exists_searchFrom {node : Node} {before : Option Char} {text x : List Char} {p q : Point}
    (hp : Point.Passes ⟨before, text, []⟩ x p) (hq : node.Reaches p q) :
    ∃ s, searchFrom node before text = some s := by
  have hhere : ∀ {p' : Point}, p'.Passes [] p → ∃ s, (ends node p').head? = some s := by
    intro p' hp'
    obtain ⟨q', hq', -⟩ := hq.follow (Point.passes_nil.mp hp').symm
    obtain ⟨s, hs, -⟩ := exists_mem_ends hq'
    exact ⟨_, List.head?_eq_some_head (List.ne_nil_of_mem hs)⟩
  induction text generalizing before x with
  | nil =>
    obtain ⟨rfl, -⟩ := List.append_eq_nil_iff.mp hp.rest.symm
    exact hhere hp
  | cons c cs ih =>
    rw [searchFrom]
    split
    · next s _ => exact ⟨s, rfl⟩
    · next hnone =>
      cases x with
      | nil =>
        obtain ⟨s, hs⟩ := hhere hp
        rw [hnone] at hs
        cases hs
      | cons d x =>
        obtain ⟨rfl, hrest⟩ := List.cons.inj hp.rest
        have hbefore : p.before = x.getLast?.or (some c) := by
          rw [hp.before, List.getLast?_cons]
          cases x.getLast? <;> rfl
        exact ih ⟨hrest, hbefore⟩

/-! ### Anchored expressions -/

section
variable {node : Node} {q : Point}

theorem searchFrom_of_anchored (h : node.Anchored) (c : Char) (cs : List Char) :
    searchFrom node (some c) cs = none := by
  have hnone : ∀ c cs, (ends node ⟨some c, cs, []⟩).head? = none := by
    intro c cs
    by_contra hsome
    obtain ⟨q, hq⟩ := Option.ne_none_iff_exists'.mp hsome
    cases h _ _ (reaches_of_mem_ends (List.mem_of_mem_head? hq))
  induction cs generalizing c with
  | nil => exact hnone c []
  | cons d ds ih => rw [searchFrom, hnone, ih]

theorem search_of_anchored (h : node.Anchored) (text : List Char) :
    search node text = (ends node (Point.atStart text)).head? := by
  unfold search
  cases text with
  | nil => rfl
  | cons c cs =>
    rw [searchFrom, searchFrom_of_anchored h, Point.atStart]
    cases (ends node ⟨none, c :: cs, []⟩).head? <;> rfl

theorem reaches_of_search (h : node.Anchored) {text : List Char} (hq : search node text = some q) :
    node.Reaches (Point.atStart text) q := by
  rw [search_of_anchored h] at hq
  exact reaches_of_mem_ends (List.mem_of_mem_head? hq)

/-- Where a match from the start exists, the search finds one. -/
theorem exists_search (h : node.Anchored) {text : List Char}
    (hq : node.Reaches (Point.atStart text) q) : ∃ s, search node text = some s := by
  obtain ⟨s, hs, -⟩ := exists_mem_ends hq
  rw [search_of_anchored h]
  exact Option.isSome_iff_exists.mp (by rw [List.isSome_head?]; simp [List.ne_nil_of_mem hs])

end

/-! ### Text behind a match -/

/-- The same place in a text that goes on with `tail`. -/
def Point.extend (tail : List Char) (p : Point) : Point := { p with rest := p.rest ++ tail }

section
variable {node : Node} {p q : Point} {tail : List Char}

theorem Point.left_extend (tail : List Char) (p : Point) :
    (p.extend tail).left = p.left + tail.length := List.length_append

theorem Point.capture_extend (index : Nat) (tail : List Char) (p q : Point) :
    Point.capture index (p.extend tail) (q.extend tail) = (Point.capture index p q).extend tail := by
  have htake : (p.rest ++ tail).take (p.left + tail.length - (q.left + tail.length)) =
      p.rest.take (p.left - q.left) := by
    rw [Nat.add_sub_add_right]
    exact List.take_append_of_le_length (Nat.sub_le _ _)
  simp only [Point.capture, Point.left_extend]
  simp only [Point.extend, htake]

theorem Node.Reaches.extend (hback : node.LooksBack) (h : node.Reaches p q) (tail : List Char) :
    node.Reaches (p.extend tail) (q.extend tail) := by
  induction node generalizing p q with
  | empty => exact congrArg (Point.extend tail) h
  | one k =>
    obtain ⟨c, hc, hrest, hbefore, hcaptured⟩ := h
    exact ⟨c, hc, by simp [Point.extend, hrest], hbefore, hcaptured⟩
  | look a =>
    obtain ⟨ha, rfl⟩ := h
    obtain rfl : a = .startText := hback
    exact ⟨ha, rfl⟩
  | group index body ih =>
    obtain ⟨s, hbody, rfl⟩ := h
    exact ⟨s.extend tail, ih hback hbody, (Point.capture_extend index tail p s).symm⟩
  | seq a b iha ihb =>
    obtain ⟨s, ha, hb⟩ := h
    exact ⟨s.extend tail, iha hback.1 ha, ihb hback.2 hb⟩
  | alt a b iha ihb => exact h.imp (iha hback.1) (ihb hback.2)
  | iterate body least most greedy ih =>
    obtain ⟨n, hleast, hmost, hn⟩ := h
    refine ⟨n, hleast, hmost, ?_⟩
    clear hleast hmost
    induction hn with
    | zero p => exact .zero _
    | succ first _ ih' => exact .succ (ih hback first) ih'

theorem Repeats.of_extend {step : Point → Point → Prop} {n : Nat}
    (hpasses : ∀ p q, step p q → ∃ x, p.Passes x q)
    (hstep : ∀ p q, step (p.extend tail) q → tail.length ≤ q.left → ∃ s, q = s.extend tail ∧ step p s)
    (h : Repeats step n (p.extend tail) q) (hle : tail.length ≤ q.left) :
    ∃ s, q = s.extend tail ∧ Repeats step n p s := by
  induction n generalizing p with
  | zero =>
    cases h with
    | zero => exact ⟨p, rfl, .zero p⟩
  | succ n ih =>
    cases h with
    | @succ _ _ m _ first others =>
      obtain ⟨x, hx⟩ := others.passes hpasses
      obtain ⟨m', rfl, hm⟩ := hstep p m first (Nat.le_trans hle hx.left_le)
      obtain ⟨s, rfl, hs⟩ := ih others
      exact ⟨s, rfl, .succ hm hs⟩

/-- A match that does not reach into the text behind is one without that text. -/
theorem Node.Reaches.of_extend (hback : node.LooksBack) (h : node.Reaches (p.extend tail) q)
    (hle : tail.length ≤ q.left) : ∃ s, q = s.extend tail ∧ node.Reaches p s := by
  induction node generalizing p q with
  | empty => exact ⟨p, h, rfl⟩
  | one k =>
    obtain ⟨c, hc, hrest, hbefore, hcaptured⟩ := h
    cases hp : p.rest with
    | nil =>
      have hlength := congrArg List.length hrest
      simp only [Point.extend, hp, List.nil_append, List.length_cons] at hlength
      simp only [Point.left] at hle
      omega
    | cons d ds =>
      simp only [Point.extend, hp, List.cons_append] at hrest
      obtain ⟨rfl, hds⟩ := List.cons.inj hrest
      refine ⟨{ q with rest := ds }, ?_, d, hc, hp, hbefore, hcaptured⟩
      simp only [Point.extend, hds]
  | look a =>
    obtain ⟨ha, rfl⟩ := h
    obtain rfl : a = .startText := hback
    exact ⟨p, rfl, ha, rfl⟩
  | group index body ih =>
    obtain ⟨s, hbody, rfl⟩ := h
    obtain ⟨s', rfl, hs⟩ := ih hback hbody hle
    exact ⟨Point.capture index p s', Point.capture_extend index tail p s', s', hs, rfl⟩
  | seq a b iha ihb =>
    obtain ⟨m, ha, hb⟩ := h
    obtain ⟨x, hx⟩ := hb.passes
    obtain ⟨m', rfl, hm⟩ := iha hback.1 ha (Nat.le_trans hle hx.left_le)
    obtain ⟨s, rfl, hs⟩ := ihb hback.2 hb hle
    exact ⟨s, rfl, m', hm, hs⟩
  | alt a b iha ihb =>
    rcases h with h | h
    · obtain ⟨s, rfl, hs⟩ := iha hback.1 h hle
      exact ⟨s, rfl, .inl hs⟩
    · obtain ⟨s, rfl, hs⟩ := ihb hback.2 h hle
      exact ⟨s, rfl, .inr hs⟩
  | iterate body least most greedy ih =>
    obtain ⟨n, hleast, hmost, hn⟩ := h
    obtain ⟨s, rfl, hs⟩ := hn.of_extend (fun _ _ => Node.Reaches.passes) (fun _ _ => ih hback) hle
    exact ⟨s, rfl, n, hleast, hmost, hs⟩

/-- A text is matched in full just when the expression gets to its end wherever the text goes on. -/
theorem Node.matchesAll_iff (hback : node.LooksBack) (front rest : List Char) :
    node.MatchesAll front ↔
      ∃ q, node.Reaches (Point.atStart (front ++ rest)) q ∧ q.rest = rest := by
  have hstart : (Point.atStart front).extend rest = Point.atStart (front ++ rest) := rfl
  constructor
  · rintro ⟨q, hq, hrest⟩
    exact ⟨q.extend rest, hstart ▸ hq.extend hback rest, by simp [Point.extend, hrest]⟩
  · rintro ⟨q, hq, hrest⟩
    rw [← hstart] at hq
    obtain ⟨s, rfl, hs⟩ := hq.of_extend hback (Nat.le_of_eq (by rw [Point.left, hrest]))
    exact ⟨s, hs, by simpa [Point.extend] using hrest⟩

end
end RouteQuery.Pattern
