import RouteQuery.Pattern.Parse
import RouteQuery.Proofs.PieceMatches

/-! Matches that are found one after another in a text, and the ends of runs of a class of characters in the
order in which they are preferred. -/
namespace RouteQuery.Pattern

section
variable {α β : Type} [BEq β] {key : α → β} {xs kept : List α}

theorem foldl_keepFirst_of_new (hpair : xs.Pairwise fun x y => (key x == key y) = false)
    (hkept : ∀ x ∈ kept, ∀ y ∈ xs, (key x == key y) = false) :
    xs.foldl (keepFirst key) kept = xs.reverse ++ kept := by
  induction xs generalizing kept with
  | nil => rfl
  | cons y xs ih =>
    obtain ⟨hy, hpair⟩ := List.pairwise_cons.mp hpair
    have hnew : keepFirst key kept y = y :: kept := by
      rw [keepFirst, if_neg]
      simp only [List.any_eq_true, not_exists, not_and]
      intro x hx heq
      exact Bool.false_ne_true ((hkept x hx y List.mem_cons_self).symm.trans heq)
    have hrest : ∀ x ∈ y :: kept, ∀ z ∈ xs, (key x == key z) = false :=
      List.forall_mem_cons.mpr ⟨hy, fun x hx z hz => hkept x hx z (List.mem_cons_of_mem _ hz)⟩
    rw [List.foldl_cons, hnew, ih hpair hrest, List.reverse_cons, List.append_assoc]
    rfl

theorem getLast?_foldl_keepFirst (hne : kept ≠ []) :
    (xs.foldl (keepFirst key) kept).getLast? = kept.getLast? := by
  induction xs generalizing kept with
  | nil => rfl
  | cons x xs ih =>
    rw [List.foldl_cons]
    by_cases hany : kept.any (key · == key x) = true
    · rw [keepFirst, if_pos hany, ih hne]
    · rw [keepFirst, if_neg hany, ih (List.cons_ne_nil _ _), List.getLast?_cons_of_ne_nil hne]

theorem head?_firstBy (key : α → β) (xs : List α) : (firstBy key xs).head? = xs.head? := by
  have hfirst : (xs.foldl (keepFirst key) []).getLast? = xs.head? := by
    cases xs with
    | nil => rfl
    | cons x xs => exact getLast?_foldl_keepFirst (List.cons_ne_nil x [])
  rw [← hfirst, ← List.head?_reverse]
  rfl

end

theorem firstArrivals_of_pairwise {points : List Point} (h : points.Pairwise fun p q => p.left < q.left) :
    firstArrivals points = points := by
  have hpair : points.Pairwise fun p q => (p.left == q.left) = false :=
    h.imp fun hlt => beq_eq_false_iff_ne.mpr hlt.ne
  exact (congrArg List.reverse (foldl_keepFirst_of_new hpair (fun _ h => absurd h List.not_mem_nil))).trans
    (by simp)

/-- Of the ends of the first part, the first is taken from which the second can go on. -/
theorem head?_ends_seq (a b : Node) (p : Point) :
    (ends (.seq a b) p).head? = (ends a p).findSome? fun q => (ends b q).head? := by
  rw [ends, firstArrivals, head?_firstBy, List.head?_flatMap]

theorem head?_ends_seq_of_none {a : Node} {p : Point} (h : (ends a p).head? = none) (b : Node) :
    (ends (.seq a b) p).head? = none := by
  rw [head?_ends_seq, List.head?_eq_none_iff.mp h, List.findSome?_nil]

theorem head?_ends_seq_of_some {a b : Node} {p q s : Point} (ha : (ends a p).head? = some q)
    (hb : (ends b q).head? = some s) : (ends (.seq a b) p).head? = some s := by
  obtain ⟨points, hpoints⟩ := List.head?_eq_some_iff.mp ha
  rw [head?_ends_seq, hpoints, List.findSome?_cons, hb]

/-! ### Runs -/

/-- The ends of runs of a class, the longest first. -/
def runEnds (k : CharClass) (captured : List (Nat × List Char)) : Option Char → List Char → List Point
  | before, [] => [⟨before, [], captured⟩]
  | before, c :: cs =>
    (if k.contains c then runEnds k captured (some c) cs else []) ++ [⟨before, c :: cs, captured⟩]

variable {k : CharClass} {captured : List (Nat × List Char)} {before : Option Char} {cs : List Char}

theorem left_le_of_mem_runEnds {q : Point} (h : q ∈ runEnds k captured before cs) : q.left ≤ cs.length := by
  induction cs generalizing before with
  | nil =>
    obtain rfl := List.mem_singleton.mp h
    exact le_rfl
  | cons c cs ih =>
    rcases List.mem_append.mp h with h | h
    · split at h
      · exact (ih h).trans (Nat.le_succ _)
      · cases h
    · obtain rfl := List.mem_singleton.mp h
      exact le_rfl

theorem pairwise_runEnds : (runEnds k captured before cs).Pairwise fun p q => p.left < q.left := by
  induction cs generalizing before with
  | nil => exact List.pairwise_singleton _ _
  | cons c cs ih =>
    rw [runEnds]
    split
    · refine List.pairwise_append.mpr ⟨ih, List.pairwise_singleton _ _, fun p hp q hq => ?_⟩
      obtain rfl := List.mem_singleton.mp hq
      exact Nat.lt_succ_of_le (left_le_of_mem_runEnds hp)
    · exact List.pairwise_singleton _ _

theorem ends_one_cons (c : Char) :
    ends (.one k) ⟨before, c :: cs, captured⟩ = if k.contains c then [⟨some c, cs, captured⟩] else [] := rfl

theorem explore_one {n : Nat} {seen : List Nat} (hn : cs.length ≤ n) (hseen : ∀ l ∈ seen, cs.length < l) :
    (explore (ends (.one k)) true n seen ⟨before, cs, captured⟩).1 = runEnds k captured before cs := by
  induction cs generalizing n seen before with
  | nil =>
    cases n with
    | zero => rfl
    | succ n =>
      have hnew : Point.left ⟨before, [], captured⟩ ∉ seen := fun h => absurd (hseen _ h) (lt_irrefl _)
      rw [explore_succ, if_neg hnew]
      rfl
  | cons c cs ih =>
    obtain ⟨n, rfl⟩ : ∃ m, n = m + 1 := Nat.exists_eq_succ_of_ne_zero (by rw [List.length_cons] at hn; omega)
    have hnew : Point.left ⟨before, c :: cs, captured⟩ ∉ seen := fun h => absurd (hseen _ h) (lt_irrefl _)
    rw [explore_succ, if_neg hnew, ends_one_cons, runEnds]
    split
    · have hless : Point.left ⟨some c, cs, captured⟩ < Point.left ⟨before, c :: cs, captured⟩ :=
        Nat.lt_succ_self _
      have hseen' : ∀ l ∈ Point.left ⟨before, c :: cs, captured⟩ :: seen, cs.length < l :=
        List.forall_mem_cons.mpr ⟨hless, fun l hl => (Nat.lt_succ_self _).trans (hseen l hl)⟩
      simp only [List.foldl_cons, List.foldl_nil, visit, if_pos hless, List.nil_append, if_true,
        ih (Nat.le_of_succ_le_succ hn) hseen']
    · rfl

theorem oneOrMore_one : oneOrMore (ends (.one k)) true ⟨before, cs, captured⟩ =
    (runEnds k captured before cs).dropLast := by
  cases cs with
  | nil => rfl
  | cons c cs =>
    rw [oneOrMore_eq, ends_one_cons, runEnds, List.dropLast_concat]
    split
    · have hless : Point.left ⟨some c, cs, captured⟩ < Point.left ⟨before, c :: cs, captured⟩ :=
        Nat.lt_succ_self _
      simp only [List.foldl_cons, List.foldl_nil, visit, if_pos hless, List.nil_append]
      exact explore_one le_rfl (fun _ h => absurd h List.not_mem_nil)
    · rfl

theorem ends_atLeastOne : ends (.iterate (.one k) 1 none true) ⟨before, cs, captured⟩ =
    (runEnds k captured before cs).dropLast := by
  have hends : ends (.iterate (.one k) 1 none true) ⟨before, cs, captured⟩ =
      firstArrivals ([⟨before, cs, captured⟩].flatMap (oneOrMore (ends (.one k)) true)) := rfl
  rw [hends, List.flatMap_singleton, oneOrMore_one]
  exact firstArrivals_of_pairwise (pairwise_runEnds.sublist (List.dropLast_sublist _))

theorem ends_any : ends (.iterate (.one k) 0 none true) ⟨before, cs, captured⟩ = runEnds k captured before cs := by
  have hends : ends (.iterate (.one k) 0 none true) ⟨before, cs, captured⟩ =
      firstArrivals (oneOrMore (ends (.one k)) true ⟨before, cs, captured⟩ ++ [⟨before, cs, captured⟩]) := rfl
  have hlast : (runEnds k captured before cs).dropLast ++ [⟨before, cs, captured⟩] =
      runEnds k captured before cs := by
    cases cs with
    | nil => rfl
    | cons c cs => rw [runEnds, List.dropLast_concat]
  rw [hends, oneOrMore_one, hlast]
  exact firstArrivals_of_pairwise pairwise_runEnds

/-- The longest run of a class ends where the class no longer goes on. -/
theorem head?_runEnds : (runEnds k captured before cs).head? =
    some ⟨(cs.takeWhile k.contains).getLast?.or before, cs.dropWhile k.contains, captured⟩ := by
  induction cs generalizing before with
  | nil => rfl
  | cons c cs ih =>
    cases hc : k.contains c with
    | true =>
      rw [runEnds, hc, if_pos rfl, List.head?_append, ih, List.takeWhile_cons_of_pos hc, List.dropWhile_cons_of_pos hc,
        List.getLast?_cons]
      cases (cs.takeWhile k.contains).getLast? <;> rfl
    | false =>
      rw [runEnds, hc, if_neg Bool.false_ne_true, List.takeWhile_cons_of_neg (by simp [hc]),
        List.dropWhile_cons_of_neg (by simp [hc])]
      rfl

theorem head?_ends_any : (ends (.iterate (.one k) 0 none true) ⟨before, cs, captured⟩).head? =
    some ⟨(cs.takeWhile k.contains).getLast?.or before, cs.dropWhile k.contains, captured⟩ := by
  rw [ends_any, head?_runEnds]

theorem dropLast_runEnds_cons {c : Char} (hc : k.contains c = true) :
    (runEnds k captured before (c :: cs)).dropLast = runEnds k captured (some c) cs := by
  rw [runEnds, List.dropLast_concat, if_pos hc]

theorem dropLast_runEnds_of_stopsAt (h : Text.StopsAt k.contains cs) :
    (runEnds k captured before cs).dropLast = [] := by
  cases cs with
  | nil => rfl
  | cons c cs => rw [runEnds, List.dropLast_concat, Text.stopsAt_cons.mp h, if_neg Bool.false_ne_true]

theorem findSome?_runEnds_cons {α : Type} (f : Point → Option α) (c : Char) :
    (runEnds k captured before (c :: cs)).findSome? f =
      (if k.contains c then (runEnds k captured (some c) cs).findSome? f else none).or
        (f ⟨before, c :: cs, captured⟩) := by
  rw [runEnds, List.findSome?_append, List.findSome?_singleton]
  split <;> rfl

/-- What does not go on from inside a run goes on, if at all, from its end. -/
theorem findSome?_runEnds {α : Type} {f : Point → Option α}
    (hf : ∀ before c cs, k.contains c = true → f ⟨before, c :: cs, captured⟩ = none) :
    (runEnds k captured before cs).findSome? f =
      f ⟨(cs.takeWhile k.contains).getLast?.or before, cs.dropWhile k.contains, captured⟩ := by
  induction cs generalizing before with
  | nil => exact List.findSome?_singleton ..
  | cons c cs ih =>
    rw [findSome?_runEnds_cons]
    cases hc : k.contains c with
    | true =>
      rw [if_pos rfl, ih, hf _ _ _ hc, Option.or_none, List.takeWhile_cons_of_pos hc, List.dropWhile_cons_of_pos hc,
        List.getLast?_cons]
      cases (cs.takeWhile k.contains).getLast? <;> rfl
    | false =>
      rw [if_neg Bool.false_ne_true, Option.none_or, List.takeWhile_cons_of_neg (by simp [hc]),
        List.dropWhile_cons_of_neg (by simp [hc])]
      rfl

/-! ### One match after another -/

/-- A text cut up by an expression that matches no empty text: `found` are the matches from left to right,
none of which overlap, and `kept` is what lies between them. -/
inductive Node.Cuts (node : Node) : Option Char → List Char → List (List Char) → List Char → Prop
  | nil {before : Option Char} (h : (ends node ⟨before, [], []⟩).head? = none) : Cuts node before [] [] []
  | skip {before : Option Char} {c : Char} {cs : List Char} {found : List (List Char)} {kept : List Char}
    (h : (ends node ⟨before, c :: cs, []⟩).head? = none) (hrest : Cuts node (some c) cs found kept) :
    Cuts node before (c :: cs) found (c :: kept)
  | take {before : Option Char} {x : List Char} {q : Point} {found : List (List Char)} {kept : List Char}
    (h : (ends node ⟨before, x ++ q.rest, []⟩).head? = some q) (hx : x ≠ [])
    (hrest : Cuts node q.before q.rest found kept) : Cuts node before (x ++ q.rest) (x :: found) kept

variable {node : Node} {found : List (List Char)} {kept : List Char}

theorem searchFrom_cons_of_none {c : Char} (h : (ends node ⟨before, c :: cs, []⟩).head? = none) :
    searchFrom node before (c :: cs) = searchFrom node (some c) cs := by
  rw [searchFrom, h]

theorem searchFrom_of_some {q : Point} (h : (ends node ⟨before, cs, []⟩).head? = some q) :
    searchFrom node before cs = some q := by
  cases cs with
  | nil => exact h
  | cons c cs => rw [searchFrom, h]

/-- Where nothing is found the search fails, and the text is kept as it is. -/
theorem Node.Cuts.searchFrom_eq_none (h : node.Cuts before cs [] kept) :
    searchFrom node before cs = none ∧ kept = cs := by
  generalize hfound : ([] : List (List Char)) = found at h
  induction h with
  | nil h => exact ⟨h, rfl⟩
  | skip h _ ih =>
    obtain ⟨hsearch, rfl⟩ := ih hfound
    exact ⟨(searchFrom_cons_of_none h).trans hsearch, rfl⟩
  | take => cases hfound

/-- The first match is the one that a search finds, and the others are found behind it. -/
theorem Node.Cuts.exists_searchFrom {x : List Char} (h : node.Cuts before cs (x :: found) kept) :
    ∃ gap q kept', cs = gap ++ x ++ q.rest ∧ kept = gap ++ kept' ∧
      searchFrom node before cs = some q ∧ node.Cuts q.before q.rest found kept' := by
  generalize hfound : x :: found = all at h
  induction h with
  | nil => cases hfound
  | skip h _ ih =>
    obtain ⟨gap, q, kept', rfl, rfl, hsearch, hrest⟩ := ih hfound
    exact ⟨_ :: gap, q, kept', rfl, rfl, (searchFrom_cons_of_none h).trans hsearch, hrest⟩
  | @take _ y q _ kept' h _ hrest =>
    obtain ⟨rfl, rfl⟩ := List.cons.inj hfound
    exact ⟨[], q, kept', rfl, rfl, searchFrom_of_some h, hrest⟩

theorem Node.Cuts.unique {found' : List (List Char)} {kept' : List Char} (h : node.Cuts before cs found kept)
    (h' : node.Cuts before cs found' kept') : found = found' ∧ kept = kept' := by
  induction h generalizing found' kept' with
  | nil h =>
    generalize hcs : ([] : List Char) = cs at h'
    cases h' with
    | nil => exact ⟨rfl, rfl⟩
    | skip => cases hcs
    | take _ hx => exact absurd (List.append_eq_nil_iff.mp hcs.symm).1 hx
  | @skip before c cs _ _ h _ ih =>
    generalize hcs : c :: cs = text at h'
    cases h' with
    | nil => cases hcs
    | skip _ hrest =>
      obtain ⟨rfl, rfl⟩ := List.cons.inj hcs
      obtain ⟨rfl, rfl⟩ := ih hrest
      exact ⟨rfl, rfl⟩
    | take htake =>
      rw [← hcs, h] at htake
      cases htake
  | @take before x q _ _ h hx _ ih =>
    generalize hcs : x ++ q.rest = text at h'
    cases h' with
    | nil => exact absurd (List.append_eq_nil_iff.mp hcs).1 hx
    | skip hskip =>
      rw [← hcs, h] at hskip
      cases hskip
    | take htake _ hrest =>
      rw [← hcs, h] at htake
      obtain rfl := Option.some.inj htake
      obtain rfl := List.append_cancel_right hcs
      obtain ⟨rfl, rfl⟩ := ih hrest
      exact ⟨rfl, rfl⟩

/-! ### Expressions as they are written -/

/-- All matches of a written expression in a text, and what lies between them. -/
def FindsAll (source : String) (text : List Char) (found : List (List Char)) (kept : List Char) : Prop :=
  ∃ p, parse? source.toList = some p ∧ p.node.Cuts none text found kept

/-- What group 1 takes in the first match of a written expression. -/
def captureIn (source : String) (text : List Char) : Option (List Char) :=
  (parse? source.toList).bind fun p => (search p.node text).bind fun q => q.captured.lookup 1

theorem FindsAll.unique {source : String} {text kept kept' : List Char} {found found' : List (List Char)}
    (h : FindsAll source text found kept) (h' : FindsAll source text found' kept') :
    found = found' ∧ kept = kept' := by
  obtain ⟨p, hp, hcuts⟩ := h
  obtain ⟨p', hp', hcuts'⟩ := h'
  obtain rfl := Option.some.inj (hp.symm.trans hp')
  exact hcuts.unique hcuts'

theorem captureIn_eq {source : String} {p : Parsed} (hp : parse? source.toList = some p) (text : List Char) :
    captureIn source text = (search p.node text).bind fun q => q.captured.lookup 1 := by
  rw [captureIn, hp, Option.bind_some]

end RouteQuery.Pattern
