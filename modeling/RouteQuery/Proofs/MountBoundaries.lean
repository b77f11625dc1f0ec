import RouteQuery.Proofs.PieceMatches

/-! Where literal mounts end. The boundary is looked for only behind the end that the expression
prefers: a mount never ends inside a segment, but one that could end on a boundary as well as inside a
segment may be refused. -/
namespace RouteQuery
open Pattern PathTemplate

/-- A path is cut between segments. -/
def OnBoundary (front rest : List Char) : Prop :=
  rest = [] ∨ front.getLast? = some '/' ∨ rest.head? = some '/'

instance (front rest : List Char) : Decidable (OnBoundary front rest) :=
  inferInstanceAs (Decidable (_ ∨ _ ∨ _))

/-- The expression matches the leading part of a path in full. -/
def PathMatcher.Fits (m : PathMatcher) (path front rest : List Char) : Prop :=
  path = front ++ rest ∧ m.node.MatchesAll front

namespace PathMatcher

theorem onBoundary_iff {path front : List Char} {q : Point} (h : (Point.atStart path).Passes front q) :
    onBoundary q = true ↔ OnBoundary front q.rest := by
  have hbefore : q.before = front.getLast? := by rw [h.before, Point.atStart, Option.or_none]
  simp [onBoundary, OnBoundary, hbefore, or_assoc]

variable {mount : String} {m : PathMatcher} {path front rest : List Char}

/-- The end that is preferred is the end of a leading part that fits. -/
theorem fits_of_search {q : Point} (hopens : OpensPlainly mount)
    (hm : compile (.literal mount) .mount = .ok m) (hq : search m.node path = some q) :
    ∃ front, m.Fits path front q.rest ∧ (onBoundary q = true ↔ OnBoundary front q.rest) := by
  obtain ⟨hcompile, -, -⟩ := of_compile_eq_ok hm
  have hreaches := reaches_of_search (anchored_of_compile hopens hcompile) hq
  obtain ⟨front, hfront⟩ := hreaches.passes
  have hpath : path = front ++ q.rest := hfront.rest
  refine ⟨front, ⟨hpath, ?_⟩, onBoundary_iff hfront⟩
  exact (Node.matchesAll_iff (looksBack_of_compile hcompile) front q.rest).mpr ⟨q, hpath ▸ hreaches, rfl⟩

theorem exists_search_of_fits (hopens : OpensPlainly mount)
    (hm : compile (.literal mount) .mount = .ok m) (h : m.Fits path front rest) :
    ∃ q, search m.node path = some q := by
  obtain ⟨hcompile, -, -⟩ := of_compile_eq_ok hm
  obtain ⟨rfl, hfront⟩ := h
  obtain ⟨q, hq, -⟩ := (Node.matchesAll_iff (looksBack_of_compile hcompile) front rest).mp hfront
  exact exists_search (anchored_of_compile hopens hcompile) hq

theorem matches?_eq_none_iff (hm : compile (.literal mount) .mount = .ok m) :
    m.matches? path = none ↔ ∀ q, search m.node path = some q → onBoundary q = false := by
  obtain ⟨-, hsource, hmode⟩ := of_compile_eq_ok hm
  rw [matches?_mount hsource hmode, Option.map_eq_none_iff, Option.filter_eq_none_iff]
  simp

theorem boundary_of_matches? {found : PathMatch} (hopens : OpensPlainly mount)
    (hm : compile (.literal mount) .mount = .ok m) (h : m.matches? path = some found) :
    ∃ front, m.Fits path front found.rest ∧ OnBoundary front found.rest := by
  obtain ⟨-, hsource, hmode⟩ := of_compile_eq_ok hm
  rw [matches?_mount hsource hmode, Option.map_eq_some_iff] at h
  obtain ⟨q, hq, rfl⟩ := h
  obtain ⟨hsearch, hboundary⟩ := Option.filter_eq_some_iff.mp hq
  obtain ⟨front, hfits, hiff⟩ := fits_of_search hopens hm hsearch
  exact ⟨front, hfits, hiff.mp hboundary⟩

/-- A mount refuses a path when no leading part fits, or when the one that the expression prefers ends
inside a segment. -/
theorem refuses_iff (hopens : OpensPlainly mount) (hm : compile (.literal mount) .mount = .ok m) :
    m.matches? path = none ↔ (∀ front rest, ¬m.Fits path front rest) ∨
      ∃ q front, (ends m.node (Point.atStart path)).head? = some q ∧
        m.Fits path front q.rest ∧ ¬OnBoundary front q.rest := by
  have hpreferred := search_of_anchored (anchored_of_compile hopens (of_compile_eq_ok hm).1) path
  rw [matches?_eq_none_iff hm, ← hpreferred]
  constructor
  · intro hoff
    cases hsearch : search m.node path with
    | none =>
      refine .inl fun front rest hfits => ?_
      obtain ⟨q, hq⟩ := exists_search_of_fits hopens hm hfits
      rw [hsearch] at hq
      cases hq
    | some q =>
      obtain ⟨front, hfits, hiff⟩ := fits_of_search hopens hm hsearch
      have hinside : ¬OnBoundary front q.rest := by
        rw [← hiff, hoff q hsearch]
        exact Bool.false_ne_true
      exact .inr ⟨q, front, rfl, hfits, hinside⟩
  · intro h q hq
    obtain ⟨front, hfits, hiff⟩ := fits_of_search hopens hm hq
    rcases h with hnone | ⟨q', front', hq', hfits', hoff⟩
    · exact absurd hfits (hnone front q.rest)
    · obtain rfl := Option.some.inj (hq.symm.trans hq')
      obtain rfl : front = front' := List.append_cancel_right (hfits.1.symm.trans hfits'.1)
      rw [← Bool.not_eq_true, hiff]
      exact hoff

/-- What a mount accepts ends on a boundary. It refuses a path when no leading part fits or the one
that is preferred ends inside a segment, so it goes by the leading parts that fit and end on a boundary
unless others fit as well. -/
theorem mounts_end_where_preferred (hopens : OpensPlainly mount)
    (hm : compile (.literal mount) .mount = .ok m) (path : List Char) :
    (∀ found, m.matches? path = some found →
      ∃ front, m.Fits path front found.rest ∧ OnBoundary front found.rest) ∧
    (m.matches? path = none ↔ (∀ front rest, ¬m.Fits path front rest) ∨
      ∃ q front, (ends m.node (Point.atStart path)).head? = some q ∧
        m.Fits path front q.rest ∧ ¬OnBoundary front q.rest) ∧
    ((∀ front rest, m.Fits path front rest → OnBoundary front rest) ∨
      (∀ front rest, m.Fits path front rest → ¬OnBoundary front rest) →
      ((∃ found, m.matches? path = some found) ↔
        ∃ front rest, m.Fits path front rest ∧ OnBoundary front rest)) := by
  refine ⟨fun found h => boundary_of_matches? hopens hm h, refuses_iff hopens hm, fun halike => ?_⟩
  constructor
  · rintro ⟨found, hfound⟩
    obtain ⟨front, hfits, hboundary⟩ := boundary_of_matches? hopens hm hfound
    exact ⟨front, found.rest, hfits, hboundary⟩
  · rintro ⟨front, rest, hfits, hboundary⟩
    rw [← Option.ne_none_iff_exists']
    intro hrefused
    rcases (refuses_iff hopens hm).mp hrefused with hnone | ⟨q, front', -, hfits', hoff⟩
    · exact hnone front rest hfits
    · rcases halike with hon | hoff'
      · exact hoff (hon front' q.rest hfits')
      · exact hoff' front rest hfits hboundary

/-- The matcher for `/:id`. -/
def ids : PathMatcher :=
  ⟨.literal "/:id", .mount, Part.seqNode [anchor, plainPart '/', paramPart 1], ["id"]⟩

theorem compile_ids : compile (.literal "/:id") .mount = .ok ids := by
  have hname : ∀ position, pieces position (':' :: (['i', 'd'] ++ [])) = .ok [.param "id"] :=
    pieces_param_append (by decide) (List.all_eq_true.mp (by decide)) (Text.stopsAt_nil _)
      pieces_nil
  have hslash : ∀ c ∈ ['/'], c ∉ operators := List.forall_mem_singleton.mpr (by decide)
  have hps : pieces 0 (body "/:id".toList .mount) = .ok [.plain '/', .param "id"] :=
    pieces_plain_append hslash hname 0
  exact compile_of_pieces hps rfl rfl

theorem ids_end_where_preferred :
    OpensPlainly "/:id" ∧ compile (.literal "/:id") .mount = .ok ids ∧
    (∃ front, ids.Fits "/u/posts".toList front "/posts".toList ∧ OnBoundary front "/posts".toList) ∧
    ids.matches? "/users".toList = none := by
  have hopens : OpensPlainly "/:id" := by decide
  have hends := mounts_end_where_preferred hopens compile_ids
  have hfits : ids.Fits "/users".toList "/u".toList "sers".toList :=
    ⟨by decide, ⟨some 'u', [], [(1, ['u'])]⟩, reaches_of_mem_ends (by decide +kernel), rfl⟩
  refine ⟨hopens, compile_ids, (hends _).1 ⟨[("id", "u")], "/posts".toList⟩ (by decide +kernel), ?_⟩
  exact (hends _).2.1.mpr
    (.inr ⟨⟨some 'u', "sers".toList, [(1, ['u'])]⟩, "/u".toList, by decide +kernel, hfits, by decide⟩)

/-- A mount can refuse a path that it matches in full. -/
theorem refuses_whole_path : ¬∀ mount m, compile (.literal mount) .mount = .ok m → ∀ path,
    (∃ found, m.matches? path = some found) ↔
      ∃ front rest, m.Fits path front rest ∧ OnBoundary front rest := by
  intro h
  have hrefused : ids.matches? "/users".toList = none := by decide +kernel
  have hfits : ids.Fits "/users".toList "/users".toList [] :=
    ⟨by decide, ⟨some 's', [], [(1, "users".toList)]⟩, reaches_of_mem_ends (by decide +kernel), rfl⟩
  obtain ⟨found, hfound⟩ := (h _ _ compile_ids "/users".toList).mpr ⟨_, _, hfits, .inl rfl⟩
  rw [hrefused] at hfound
  cases hfound

end PathMatcher
end RouteQuery
