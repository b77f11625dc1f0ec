import RouteQuery.Proofs.DocumentReading
import RouteQuery.Proofs.Materializing

/-! The routes that a document asks for: a block of them for each path, in the order in which the
paths are first selected. -/
namespace RouteQuery
open Execution

theorem forall₂_flatMap_left {α β γ : Type} {R : β → γ → Prop} {f : α → List β} {xs : List α}
    {zs : List γ} (h : List.Forall₂ R (xs.flatMap f) zs) :
    ∃ blocks : List (List γ), zs = blocks.flatten ∧
      List.Forall₂ (fun x block => List.Forall₂ R (f x) block) xs blocks := by
  induction xs generalizing zs with
  | nil =>
    cases h
    exact ⟨[], rfl, .nil⟩
  | cons x xs ih =>
    rw [List.flatMap_cons] at h
    have hfirst := (List.forall₂_take_append _ _ _ h.flip).flip
    obtain ⟨blocks, hrest, hblocks⟩ := ih (List.forall₂_drop_append _ _ _ h.flip).flip
    refine ⟨zs.take (f x).length :: blocks, ?_, .cons hfirst hblocks⟩
    rw [List.flatten_cons, ← hrest, List.take_append_drop]

theorem forall_mem_of_forall₂ {α β : Type} {R : α → β → Prop} {p : β → Prop} {xs : List α}
    {ys : List β} (h : List.Forall₂ R xs ys) (hp : ∀ x ∈ xs, ∀ y, R x y → p y) : ∀ y ∈ ys, p y := by
  induction h with
  | nil => simp
  | cons hfirst _ ih =>
    rw [List.forall_mem_cons] at hp
    exact List.forall_mem_cons.mpr ⟨hp.1 _ hfirst, ih hp.2⟩

namespace Execution

variable {xs ys : List Selection}

theorem childrenOf_append (name : String) (xs ys : List Selection) :
    childrenOf name (xs ++ ys) = childrenOf name xs ++ childrenOf name ys := by
  simp [childrenOf_eq_flatMap]

theorem childrenOf_of_new {name : String} (h : name ∉ fieldNames xs) : childrenOf name xs = [] := by
  rw [childrenOf_eq_flatMap, List.flatMap_eq_nil_iff]
  intro s hs
  obtain ⟨hs, hname⟩ := List.mem_filter.mp hs
  exact absurd (Vocabulary.mem_fieldNames.mpr ⟨s, hs, by simpa using hname⟩) h

theorem fieldNames_append (h : ∀ n ∈ fieldNames xs, n ∉ fieldNames ys) :
    fieldNames (xs ++ ys) = fieldNames xs ++ fieldNames ys := by
  have hnew : (ys.map Selection.name).removeAll (xs.map Selection.name) = ys.map Selection.name := by
    refine List.filter_eq_self.mpr fun n hn => ?_
    have hmem : n ∉ xs.map Selection.name := fun hold =>
      h n (by rwa [fieldNames_eq_eraseDups, List.mem_eraseDups])
        (by rwa [fieldNames_eq_eraseDups, List.mem_eraseDups])
    simpa using hmem
  rw [fieldNames_eq_eraseDups, fieldNames_eq_eraseDups, fieldNames_eq_eraseDups, List.map_append,
    List.eraseDups_append, hnew]

end Execution

namespace Selection

variable {paths tasks : List String} {selections : List Selection}

theorem map_fst_pathAnswers (selections : List Selection) :
    (pathAnswers selections).map (·.1) = fieldNames selections := by
  simp [pathAnswers, Function.comp_def]

theorem isPath_congr {paths' : List String} {s : Selection} (h : s.name ∈ paths ↔ s.name ∈ paths') :
    IsPath paths tasks s ↔ IsPath paths' tasks s := by
  constructor
  · rintro ⟨n, hn, children, rfl, hchildren⟩
    exact ⟨n, h.mp hn, children, rfl, hchildren⟩
  · rintro ⟨n, hn, children, rfl, hchildren⟩
    exact ⟨n, h.mpr hn, children, rfl, hchildren⟩

/-- Documents without a path in common are answered one after the other. -/
theorem pathAnswers_append {xs ys : List Selection}
    (h : ∀ n ∈ fieldNames xs, n ∉ fieldNames ys) :
    pathAnswers (xs ++ ys) = pathAnswers xs ++ pathAnswers ys := by
  rw [pathAnswers, fieldNames_append h, List.map_append]
  congr 1
  · refine List.map_congr_left fun n hn => ?_
    rw [childrenOf_append, childrenOf_of_new (h n hn), List.append_nil]
  · refine List.map_congr_left fun n hn => ?_
    rw [childrenOf_append, childrenOf_of_new fun hold => h n hold hn, List.nil_append]

/-- The routes of one path: a verb, with all tasks below it, for each verb that is selected. -/
def routesFor (selections : List Selection) (identifier : String) : List PathRoute :=
  (verbRoutes (verbAnswers (childrenOf identifier selections))).map fun (verb, tasks) =>
    ⟨identifier, verb, tasks⟩

theorem routesOf_pathAnswers (selections : List Selection) :
    routesOf (pathAnswers selections) = (fieldNames selections).flatMap (routesFor selections) := by
  rw [routesOf, pathAnswers, List.flatMap_map]
  rfl

theorem identifier_of_mem_routesFor {identifier : String} {route : PathRoute}
    (h : route ∈ routesFor selections identifier) : route.identifier = identifier := by
  obtain ⟨v, -, rfl⟩ := List.mem_map.mp h
  rfl

theorem filled_children {s : Selection} (h : Filled selections) (hs : s ∈ selections) :
    ∀ n children, s = branch n children → children ≠ [] := by
  fun_induction Filled selections with
  | case1 => cases hs
  | case2 n rest ih =>
    rcases List.mem_cons.mp hs with rfl | hs
    · intro n children hbranch
      cases hbranch
    · exact ih h hs
  | case3 n children rest _ ih =>
    rcases List.mem_cons.mp hs with rfl | hs
    · intro n children hbranch
      cases hbranch
      exact h.1
    · exact ih h.2.2 hs

theorem mem_tasks_of_mem_routesFor (h : ∀ s ∈ selections, IsPath paths tasks s) {identifier : String}
    {route : PathRoute} (hroute : route ∈ routesFor selections identifier) :
    ∀ t ∈ route.tasks, t ∈ tasks := by
  obtain ⟨v, hv, rfl⟩ := List.mem_map.mp hroute
  obtain ⟨entry, hentry, hverb⟩ := List.mem_filterMap.mp hv
  obtain ⟨name, hname, rfl⟩ := List.mem_map.mp hentry
  obtain ⟨verb, hverb, rfl⟩ := Option.map_eq_some_iff.mp hverb
  intro t ht
  have ht : t ∈ fieldNames (childrenOf name (childrenOf identifier selections)) := by
    simpa [taskAnswers, Function.comp_def] using ht
  obtain ⟨leaf, hleaf, rfl⟩ := Vocabulary.mem_fieldNames.mp ht
  obtain ⟨v, hv, -, hleaf⟩ := mem_childrenOf.mp hleaf
  obtain ⟨p, hp, -, hv⟩ := mem_childrenOf.mp hv
  obtain ⟨_, -, children, rfl, hverbs⟩ := h p hp
  obtain ⟨_, leaves, rfl, htasks⟩ := hverbs v hv
  obtain ⟨n, hn, rfl⟩ := htasks leaf hleaf
  exact hn

/-- Every path of a document has a route, since the document has no empty set. -/
theorem routesFor_ne_nil (hfilled : Filled selections)
    (h : ∀ s ∈ selections, IsPath paths tasks s) {identifier : String}
    (hid : identifier ∈ fieldNames selections) : routesFor selections identifier ≠ [] := by
  obtain ⟨s, hs, rfl⟩ := Vocabulary.mem_fieldNames.mp hid
  obtain ⟨n, hn, children, rfl, hverbs⟩ := h s hs
  obtain ⟨v, hv⟩ := List.exists_mem_of_ne_nil _ (filled_children hfilled hs n children rfl)
  obtain ⟨verb, leaves, rfl, -⟩ := hverbs v hv
  have hchild : branch verb.name leaves ∈ childrenOf n selections :=
    mem_childrenOf.mpr ⟨_, hs, rfl, hv⟩
  have hname : verb.name ∈ fieldNames (childrenOf n selections) :=
    Vocabulary.mem_fieldNames.mpr ⟨_, hchild, rfl⟩
  have hroute : (verb, (taskAnswers (childrenOf verb.name (childrenOf n selections))).map (·.1)) ∈
      verbRoutes (verbAnswers (childrenOf n selections)) :=
    List.mem_filterMap.mpr ⟨_, List.mem_map_of_mem hname, by simp [verbRoute?]⟩
  exact List.ne_nil_of_mem (List.mem_map_of_mem hroute)

theorem mem_tasks_of_mem_routesOf (h : ∀ s ∈ selections, IsPath paths tasks s) {route : PathRoute}
    (hroute : route ∈ routesOf (pathAnswers selections)) : ∀ t ∈ route.tasks, t ∈ tasks := by
  rw [routesOf_pathAnswers] at hroute
  obtain ⟨identifier, -, hroute⟩ := List.mem_flatMap.mp hroute
  exact mem_tasks_of_mem_routesFor h hroute

end Selection
end RouteQuery
