import RouteQuery.Proofs.BuiltinHooks
import RouteQuery.Proofs.Reachable
import RouteQuery.Proofs.RouteBlocks

/-! Two sites with the same things under the same names apply every query alike, whatever paths
earlier queries have left. -/
namespace RouteQuery

namespace Vocabulary
open Selection

theorem faults_congr {v v' : Vocabulary} {selections : List Selection}
    (hpaths : ∀ s ∈ selections, s.name ∈ v.paths ↔ s.name ∈ v'.paths)
    (htasks : ∀ name, name ∈ v.tasks ↔ name ∈ v'.tasks) :
    v.faults selections = v'.faults selections := by
  have htask : taskFaults v.tasks = taskFaults v'.tasks := by
    funext s
    cases s <;> simp only [taskFaults, htasks]
  have hverb : verbFaults v.tasks = verbFaults v'.tasks := by
    funext s
    cases s <;> simp only [verbFaults, htask]
  have hpath : ∀ s ∈ selections, pathFaults v.paths v.tasks s = pathFaults v'.paths v'.tasks s := by
    intro s hs
    have hname := hpaths s hs
    cases s with
    | leaf n => rfl
    | branch n children =>
      rw [Selection.name] at hname
      simp only [pathFaults, hname, hverb]
  exact total_congr hpath

end Vocabulary

namespace Registry

/-- Registries in which the same names lead to the same things, paths aside, and which have the
hooks of the library and no others. -/
structure Agrees (r r' : Registry) : Prop where
  tasks : ∀ name, r.task? name = r'.task? name
  options : ∀ name, r.option? name = r'.option? name
  params : r.params = r'.params
  builtin : r.hooks = Hook.builtin
  builtin' : r'.hooks = Hook.builtin

namespace Agrees

variable {r r' : Registry}

theorem withPaths (h : r.Agrees r') (ids ids' : List String) :
    (r.withPaths ids).Agrees (r'.withPaths ids') :=
  ⟨h.tasks, h.options, h.params, h.builtin, h.builtin'⟩

theorem mem_taskNames (h : r.Agrees r') (name : String) :
    name ∈ r.taskNames ↔ name ∈ r'.taskNames := by
  rw [← exists_task?_iff, ← exists_task?_iff, h.tasks]

theorem scope (h : r.Agrees r') (w : Workspace) : (r.scope w).Agrees (r'.scope w) :=
  ⟨rfl, h.tasks, h.options⟩

theorem hook?_eq (h : r.Agrees r') : r.hook? = r'.hook? := by
  funext name
  rw [hook?, hook?, h.builtin, h.builtin']

theorem plain_of_hook? (h : r.Agrees r') {name : String} {hook : Hook}
    (hname : r.hook? name = some hook) : hook.Plain := by
  rw [hook?, h.builtin] at hname
  obtain ⟨before, after, hsplit, -⟩ := List.lookup_eq_some_iff.mp hname
  have hmem : (name, hook) ∈ Hook.builtin := by
    rw [hsplit]
    simp
  exact Hook.plain_of_mem_builtin hmem

end Agrees

section
variable {r r' : Registry} (h : r.Agrees r') (w : Workspace)
include h

theorem applyDescriptors_congr (descriptors : List Descriptor) (app : App)
    (params : List (String × Descriptor)) :
    r.applyDescriptors w descriptors app params = r'.applyDescriptors w descriptors app params := by
  induction descriptors generalizing app params with
  | nil => rfl
  | cons d rest ih =>
    rw [applyDescriptors, applyDescriptors]
    split
    · exact ih _ _
    · rw [← h.hook?_eq]
      split
      · rfl
      · next hook hhook =>
        rw [(h.plain_of_hook? hhook).onApp_eq (h.scope w)]
        simp only [ih]

theorem bindParams_congr {hook : Hook} (hhook : hook.Plain) (id : String)
    (params : List (String × Descriptor)) (router : PathRouter) :
    r.bindParams w hook id params router = r'.bindParams w hook id params router := by
  induction params generalizing router with
  | nil => rfl
  | cons param rest ih =>
    obtain ⟨key, d⟩ := param
    rw [bindParams, bindParams, hhook.onRouter_eq (h.scope w)]
    simp only [ih]

theorem addRoutes_congr (verbs : List (String × Json)) (router : PathRouter) :
    r.addRoutes w verbs router = r'.addRoutes w verbs router := by
  induction verbs generalizing router with
  | nil => rfl
  | cons v rest ih =>
    obtain ⟨name, tasks⟩ := v
    unfold addRoutes
    split
    · simp only [(h.scope w).chain_eq, ih]
    · exact ih router

theorem mountPaths_congr {hook : Hook} (hhook : hook.Plain) (params : List (String × Descriptor))
    {data : List (String × Json)} (hpaths : ∀ entry ∈ data, r.path? entry.1 = r'.path? entry.1)
    (app : App) : r.mountPaths w hook params data app = r'.mountPaths w hook params data app := by
  induction data generalizing app with
  | nil => rfl
  | cons entry rest ih =>
    obtain ⟨id, verbs⟩ := entry
    simp only [List.mem_cons, forall_eq_or_imp] at hpaths
    rw [mountPaths, mountPaths, hpaths.1]
    simp only [bindParams_congr h w hhook, addRoutes_congr h w, ih hpaths.2]

theorem materialize_congr {data : List (String × Json)} (descriptors : List Descriptor)
    (hpaths : ∀ entry ∈ data, r.path? entry.1 = r'.path? entry.1) :
    r.materialize w data descriptors = r'.materialize w data descriptors := by
  rw [materialize, materialize, applyDescriptors_congr h, h.params, ← h.hook?_eq]
  split
  · rfl
  · next hook hhook => simp only [mountPaths_congr h w (h.plain_of_hook? hhook) _ hpaths]

end

section
variable {r : Registry} (h : ∀ name hook, r.hook? name = some hook → hook.Plain) (w : Workspace)
include h

theorem contextFree_applyDescriptors (descriptors : List Descriptor) (app : App)
    (params : List (String × Descriptor)) :
    (r.applyDescriptors w descriptors app params).ContextFree := by
  induction descriptors generalizing app params with
  | nil => exact Effect.contextFree_pure _
  | cons d rest ih =>
    rw [applyDescriptors]
    split
    · exact ih _ _
    · split
      · exact Effect.contextFree_throw _
      · next hook hhook =>
        exact Effect.contextFree_bind ((h _ hook hhook).contextFree_onApp _ _ _) fun app => ih app _

omit h in
theorem contextFree_bindParams {hook : Hook} (hhook : hook.Plain) (id : String)
    (params : List (String × Descriptor)) (router : PathRouter) :
    (r.bindParams w hook id params router).ContextFree := by
  induction params generalizing router with
  | nil => exact Effect.contextFree_pure _
  | cons param rest ih =>
    rw [bindParams]
    split
    · exact Effect.contextFree_bind (hhook.contextFree_onRouter _ _ _) ih
    · exact ih router

omit h in
theorem contextFree_mountPaths {hook : Hook} (hhook : hook.Plain)
    (params : List (String × Descriptor)) (data : List (String × Json)) (app : App) :
    (r.mountPaths w hook params data app).ContextFree := by
  induction data generalizing app with
  | nil => exact Effect.contextFree_pure _
  | cons entry rest ih =>
    rw [mountPaths]
    split
    · exact Effect.contextFree_throw _
    · refine Effect.contextFree_bind (contextFree_bindParams w hhook _ _ _) fun router => ?_
      split
      · exact Effect.contextFree_bind (Effect.contextFree_of _) fun app =>
          Effect.contextFree_bind (ih app) fun _ => Effect.contextFree_pure _
      · exact ih app

/-- With plain hooks, the shared context has no say in the routes. -/
theorem contextFree_materialize (data : List (String × Json)) (descriptors : List Descriptor) :
    (r.materialize w data descriptors).ContextFree := by
  rw [materialize]
  refine Effect.contextFree_bind (contextFree_applyDescriptors h w _ _ _) fun ⟨app, params⟩ => ?_
  cases hhook : r.hook? Descriptor.param with
  | none => exact Effect.contextFree_throw _
  | some hook =>
    exact Effect.contextFree_bind (contextFree_mountPaths w (h _ hook hhook) _ _ _) fun _ =>
      Effect.contextFree_pure _

end

theorem mem_of_mountPaths {r : Registry} {w : Workspace} {hook : Hook}
    {params : List (String × Descriptor)} {data : List (String × Json)} {app app' : App}
    {paths : List String} {c c' : Context}
    (h : r.mountPaths w hook params data app c = (.ok (app', paths), c')) :
    ∀ id ∈ paths, ∃ entry ∈ data, entry.1 = id := by
  induction data generalizing app app' paths c c' with
  | nil =>
    obtain ⟨hok, -⟩ := Prod.mk.inj h
    obtain ⟨-, rfl⟩ := Prod.mk.inj (Except.ok.inj hok)
    simp
  | cons entry rest ih =>
    obtain ⟨id, verbs⟩ := entry
    cases hpath : r.path? id with
    | none =>
      rw [mountPaths, hpath] at h
      cases h
    | some path =>
      rw [mountPaths, hpath] at h
      obtain ⟨router, c₁, -, h₁⟩ := Effect.exists_of_bind h
      cases verbs with
      | obj verbs =>
        obtain ⟨app₂, c₂, -, h₂⟩ := Effect.exists_of_bind h₁
        obtain ⟨⟨app₃, paths₃⟩, c₃, hrest, h₃⟩ := Effect.exists_of_bind h₂
        obtain ⟨hok, -⟩ := Prod.mk.inj h₃
        obtain ⟨-, rfl⟩ := Prod.mk.inj (Except.ok.inj hok)
        intro other hother
        rcases List.mem_cons.mp hother with rfl | hother
        · exact ⟨_, List.mem_cons_self, rfl⟩
        · obtain ⟨entry, hentry, rfl⟩ := ih hrest other hother
          exact ⟨entry, List.mem_cons_of_mem _ hentry, rfl⟩
      | _ =>
        intro other hother
        obtain ⟨entry, hentry, rfl⟩ := ih h₁ other hother
        exact ⟨entry, List.mem_cons_of_mem _ hentry, rfl⟩

theorem mem_of_materialize {r : Registry} {w : Workspace} {data : List (String × Json)}
    {descriptors : List Descriptor} {routes : Materialized} {c c' : Context}
    (h : r.materialize w data descriptors c = (.ok routes, c')) :
    ∀ id ∈ routes.paths, ∃ entry ∈ data, entry.1 = id := by
  rw [materialize] at h
  obtain ⟨⟨app, params⟩, c₁, -, h₁⟩ := Effect.exists_of_bind h
  cases hhook : r.hook? Descriptor.param with
  | none =>
    rw [hhook] at h₁
    cases h₁
  | some hook =>
    rw [hhook] at h₁
    obtain ⟨⟨app', paths⟩, c₂, hmount, h₂⟩ := Effect.exists_of_bind h₁
    obtain ⟨hok, -⟩ := Prod.mk.inj h₂
    obtain rfl := Except.ok.inj hok
    exact mem_of_mountPaths hmount

/-- Of the names that a query selects at its top, those are registered that stand in its text as
paths. What was registered before plays no role, since it looks like a path too. -/
theorem mem_withPaths_iff {r : Registry} (hr : r.Consistent) {w : Workspace} {source : String}
    {query : PreparedQuery} (hload : PreparedQuery.load w source = .ok query) {added : List String}
    (hadded : ∀ id, id ∈ added ↔ id ∈ query.paths ∧ id ∉ r.pathIdentifiers) {d : Document}
    (hparse : Document.parse query.text = .ok d) {s : Selection} (hs : s ∈ d.selections) :
    s.name ∈ (r.withPaths added).pathIdentifiers ↔ s.name ∈ query.paths := by
  rw [pathIdentifiers_withPaths, List.mem_append, hadded]
  constructor
  · rintro (hold | ⟨hnew, -⟩)
    -- A path from before that is selected here is a token of this query too, so it was extracted.
    · have htoken := Document.mem_tokens_of_parse hparse s hs
      exact (PreparedQuery.mem_paths_of_load hload).mpr
        (mem_pathIdentifiers_of_mem_tokens (hr.isPathIdentifier hold) htoken)
    · exact hnew
  · intro hpath
    by_cases hold : s.name ∈ r.pathIdentifiers
    · exact .inl hold
    · exact .inr ⟨hpath, hold⟩

section
variable {r r' : Registry} {query : List Char}

theorem answer_congr (hr : r.Consistent) (hr' : r'.Consistent) (h : r.Agrees r')
    (hpaths : ∀ d, Document.parse query = .ok d → ∀ s ∈ d.selections,
      s.name ∈ r.pathIdentifiers ↔ s.name ∈ r'.pathIdentifiers) :
    r.vocabulary.answer query r.pathIdentifiers r.taskNames =
      r'.vocabulary.answer query r'.pathIdentifiers r'.taskNames := by
  have hanswer := Vocabulary.answer_eq hr.vocabulary_wellFormed query
  have hanswer' := Vocabulary.answer_eq hr'.vocabulary_wellFormed query
  refine hanswer.trans (Eq.trans ?_ hanswer'.symm)
  cases hparse : Document.parse query with
  | error fault => rfl
  | ok d =>
    have hfaults : r.vocabulary.faults d.selections = r'.vocabulary.faults d.selections :=
      Vocabulary.faults_congr (hpaths d hparse) h.mem_taskNames
    simp only [hfaults]

theorem path?_of_answer (hr : r.Consistent) {data : List (String × Json)}
    (hdata : r.vocabulary.answer query r.pathIdentifiers r.taskNames = .ok data) :
    ∀ entry ∈ data, r.path? entry.1 = some (RoutePath.ofIdentifier entry.1) := by
  have hanswer := hdata.symm.trans (Vocabulary.answer_eq hr.vocabulary_wellFormed query)
  cases hparse : Document.parse query with
  | error fault =>
    rw [hparse] at hanswer
    cases hanswer
  | ok d =>
    rw [hparse] at hanswer
    simp only at hanswer
    split at hanswer
    · next hzero =>
      obtain rfl := Except.ok.inj hanswer
      intro entry hentry
      obtain ⟨name, hname, rfl⟩ := List.mem_map.mp hentry
      obtain ⟨s, hs, rfl⟩ := Vocabulary.mem_fieldNames.mp hname
      have hfault := Selection.total_eq_zero_iff.mp hzero s hs
      obtain ⟨n, children, rfl, hn, -⟩ := Selection.pathFaults_eq_zero_iff.mp hfault
      exact hr.path?_eq hn
    · cases hanswer

end

end Registry

namespace Site
open RouteBlock

/-- Outcomes of a query on two sites, for the same application, that differ in nothing but what was
there before. -/
def Alike (s t : Site) : Except Fault Unit × Site × App → Except Fault Unit × Site × App → Prop
  | (.error fault, _, app), (.error fault', _, app') => fault = fault' ∧ app = app'
  | (.ok (), s', app), (.ok (), t', app') =>
    app = app' ∧ s'.registry.params = t'.registry.params ∧
      ∃ paths, s'.ready = s.ready.emit paths ∧ t'.ready = t.ready.emit paths
  | _, _ => False

theorem applyQuery_alike {s t : Site} (hs : s.Consistent) (ht : t.Consistent)
    (h : s.registry.Agrees t.registry) (w : Workspace) (query : PreparedQuery)
    (hpaths : ∀ d, Document.parse query.text = .ok d → ∀ sel ∈ d.selections,
      sel.name ∈ s.registry.pathIdentifiers ↔ sel.name ∈ t.registry.pathIdentifiers) (app : App) :
    Alike s t (s.applyQuery w query app) (t.applyQuery w query app) := by
  -- Equal answers name equal paths, since identifiers determine the paths that they stand for.
  have hanswer := Registry.answer_congr hs.registry ht.registry h hpaths
  unfold applyQuery
  rw [hs.vocabulary, ht.vocabulary, ← hanswer]
  cases hdata : s.registry.vocabulary.answer query.text s.registry.pathIdentifiers
      s.registry.taskNames with
  | error fault => exact ⟨rfl, rfl⟩
  | ok data =>
    have hknown := Registry.path?_of_answer hs.registry hdata
    have hknown' := Registry.path?_of_answer ht.registry (hanswer ▸ hdata)
    have hsame : ∀ entry ∈ data, s.registry.path? entry.1 = t.registry.path? entry.1 :=
      fun entry hentry => (hknown entry hentry).trans (hknown' entry hentry).symm
    have hroutes := Registry.materialize_congr h w query.descriptors hsame
    have hfree := Registry.contextFree_materialize (fun _ _ => h.plain_of_hook?) w data
      query.descriptors
    obtain ⟨result, hresult⟩ := hfree
    simp only [← hroutes, hresult]
    cases result with
    | error fault => exact ⟨rfl, rfl⟩
    | ok routes =>
      have hmem : ∀ id ∈ routes.paths, s.registry.path? id = t.registry.path? id := by
        intro id hid
        have hrun : s.registry.materialize w data query.descriptors s.context =
            (.ok routes, s.context) := congrFun hresult s.context
        obtain ⟨entry, hentry, rfl⟩ := Registry.mem_of_materialize hrun id hid
        exact hsame entry hentry
      exact ⟨rfl, rfl, _, rfl, by rw [List.filterMap_congr hmem]⟩

/-- A query has the same outcome on sites with the same tasks, options and parameters, if they have
no hooks of their own. -/
theorem set_alike {s t : Site} (hs : s.Reachable) (ht : t.Reachable)
    (h : s.registry.Agrees t.registry) (w : Workspace) (app : App) (source : String) :
    Alike s t (s.set w app source) (t.set w app source) := by
  have hsr := hs.consistent
  have htr := ht.consistent
  cases hload : PreparedQuery.load w source with
  | error fault =>
    rw [set_of_load_error hload, set_of_load_error hload]
    exact ⟨rfl, rfl⟩
  | ok query =>
    obtain ⟨added, hnodup, hadded, hset⟩ := set_of_load hload s app
    obtain ⟨added', hnodup', hadded', hset'⟩ := set_of_load hload t app
    have hpaths : ∀ d, Document.parse query.text = .ok d → ∀ sel ∈ d.selections,
        sel.name ∈ (s.registry.withPaths added).pathIdentifiers ↔
          sel.name ∈ (t.registry.withPaths added').pathIdentifiers := fun d hparse sel hsel =>
      (Registry.mem_withPaths_iff hsr.registry hload hadded hparse hsel).trans
        (Registry.mem_withPaths_iff htr.registry hload hadded' hparse hsel).symm
    rw [hset, hset']
    exact applyQuery_alike
      (consistent_setRegistry hsr (hsr.registry.withPaths_of_load hload hnodup hadded))
      (consistent_setRegistry htr (htr.registry.withPaths_of_load hload hnodup' hadded'))
      (h.withPaths added added') w query hpaths app

def unknownTask : List RouteBlock := [⟨"/a", [(.get, ["hello"])]⟩]

/-- A failed query leaves a path behind, and its repetition fails in the same way. -/
theorem set_alike_repeated :
    ∃ t, set {} ⟨"/", []⟩ {} (queryText unknownTask) = (.error (.failedQuery 1), t, {}) ∧
      Escape.encode "/a" ∈ t.registry.pathIdentifiers ∧ Reachable {} ∧ t.Reachable ∧
      ({} : Registry).Agrees t.registry ∧
      Alike {} t (set {} ⟨"/", []⟩ {} (queryText unknownTask))
        (t.set ⟨"/", []⟩ {} (queryText unknownTask)) := by
  have hs : Reachable {} := .new .empty
  have hvalid : ∀ b ∈ unknownTask, Valid ["hello"] b := by
    rw [unknownTask, List.forall_mem_singleton]
    exact ⟨⟨by decide, List.all_eq_true.mp (by decide)⟩, by decide, by decide, by decide⟩
  have htasks : ∀ t ∈ ["hello"], isIdentifier t = true := by decide
  have hne : unknownTask ≠ [] := List.cons_ne_nil _ _
  have hload := load_queryText ⟨"/", []⟩ hne hvalid htasks
  obtain ⟨added, hnodup, hadded, hset⟩ := set_of_load hload {} {}
  have hmem : Escape.encode "/a" ∈ (Registry.withPaths {} added).pathIdentifiers := by
    rw [Registry.pathIdentifiers_withPaths]
    have hfound := mem_pathIdentifiers_queryText hvalid htasks List.mem_cons_self
    exact List.mem_append_right _ ((hadded _).mpr ⟨List.mem_eraseDups.mpr hfound, List.not_mem_nil⟩)
  have hknown := hs.consistent.registry.withPaths_of_load hload hnodup hadded
  have hfaults : (Registry.withPaths {} added).vocabulary.faults
      ((unknownTask.map escaped).map selection) = 1 := by
    have hpath : Escape.encode "/a" ∈ (Registry.withPaths {} added).vocabulary.paths := hmem
    have htask : "hello" ∉ (Registry.withPaths {} added).vocabulary.tasks := List.not_mem_nil
    simp [unknownTask, escaped, selection, verbSelection, Vocabulary.faults, Selection.pathFaults,
      Selection.verbFaults, Selection.taskFaults, hpath, htask]
  have hanswer := Vocabulary.answer_eq hknown.vocabulary_wellFormed
    (Escape.encodeChars (queryText unknownTask).toList)
  rw [parse_queryText hne hvalid htasks] at hanswer
  simp only [hfaults] at hanswer
  have hfailed : set {} ⟨"/", []⟩ {} (queryText unknownTask) =
      (.error (.failedQuery 1), setRegistry {} (Registry.withPaths {} added), {}) := by
    rw [hset]
    exact applyQuery_of_error _ _ hanswer
  have ht : (setRegistry {} (Registry.withPaths {} added)).Reachable := by
    have hstep := Step.set {} ⟨"/", []⟩ {} (queryText unknownTask)
    rw [hfailed] at hstep
    exact .step hs hstep
  have hagrees : ({} : Registry).Agrees (Registry.withPaths {} added) :=
    ⟨fun _ => rfl, fun _ => rfl, rfl, rfl, rfl⟩
  exact ⟨_, hfailed, hmem, hs, ht, hagrees, set_alike hs ht hagrees _ _ _⟩

end Site
end RouteQuery
