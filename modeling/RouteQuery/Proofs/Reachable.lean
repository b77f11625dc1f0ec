import RouteQuery.Proofs.Announcing
import RouteQuery.Proofs.FirstOccurrence
import RouteQuery.Proofs.Registering
import RouteQuery.Proofs.SchemaPrinting
import RouteQuery.Site

/-! The sites that a program can get to, and what holds of all of them. -/
namespace RouteQuery

namespace PreparedQuery

theorem paths_of_load {w : Workspace} {source : String} {query : PreparedQuery}
    (h : load w source = .ok query) :
    query.paths = (QueryText.pathIdentifiers query.text).eraseDups := by
  obtain ⟨text, -, htext⟩ := exists_of_bind_eq_ok h
  obtain ⟨descriptors, -, h₁⟩ := exists_of_bind_eq_ok htext
  obtain ⟨normalized, -, h₂⟩ := exists_of_bind_eq_ok h₁
  obtain ⟨paths, hpaths, h₃⟩ := exists_of_bind_eq_ok h₂
  obtain rfl := Except.ok.inj h₃
  obtain ⟨-, -, h₄⟩ := exists_of_bind_eq_ok hpaths
  rw [QueryText.distinct_eq_eraseDups] at h₄
  split at h₄
  · cases h₄
  · obtain rfl := Except.ok.inj h₄
    rfl

theorem mem_paths_of_load {w : Workspace} {source : String} {query : PreparedQuery}
    (h : load w source = .ok query) {id : String} :
    id ∈ query.paths ↔ id ∈ QueryText.pathIdentifiers query.text := by
  rw [paths_of_load h, List.mem_eraseDups]

theorem isPathIdentifier_of_load {w : Workspace} {source : String} {query : PreparedQuery}
    (h : load w source = .ok query) :
    ∀ id ∈ query.paths, QueryText.isPathIdentifier id = true :=
  fun _ hid => QueryText.isPathIdentifier_of_mem ((mem_paths_of_load h).mp hid)

end PreparedQuery

theorem Registry.addPaths_of_load (r : Registry) {w : Workspace} {source : String} {query : PreparedQuery}
    (h : PreparedQuery.load w source = .ok query) :
    ∃ added, r.addPaths query.paths = (.ok (), r.withPaths added) ∧ added.Nodup ∧
      ∀ id, id ∈ added ↔ id ∈ query.paths ∧ id ∉ r.pathIdentifiers :=
  r.addPaths_eq fun id hid =>
    QueryText.isIdentifier_of_isPathIdentifier (PreparedQuery.isPathIdentifier_of_load h id hid)

theorem Registry.Consistent.withPaths_of_load {r : Registry} (h : r.Consistent) {w : Workspace}
    {source : String} {query : PreparedQuery} (hload : PreparedQuery.load w source = .ok query)
    {added : List String} (hnodup : added.Nodup)
    (hadded : ∀ id, id ∈ added ↔ id ∈ query.paths ∧ id ∉ r.pathIdentifiers) :
    (r.withPaths added).Consistent :=
  h.withPaths hnodup
    (fun id hid => PreparedQuery.isPathIdentifier_of_load hload id ((hadded id).mp hid).1)
    fun id hid => ((hadded id).mp hid).2

namespace Site

theorem set_of_load_error {w : Workspace} {source : String} {fault : Fault}
    (h : PreparedQuery.load w source = .error fault) (s : Site) (app : App) :
    s.set w app source = (.error fault, s, app) := by
  rw [set, h]

/-- A query that loads is applied after its paths have been registered, which does not fail. -/
theorem set_of_load {w : Workspace} {source : String} {query : PreparedQuery}
    (h : PreparedQuery.load w source = .ok query) (s : Site) (app : App) :
    ∃ added, added.Nodup ∧ (∀ id, id ∈ added ↔ id ∈ query.paths ∧ id ∉ s.registry.pathIdentifiers) ∧
      s.set w app source =
        (s.setRegistry (s.registry.withPaths added)).applyQuery w query app := by
  obtain ⟨added, hadd, hnodup, hadded⟩ := s.registry.addPaths_of_load h
  refine ⟨added, hnodup, hadded, ?_⟩
  rw [set, h]
  simp only [hadd]

theorem applyQuery_of_ok {s : Site} {w : Workspace} {data : List (String × Json)}
    {routes : Materialized} {context : Context} (query : PreparedQuery) (app : App)
    (hanswer : s.vocabulary.answer query.text s.registry.pathIdentifiers s.registry.taskNames =
      .ok data)
    (hroutes : s.registry.materialize w data query.descriptors s.context = (.ok routes, context)) :
    s.applyQuery w query app =
      (.ok (),
        { s with
          registry := { s.registry with params := routes.params }
          context
          ready := s.ready.emit ((routes.paths.filterMap s.registry.path?).map (·.text)) },
        app.extend routes.app) := by
  rw [applyQuery, hanswer]
  simp only [hroutes]

theorem applyQuery_of_error {s : Site} {w : Workspace} {fault : Fault} (query : PreparedQuery)
    (app : App)
    (hanswer : s.vocabulary.answer query.text s.registry.pathIdentifiers s.registry.taskNames =
      .error fault) : s.applyQuery w query app = (.error fault, s, app) := by
  rw [applyQuery, hanswer]

/-- A prepared query fails without a trace but for the shared context, or it is applied. -/
theorem applyQuery_cases (s : Site) (w : Workspace) (query : PreparedQuery) (app : App) :
    (∃ (fault : Fault) (context : Context), s.applyQuery w query app = (.error fault, { s with context }, app)) ∨
    ∃ (routes : Materialized) (context : Context), s.applyQuery w query app =
      (.ok (),
        { s with
          registry := { s.registry with params := routes.params }
          context
          ready := s.ready.emit ((routes.paths.filterMap s.registry.path?).map (·.text)) },
        app.extend routes.app) := by
  unfold applyQuery
  split
  · exact .inl ⟨_, s.context, rfl⟩
  · split
    · exact .inl ⟨_, _, rfl⟩
    · exact .inr ⟨_, _, rfl⟩

/-- A query leaves the tasks as they are. It fails without news, or it is applied with an event. -/
theorem set_cases (s : Site) (w : Workspace) (app : App) (source : String) :
    (s.set w app source).2.1.registry.tasks = s.registry.tasks ∧
      ((∃ fault, (s.set w app source).1 = .error fault ∧
          (s.set w app source).2.1.ready = s.ready) ∨
        ∃ paths, (s.set w app source).1 = .ok () ∧
          (s.set w app source).2.1.ready = s.ready.emit paths) := by
  cases hload : PreparedQuery.load w source with
  | error fault =>
    rw [set_of_load_error hload]
    exact ⟨rfl, .inl ⟨fault, rfl, rfl⟩⟩
  | ok query =>
    obtain ⟨added, -, -, hset⟩ := set_of_load hload s app
    rw [hset]
    rcases applyQuery_cases (s.setRegistry (s.registry.withPaths added)) w query app with
      ⟨fault, _, hs⟩ | ⟨_, _, hs⟩
    · rw [hs]
      exact ⟨rfl, .inl ⟨fault, rfl, rfl⟩⟩
    · rw [hs]
      exact ⟨rfl, .inr ⟨_, rfl, rfl⟩⟩

/-- What a program can do with a site, or with the context that it shares. -/
inductive Step : Site → Site → Prop
  | addTask {s s' : Site} {task : Task} (h : s.addTask task = .ok s') : Step s s'
  | addNamedTask {s s' : Site} {name : String}
      {handler : Http.Request → Next → Action Http.Response}
      (h : s.addNamedTask name handler = .ok s') : Step s s'
  | addStockTasks (s : Site) (newId : StockTasks.IdSource) : Step s (s.addStockTasks newId).2
  | addOptions {s s' : Site} {name : String} {options : Json} (h : s.addOptions name options = .ok s') :
      Step s s'
  | addHook {s s' : Site} {name : String} {hook : Hook} (h : s.addHook name hook = .ok s') : Step s s'
  | set (s : Site) (w : Workspace) (app : App) (source : String) : Step s (s.set w app source).2.1
  | share (s : Site) (context : Context) : Step s { s with context }

inductive Reachable : Site → Prop
  | new (context : Context) : Reachable { context }
  | step {s s' : Site} (h : Reachable s) (hstep : Step s s') : Reachable s'

/-- A new site with the tasks that come with the library. -/
def stocked : Site := (addStockTasks {} (.constant "0")).2

theorem reachable_stocked : stocked.Reachable := .step (.new .empty) (.addStockTasks {} _)

/-- What is registered is consistent, its names are known, and so are the latest events. -/
structure Consistent (s : Site) : Prop where
  registry : s.registry.Consistent
  vocabulary : s.vocabulary = s.registry.vocabulary
  ready : s.ready.Consistent

theorem consistent_setRegistry {s : Site} {registry : Registry} (h : s.Consistent)
    (hregistry : registry.Consistent) : (s.setRegistry registry).Consistent :=
  ⟨hregistry, rfl, h.ready⟩

theorem consistent_addTask {s s' : Site} {task : Task} (h : s.Consistent)
    (hadd : s.addTask task = .ok s') : s'.Consistent := by
  obtain ⟨registry, hregistry, rfl⟩ := Site.of_addTask hadd
  exact consistent_setRegistry h (h.registry.addTask hregistry)

/-- Tasks are added behind those that are there. Nothing else changes but the names that are known. -/
theorem addTasks_eq (s : Site) (tasks : List Task) :
    ∃ added vocabulary, (s.addTasks tasks).2 =
      { s with registry := { s.registry with tasks := s.registry.tasks ++ added }, vocabulary } := by
  induction tasks generalizing s with
  | nil => exact ⟨[], s.vocabulary, by simp⟩
  | cons task rest ih =>
    rw [addTasks_cons]
    split
    · next s' hadd =>
      obtain ⟨registry, hregistry, rfl⟩ := Site.of_addTask hadd
      obtain ⟨-, rfl⟩ := Registry.addTask_eq_ok hregistry
      obtain ⟨added, vocabulary, hrest⟩ := ih (s.setRegistry _)
      exact ⟨task :: added, vocabulary, by rw [hrest]; simp [setRegistry]⟩
    · exact ⟨[], s.vocabulary, by simp⟩

theorem consistent_addTasks {s : Site} (h : s.Consistent) (tasks : List Task) :
    (s.addTasks tasks).2.Consistent := by
  induction tasks generalizing s with
  | nil => exact h
  | cons task rest ih =>
    rw [addTasks_cons]
    split
    · next s' hadd => exact ih (consistent_addTask h hadd)
    · exact h

theorem consistent_applyQuery {s : Site} (h : s.Consistent) (w : Workspace) (query : PreparedQuery)
    (app : App) : (s.applyQuery w query app).2.1.Consistent := by
  rcases s.applyQuery_cases w query app with ⟨fault, context, hs⟩ | ⟨routes, context, hs⟩
  · rw [hs]
    exact { h with }
  · rw [hs]
    exact ⟨{ h.registry with }, h.vocabulary, Ready.Signal.consistent_emit h.ready _⟩

theorem consistent_set {s : Site} (h : s.Consistent) (w : Workspace) (app : App) (source : String) :
    (s.set w app source).2.1.Consistent := by
  cases hload : PreparedQuery.load w source with
  | error fault => rw [set_of_load_error hload]; exact h
  | ok query =>
    obtain ⟨added, hnodup, hadded, hset⟩ := set_of_load hload s app
    rw [hset]
    have hregistry := h.registry.withPaths_of_load hload hnodup hadded
    exact consistent_applyQuery (consistent_setRegistry h hregistry) w query app

theorem consistent_step {s s' : Site} (h : s.Consistent) (hstep : Step s s') : s'.Consistent := by
  cases hstep with
  | addTask hadd => exact consistent_addTask h hadd
  | addNamedTask hadd =>
    obtain ⟨task, -, hadd⟩ := exists_of_bind_eq_ok hadd
    exact consistent_addTask h hadd
  | addStockTasks => exact consistent_addTasks h _
  | addOptions hadd =>
    obtain ⟨registry, hregistry, rfl⟩ := Site.of_addOptions hadd
    refine ⟨h.registry.addOptions hregistry, ?_, h.ready⟩
    obtain ⟨-, -, rfl⟩ := Registry.addOptions_eq_ok hregistry
    exact h.vocabulary
  | addHook hadd =>
    obtain ⟨registry, hregistry, rfl⟩ := Site.of_addHook hadd
    refine ⟨h.registry.addHook hregistry, ?_, h.ready⟩
    obtain ⟨-, -, rfl⟩ := Registry.addHook_eq_ok hregistry
    exact h.vocabulary
  | set w app source => exact consistent_set h w app source
  | share context => exact { h with }

theorem Reachable.consistent {s : Site} (h : s.Reachable) : s.Consistent := by
  induction h with
  | new context => exact ⟨Registry.consistent_new, rfl, Ready.Signal.consistent_new⟩
  | step _ hstep ih => exact consistent_step ih hstep

theorem Consistent.of_set {s s' : Site} (h : s.Consistent) {w : Workspace} {app app' : App}
    {source : String} {result : Except Fault Unit} (hset : s.set w app source = (result, s', app')) :
    s'.Consistent := by
  have hafter := consistent_set h w app source
  rwa [hset] at hafter

theorem Reachable.of_set {s s' : Site} (h : s.Reachable) {w : Workspace} {app app' : App}
    {source : String} {result : Except Fault Unit} (hset : s.set w app source = (result, s', app')) :
    s'.Reachable := by
  have hstep := Step.set s w app source
  rw [hset] at hstep
  exact h.step hstep

/-- Where nothing was registered, the paths of a query with a single path are this path. -/
theorem added_eq_singleton {s : Site} {id : String} {added : List String} (hnodup : added.Nodup)
    (hnew : id ∉ s.registry.pathIdentifiers)
    (hadded : ∀ other, other ∈ added ↔ other ∈ [id] ∧ other ∉ s.registry.pathIdentifiers) :
    added = [id] := by
  refine List.perm_singleton.mp ((List.perm_ext_iff_of_nodup hnodup (List.nodup_singleton _)).mpr ?_)
  intro other
  rw [hadded, List.mem_singleton]
  exact ⟨And.left, fun heq => ⟨heq, heq ▸ hnew⟩⟩

/-- A single path in the text of a query is registered, whatever becomes of the query. -/
theorem pathIdentifiers_of_set {s : Site} {w : Workspace} {source : String} {query : PreparedQuery} {id : String}
    (hload : PreparedQuery.load w source = .ok query) (hpaths : query.paths = [id])
    (hnew : id ∉ s.registry.pathIdentifiers) (app : App) :
    (s.set w app source).2.1.registry.pathIdentifiers = s.registry.pathIdentifiers ++ [id] := by
  obtain ⟨added, hnodup, hadded, hset⟩ := set_of_load hload s app
  rw [hpaths] at hadded
  obtain rfl := added_eq_singleton hnodup hnew hadded
  rw [hset, ← Registry.pathIdentifiers_withPaths]
  rcases applyQuery_cases (s.setRegistry (s.registry.withPaths [id])) w query app with
    ⟨_, _, hs⟩ | ⟨_, _, hs⟩ <;>
  · rw [hs]
    rfl

/-- From any site a program can get to one that has the paths of a query as well. -/
theorem Reachable.exists_withPaths {s : Site} (h : s.Reachable) {w : Workspace} {source : String}
    {query : PreparedQuery} (hload : PreparedQuery.load w source = .ok query) :
    ∃ s' : Site, s'.Reachable ∧ s'.registry.tasks = s.registry.tasks ∧
      ∃ added, added.Nodup ∧ (∀ id, id ∈ added ↔ id ∈ query.paths ∧ id ∉ s.registry.pathIdentifiers) ∧
        s'.registry.pathIdentifiers = s.registry.pathIdentifiers ++ added := by
  obtain ⟨added, hnodup, hadded, hset⟩ := set_of_load hload s {}
  have hstep := h.step (.set s w {} source)
  have hkept : (s.set w {} source).2.1.registry.tasks = s.registry.tasks ∧
      (s.set w {} source).2.1.registry.pathIdentifiers = s.registry.pathIdentifiers ++ added := by
    rw [hset, ← Registry.pathIdentifiers_withPaths]
    rcases applyQuery_cases (s.setRegistry (s.registry.withPaths added)) w query {} with
      ⟨_, _, hs⟩ | ⟨_, _, hs⟩ <;>
    · rw [hs]
      exact ⟨rfl, rfl⟩
  exact ⟨_, hstep, hkept.1, added, hnodup, hadded, hkept.2⟩

end Site

namespace Registry.Consistent

/-- The names of a consistent registry make a schema that compiles. -/
theorem vocabulary_wellFormed {r : Registry} (h : r.Consistent) : r.vocabulary.WellFormed where
  paths_nodup := h.paths
  tasks_nodup := h.tasks
  isIdentifier_path := fun _ hid =>
    QueryText.isIdentifier_of_isPathIdentifier (h.isPathIdentifier hid)
  isIdentifier_task := by
    rintro name hname
    obtain ⟨task, -, rfl⟩ := List.mem_map.mp hname
    exact task.isIdentifier_name

end Registry.Consistent
end RouteQuery
