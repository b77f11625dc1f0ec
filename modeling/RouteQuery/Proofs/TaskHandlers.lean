import RouteQuery.Proofs.HistoryIndependence

/-! What tasks do and what they share has no say in how a query is applied: with other handlers under the same
names, and with another shared context, the same happens. -/
namespace RouteQuery

section
variable (f : Task → Task)

def ParamBinding.mapTasks (b : ParamBinding) : ParamBinding := { b with chain := b.chain.map f }

def Handler.mapTasks : Handler → Handler
  | tasks chain params => tasks (chain.map f) (params.map (·.mapTasks f))
  | files directory => files directory

def RouteEntry.mapTasks (e : RouteEntry) : RouteEntry := { e with handler := e.handler.mapTasks f }

def PathRouter.mapTasks (r : PathRouter) : PathRouter :=
  { r with
    params := r.params.map (·.mapTasks f)
    routes := r.routes.map (Prod.map id (List.map f)) }

def App.mapTasks (app : App) : App := { app with entries := app.entries.map (·.mapTasks f) }

def Materialized.mapTasks (m : Materialized) : Materialized := { m with app := m.app.mapTasks f }

def HookScope.mapTasks (s : HookScope) : HookScope := { s with tasks := s.tasks.map f }

def Registry.mapTasks (r : Registry) : Registry := { r with tasks := r.tasks.map f }

/-- The same site with its tasks changed and with another shared context. -/
def Site.restate (c : Context) (s : Site) : Site := { s with registry := s.registry.mapTasks f, context := c }

end

theorem Effect.map_of {α β : Type} (g : α → β) (result : Except Fault α) :
    g <$> (Change.of result : Effect α) = Change.of (g <$> result) := by
  cases result <;> rfl

namespace App

variable {f : Task → Task}

@[simp] theorem mapTasks_empty : mapTasks f {} = {} := rfl

theorem mapTasks_push (app : App) (entry : RouteEntry) :
    (app.push entry).mapTasks f = (app.mapTasks f).push (entry.mapTasks f) := by
  simp [push, mapTasks]

theorem mapTasks_extend (app other : App) :
    (app.extend other).mapTasks f = (app.mapTasks f).extend (other.mapTasks f) := by
  simp [extend, mapTasks]

theorem mount_mapTasks (app : App) (router : PathRouter) :
    (app.mapTasks f).mount (router.mapTasks f) = mapTasks f <$> app.mount router := by
  simp only [mount, map_bind]
  refine bind_congr fun matcher => ?_
  simp [mapTasks, PathRouter.mapTasks, RouteEntry.mapTasks, Handler.mapTasks, Function.comp_def]

end App

section
variable {f : Task → Task} (hf : ∀ task, (f task).name = task.name)
include hf

theorem TaskChain.names_map (chain : TaskChain) : TaskChain.names (chain.map f) = chain.names := by
  simp [names, Function.comp_def, hf]

omit hf in
theorem RouteEntry.kind_mapTasks (e : RouteEntry) : (e.mapTasks f).kind = e.kind := by
  obtain ⟨matcher, method, handler⟩ := e
  simp only [kind, mapTasks]
  cases handler with
  | files directory => rfl
  | tasks chain params =>
    cases method with
    | verb v => rfl
    | any => cases matcher.mode <;> rfl

theorem RouteEntry.label_mapTasks (w : Workspace) (e : RouteEntry) : (e.mapTasks f).label w = e.label w := by
  rw [label, label, kind_mapTasks]
  obtain ⟨matcher, method, handler⟩ := e
  cases handler with
  | files directory => rfl
  | tasks chain params =>
    simp only [mapTasks, Handler.mapTasks, List.foldl_map, ParamBinding.mapTasks, TaskChain.names_map hf]

theorem App.describe_mapTasks (w : Workspace) (app : App) : (app.mapTasks f).describe w = app.describe w := by
  simp only [describe, mapTasks, List.map_map, Function.comp_def, RouteEntry.label_mapTasks hf]

namespace HookScope

theorem task_mapTasks (s : HookScope) (name : String) : (s.mapTasks f).task name = f <$> s.task name := by
  simp only [task, mapTasks, List.find?_map, Function.comp_def, hf]
  cases s.tasks.find? (·.name == name) <;> rfl

theorem chain_mapTasks (s : HookScope) (names : List String) :
    (s.mapTasks f).chain names = List.map f <$> s.chain names := by
  simp only [chain]
  induction names with
  | nil => rfl
  | cons name rest ih =>
    simp only [List.mapM_cons, task_mapTasks hf, ih, bind_map_left, map_bind, map_pure, List.map_cons]

end HookScope

/-- A hook to which the tasks of a scope are no more than names. -/
structure Hook.Respects (f : Task → Task) (hook : Hook) : Prop where
  onApp : ∀ scope d app,
    hook.onApp (scope.mapTasks f) d (app.mapTasks f) = App.mapTasks f <$> hook.onApp scope d app
  onRouter : ∀ scope d router, hook.onRouter (scope.mapTasks f) d (router.mapTasks f) =
    PathRouter.mapTasks f <$> hook.onRouter scope d router

namespace Hook

omit hf in
theorem respects_forApp {α : Type} {prepare : HookScope → Descriptor → Except Fault α}
    {change : App → α → Except Fault App} {g : α → α}
    (hprepare : ∀ scope d, prepare (scope.mapTasks f) d = g <$> prepare scope d)
    (hchange : ∀ app a, change (app.mapTasks f) (g a) = App.mapTasks f <$> change app a) :
    (forApp prepare change).Respects f where
  onApp scope d app := by
    simp only [forApp, Effect.map_of, hprepare, bind_map_left, map_bind, hchange]
  onRouter scope d router := by
    simp only [forApp, Effect.map_of, hprepare, bind_map_left, map_bind]
    rfl

theorem respects_param : param.Respects f where
  onApp scope d app := by
    simp only [param, Effect.map_of, HookScope.chain_mapTasks hf, bind_map_left, map_bind]
    rfl
  onRouter scope d router := by
    simp only [param, Effect.map_of, HookScope.chain_mapTasks hf]
    cases scope.chain d.args with
    | error fault => rfl
    | ok chain => simp [Except.map, PathRouter.bind, PathRouter.mapTasks, ParamBinding.mapTasks, Functor.map]

omit hf in
theorem respects_static : static.Respects f := by
  refine respects_forApp (g := id) (fun scope d => ?_) fun app served => ?_
  · rw [id_map]
    rfl
  · simp only [App.serveFiles, id_eq, map_bind]
    refine bind_congr fun matcher => ?_
    exact congrArg Except.ok (App.mapTasks_push app ⟨matcher, .any, .files served.2⟩).symm

theorem respects_all : all.Respects f := by
  refine respects_forApp (g := Prod.map id (List.map f)) (fun scope d => ?_) fun app routed => ?_
  · simp only [HookScope.chain_mapTasks hf, bind_map_left, map_bind]
    rfl
  · simp only [App.all, map_bind]
    refine bind_congr fun matcher => ?_
    exact congrArg Except.ok (App.mapTasks_push app ⟨matcher, .any, .tasks routed.2 []⟩).symm

omit hf in
theorem respects_bodyParser (kind : Http.BodyKind) : (bodyParser kind).Respects f := by
  refine respects_forApp (g := id) (fun scope d => ?_) fun app options => rfl
  rw [id_map]
  rfl

theorem respects_of_mem_builtin {h : String × Hook} (hmem : h ∈ builtin) : h.2.Respects f := by
  simp only [builtin, List.mem_cons, List.not_mem_nil, or_false] at hmem
  rcases hmem with rfl | rfl | rfl | rfl | rfl | rfl | rfl
  · exact respects_param hf
  · exact respects_static
  · exact respects_all hf
  all_goals exact respects_bodyParser _

end Hook

namespace Registry

section
omit hf

@[simp] theorem scope_mapTasks (r : Registry) (w : Workspace) :
    (r.mapTasks f).scope w = (r.scope w).mapTasks f := rfl

@[simp] theorem hook?_mapTasks (r : Registry) (name : String) : (r.mapTasks f).hook? name = r.hook? name := rfl

@[simp] theorem path?_mapTasks (r : Registry) (identifier : String) :
    (r.mapTasks f).path? identifier = r.path? identifier := rfl

@[simp] theorem pathIdentifiers_mapTasks (r : Registry) :
    (r.mapTasks f).pathIdentifiers = r.pathIdentifiers := rfl

end

@[simp] theorem taskNames_mapTasks (r : Registry) : (r.mapTasks f).taskNames = r.taskNames := by
  simp [taskNames, mapTasks, Function.comp_def, hf]

@[simp] theorem vocabulary_mapTasks (r : Registry) : (r.mapTasks f).vocabulary = r.vocabulary := by
  rw [vocabulary, vocabulary, taskNames_mapTasks hf, pathIdentifiers_mapTasks]

theorem task?_mapTasks (r : Registry) (name : String) : (r.mapTasks f).task? name = (r.task? name).map f := by
  simp only [task?, mapTasks, List.find?_map, Function.comp_def, hf]

theorem addTask_mapTasks (r : Registry) (task : Task) :
    (r.mapTasks f).addTask (f task) = mapTasks f <$> r.addTask task := by
  simp only [addTask_eq, task?_mapTasks hf, hf, Option.isSome_map]
  split
  · rfl
  · simp [mapTasks, Functor.map, Except.map]

omit hf in
theorem addPath_mapTasks (r : Registry) (identifier : String) :
    (r.mapTasks f).addPath identifier = mapTasks f <$> r.addPath identifier := by
  rw [addPath, addPath, path?_mapTasks]
  split
  · rfl
  · split <;> rfl

omit hf in
theorem addPaths_mapTasks (r : Registry) (ids : List String) :
    (r.mapTasks f).addPaths ids = Prod.map id (mapTasks f) (r.addPaths ids) := by
  induction ids generalizing r with
  | nil => rfl
  | cons identifier rest ih =>
    simp only [addPaths, addPath_mapTasks]
    cases r.addPath identifier with
    | error fault => rfl
    | ok r' => exact ih r'

variable {r : Registry} (w : Workspace)

theorem addRoutes_mapTasks (verbs : List (String × Json)) (router : PathRouter) :
    (r.mapTasks f).addRoutes w verbs (router.mapTasks f) =
      PathRouter.mapTasks f <$> r.addRoutes w verbs router := by
  induction verbs generalizing router with
  | nil => rfl
  | cons v rest ih =>
    obtain ⟨name, tasks⟩ := v
    have hroute : ∀ verb chain, (router.mapTasks f).route verb (chain.map f) =
        (router.route verb chain).mapTasks f := by simp [PathRouter.route, PathRouter.mapTasks]
    unfold addRoutes
    split
    · simp only [scope_mapTasks, HookScope.chain_mapTasks hf, bind_map_left, map_bind, hroute, ih]
    · exact ih router

omit hf in
theorem bindParams_mapTasks {hook : Hook} (hhook : hook.Respects f) (identifier : String)
    (params : List (String × Descriptor)) (router : PathRouter) :
    (r.mapTasks f).bindParams w hook identifier params (router.mapTasks f) =
      PathRouter.mapTasks f <$> r.bindParams w hook identifier params router := by
  induction params generalizing router with
  | nil => rfl
  | cons param rest ih =>
    obtain ⟨key, d⟩ := param
    unfold bindParams
    split
    · simp only [scope_mapTasks, hhook.onRouter, bind_map_left, map_bind, ih]
    · exact ih router

theorem mountPaths_mapTasks {hook : Hook} (hhook : hook.Respects f) (params : List (String × Descriptor))
    (data : List (String × Json)) (app : App) :
    (r.mapTasks f).mountPaths w hook params data (app.mapTasks f) =
      Prod.map (App.mapTasks f) id <$> r.mountPaths w hook params data app := by
  induction data generalizing app with
  | nil => rfl
  | cons entry rest ih =>
    obtain ⟨identifier, verbs⟩ := entry
    rw [mountPaths, mountPaths, path?_mapTasks]
    cases r.path? identifier with
    | none => rfl
    | some path =>
      have hrouter := bindParams_mapTasks (r := r) w hhook identifier params { path }
      change (r.mapTasks f).bindParams w hook identifier params (PathRouter.mapTasks f { path }) >>= _ = _
      rw [hrouter, bind_map_left, map_bind]
      refine bind_congr fun router => ?_
      cases verbs with
      | obj verbs =>
        have hmount : ((r.mapTasks f).addRoutes w verbs (router.mapTasks f) >>= (app.mapTasks f).mount) =
            App.mapTasks f <$> (r.addRoutes w verbs router >>= app.mount) := by
          simp only [addRoutes_mapTasks hf, bind_map_left, map_bind, App.mount_mapTasks]
        dsimp only
        rw [hmount, ← Effect.map_of, bind_map_left, map_bind]
        refine bind_congr fun app => ?_
        rw [ih, bind_map_left, map_bind]
        rfl
      | _ => exact ih app

section
variable (hr : ∀ name hook, r.hook? name = some hook → hook.Respects f)
include hr

omit hf in
theorem applyDescriptors_mapTasks (descriptors : List Descriptor) (app : App)
    (params : List (String × Descriptor)) :
    (r.mapTasks f).applyDescriptors w descriptors (app.mapTasks f) params =
      Prod.map (App.mapTasks f) id <$> r.applyDescriptors w descriptors app params := by
  induction descriptors generalizing app params with
  | nil => rfl
  | cons d rest ih =>
    rw [applyDescriptors, applyDescriptors]
    split
    · exact ih app _
    · rw [hook?_mapTasks]
      cases hhook : r.hook? d.name with
      | none => rfl
      | some hook =>
        simp only [scope_mapTasks, (hr _ hook hhook).onApp, bind_map_left, map_bind, ih]

theorem materialize_mapTasks (data : List (String × Json)) (descriptors : List Descriptor) :
    (r.mapTasks f).materialize w data descriptors =
      Materialized.mapTasks f <$> r.materialize w data descriptors := by
  have happ := applyDescriptors_mapTasks w hr descriptors {} r.params
  rw [materialize, materialize, ← App.mapTasks_empty (f := f), hook?_mapTasks]
  change (r.mapTasks f).applyDescriptors w descriptors (App.mapTasks f {}) r.params >>= _ = _
  rw [happ, bind_map_left, map_bind]
  refine bind_congr ?_
  rintro ⟨app, params⟩
  cases hhook : r.hook? Descriptor.param with
  | none => rfl
  | some hook =>
    simp only [Prod.map, mountPaths_mapTasks hf w (hr _ hook hhook), bind_map_left, map_bind]
    rfl

end

end Registry

namespace Site

theorem setRegistry_mapTasks (s : Site) (c : Context) (r : Registry) :
    (s.restate f c).setRegistry (r.mapTasks f) = (s.setRegistry r).restate f c := by
  rw [setRegistry, Registry.vocabulary_mapTasks hf]
  rfl

/-- The same outcome on a site with other handlers and another shared context. -/
theorem applyQuery_restate {s : Site} (c : Context)
    (hr : ∀ name hook, s.registry.hook? name = some hook → hook.Plain ∧ hook.Respects f) (w : Workspace)
    (query : PreparedQuery) (app : App) :
    (s.restate f c).applyQuery w query (app.mapTasks f) =
      Prod.map id (Prod.map (restate f c) (App.mapTasks f)) (s.applyQuery w query app) := by
  have hnames : (s.restate f c).registry.taskNames = s.registry.taskNames :=
    Registry.taskNames_mapTasks hf s.registry
  have hanswer : (s.restate f c).vocabulary.answer query.text (s.restate f c).registry.pathIdentifiers
      (s.restate f c).registry.taskNames =
        s.vocabulary.answer query.text s.registry.pathIdentifiers s.registry.taskNames := by
    rw [hnames]
    rfl
  unfold applyQuery
  rw [hanswer]
  cases s.vocabulary.answer query.text s.registry.pathIdentifiers s.registry.taskNames with
  | error fault => rfl
  | ok data =>
    have hmap := Registry.materialize_mapTasks hf w (fun name hook h => (hr name hook h).2) data query.descriptors
    obtain ⟨result, hresult⟩ :=
      Registry.contextFree_materialize (fun name hook h => (hr name hook h).1) w data query.descriptors
    rw [hresult, Effect.map_of] at hmap
    simp only [restate, hmap, hresult]
    cases result with
    | error fault => rfl
    | ok routes => exact Prod.ext rfl (Prod.ext rfl (App.mapTasks_extend app routes.app).symm)

/-- What the handlers of tasks are and what the context holds changes nothing about the outcome of a query. -/
theorem set_restate {s : Site} (c : Context)
    (hr : ∀ name hook, s.registry.hook? name = some hook → hook.Plain ∧ hook.Respects f) (w : Workspace)
    (app : App) (source : String) : (s.restate f c).set w (app.mapTasks f) source =
      Prod.map id (Prod.map (restate f c) (App.mapTasks f)) (s.set w app source) := by
  unfold set
  cases hload : PreparedQuery.load w source with
  | error fault => rfl
  | ok query =>
    obtain ⟨added, hadd, -, -⟩ := s.registry.addPaths_of_load hload
    have hmap : (s.restate f c).registry.addPaths query.paths =
        (.ok (), (s.registry.withPaths added).mapTasks f) := by
      rw [restate, Registry.addPaths_mapTasks, hadd]
      rfl
    have happly := applyQuery_restate hf (s := s.setRegistry (s.registry.withPaths added)) c hr w query app
    rw [← setRegistry_mapTasks hf] at happly
    simp only [hadd, hmap]
    exact happly

end Site

end
end RouteQuery
