import Mathlib.Data.List.Forall2
import RouteQuery.Proofs.Compilation
import RouteQuery.Proofs.Routable

/-! Routes taken apart: which answer, chains and bindings stand behind each entry that a query adds. -/
namespace RouteQuery

/-- A verb of a path in an answer, with the tasks below it. -/
structure PathRoute where
  identifier : String
  verb : Verb
  tasks : List String

def verbRoute? (name : String) : Json → Option (Verb × List String)
  | .obj tasks => (Verb.ofName? name).map fun verb => (verb, tasks.map (·.1))
  | _ => none

def verbRoutes (verbs : List (String × Json)) : List (Verb × List String) :=
  verbs.filterMap fun v => verbRoute? v.1 v.2

theorem verbRoutes_cons (name : String) (tasks : Json) (verbs : List (String × Json)) :
    verbRoutes ((name, tasks) :: verbs) = (verbRoute? name tasks).toList ++ verbRoutes verbs := by
  cases h : verbRoute? name tasks <;> simp [verbRoutes, h]

/-- What is shown of the entry for a route, told by names alone. -/
def PathRoute.label (params : List (String × Descriptor)) (route : PathRoute) : String :=
  let chains := (params.filter fun p => Text.occursIn p.1.toList route.identifier.toList).foldl
    (fun s p => s ++ " [param " ++ p.2.value ++ ": " ++ arrows p.2.args ++ "]") (arrows route.tasks)
  route.verb.name ++ " " ++ (RoutePath.ofIdentifier route.identifier).text ++ " -> " ++ chains

/-- All that an answer asks for, in its order. -/
def routesOf (data : List (String × Json)) : List PathRoute :=
  data.flatMap fun (identifier, verbs) =>
    match verbs with
    | .obj verbs => (verbRoutes verbs).map fun (verb, tasks) => ⟨identifier, verb, tasks⟩
    | _ => []

namespace Registry

variable {r : Registry} {w : Workspace}

theorem of_chain_eq_ok {names : List String} {chain : TaskChain}
    (h : (r.scope w).chain names = .ok chain) :
    chain = names.filterMap r.task? ∧ ∀ n ∈ names, n ∈ r.taskNames := by
  have hnames : ∀ n ∈ names, n ∈ r.taskNames := by
    unfold HookScope.chain at h
    induction names generalizing chain with
    | nil => simp
    | cons n names ih =>
      rw [List.mapM_cons] at h
      obtain ⟨task, htask, hrest⟩ := exists_of_bind_eq_ok h
      obtain ⟨rest, hrest, -⟩ := exists_of_bind_eq_ok hrest
      rw [task_scope] at htask
      have hknown : n ∈ r.taskNames := by
        rw [← exists_task?_iff]
        split at htask
        · next task' hfound => exact ⟨task', hfound⟩
        · cases htask
      exact List.forall_mem_cons.mpr ⟨hknown, ih hrest⟩
  exact ⟨Except.ok.inj (h.symm.trans (chain_eq_ok w hnames)), hnames⟩

/-- The chains of the parameters that an identifier contains. -/
def bindings (r : Registry) (params : List (String × Descriptor)) (identifier : String) :
    List ParamBinding :=
  (params.filter fun p => Text.occursIn p.1.toList identifier.toList).map fun p =>
    ⟨p.2.value, p.2.args.filterMap r.task?⟩

/-- All arguments of the parameters that an identifier contains are registered. -/
def Bound (r : Registry) (params : List (String × Descriptor)) (identifier : String) : Prop :=
  ∀ p ∈ params, Text.occursIn p.1.toList identifier.toList = true → ∀ t ∈ p.2.args, t ∈ r.taskNames

theorem of_bindParams_eq_ok {identifier : String} {params : List (String × Descriptor)}
    {router router' : PathRouter} {c c' : Context}
    (h : r.bindParams w Hook.param identifier params router c = (.ok router', c')) :
    router' = { router with params := router.params ++ r.bindings params identifier } ∧
      r.Bound params identifier := by
  induction params generalizing router c with
  | nil =>
    obtain ⟨rfl, -⟩ := Effect.eq_of_pure h
    simp [bindings, Bound]
  | cons p params ih =>
    obtain ⟨key, d⟩ := p
    rw [bindParams] at h
    by_cases hkey : Text.occursIn key.toList identifier.toList = true
    · rw [if_pos hkey] at h
      obtain ⟨router₁, c₁, h₁, h₂⟩ := Effect.exists_of_bind h
      obtain ⟨hbind, -⟩ := Effect.eq_ok_of_of h₁
      obtain ⟨chain, hchain, rfl⟩ := exists_of_map_eq_ok hbind
      obtain ⟨rfl, hargs⟩ := of_chain_eq_ok hchain
      obtain ⟨rfl, hbound⟩ := ih h₂
      refine ⟨by simp [PathRouter.bind, bindings, hkey], ?_⟩
      exact List.forall_mem_cons.mpr ⟨fun _ => hargs, hbound⟩
    · rw [if_neg hkey] at h
      obtain ⟨rfl, hbound⟩ := ih h
      refine ⟨by simp [bindings, hkey], ?_⟩
      exact List.forall_mem_cons.mpr ⟨fun hocc => absurd hocc hkey, hbound⟩

theorem addRoutes_cons (r : Registry) (w : Workspace) (name : String) (tasks : Json)
    (rest : List (String × Json)) (router : PathRouter) :
    r.addRoutes w ((name, tasks) :: rest) router =
      match verbRoute? name tasks with
      | none => r.addRoutes w rest router
      | some (verb, names) =>
        (r.scope w).chain names >>= fun chain => r.addRoutes w rest (router.route verb chain) := by
  rw [addRoutes.eq_def]
  cases tasks <;> cases hverb : Verb.ofName? name <;> simp only [verbRoute?, hverb] <;> rfl

theorem of_addRoutes_eq_ok {verbs : List (String × Json)} {router router' : PathRouter}
    (h : r.addRoutes w verbs router = .ok router') :
    router' = { router with
        routes := router.routes ++ (verbRoutes verbs).map fun v => (v.1, v.2.filterMap r.task?) } ∧
      ∀ v ∈ verbRoutes verbs, ∀ t ∈ v.2, t ∈ r.taskNames := by
  induction verbs generalizing router with
  | nil =>
    obtain rfl := Except.ok.inj h
    simp [verbRoutes]
  | cons v verbs ih =>
    obtain ⟨name, tasks⟩ := v
    rw [addRoutes_cons] at h
    rw [verbRoutes_cons]
    cases hroute : verbRoute? name tasks with
    | none =>
      rw [hroute] at h
      exact ih h
    | some v =>
      rw [hroute] at h
      obtain ⟨chain, hchain, hrest⟩ := exists_of_bind_eq_ok h
      obtain ⟨rfl, hknown⟩ := of_chain_eq_ok hchain
      obtain ⟨rfl, htasks⟩ := ih hrest
      exact ⟨by simp [PathRouter.route], List.forall_mem_cons.mpr ⟨hknown, htasks⟩⟩

end Registry

theorem App.of_mount_eq_ok {app app' : App} {router : PathRouter} (h : app.mount router = .ok app') :
    ∃ matcher, PathMatcher.compile router.path .route = .ok matcher ∧
      app' = { app with entries := app.entries ++ router.routes.map fun (verb, chain) =>
        ⟨matcher, .verb verb, .tasks chain router.params⟩ } := by
  obtain ⟨matcher, hmatcher, hentries⟩ := exists_of_bind_eq_ok h
  exact ⟨matcher, hmatcher, (Except.ok.inj hentries).symm⟩

namespace Registry

variable {r : Registry} {w : Workspace}

/-- The entry that a route stands for, when it is there: its path compiles, and all its tasks and
those of its parameters are registered. -/
structure EntryFor (r : Registry) (params : List (String × Descriptor)) (route : PathRoute)
    (entry : RouteEntry) : Prop where
  matcher : ∃ path, r.path? route.identifier = some path ∧
    PathMatcher.compile path .route = .ok entry.matcher
  method : entry.method = .verb route.verb
  handler : entry.handler =
    .tasks (route.tasks.filterMap r.task?) (r.bindings params route.identifier)
  tasks : ∀ t ∈ route.tasks, t ∈ r.taskNames
  bound : r.Bound params route.identifier

theorem EntryFor.label_eq {params : List (String × Descriptor)} {route : PathRoute} {entry : RouteEntry}
    (hr : r.Consistent) (h : r.EntryFor params route entry) (w : Workspace) :
    entry.label w = route.label params := by
  obtain ⟨path, hpath, hcompile⟩ := h.matcher
  have hbindings : ∀ s : String, (r.bindings params route.identifier).foldl
      (fun s b => s ++ " [param " ++ b.name ++ ": " ++ arrows b.chain.names ++ "]") s =
      (params.filter fun p => Text.occursIn p.1.toList route.identifier.toList).foldl
        (fun s p => s ++ " [param " ++ p.2.value ++ ": " ++ arrows p.2.args ++ "]") s := by
    intro s
    rw [bindings, List.foldl_map]
    refine List.foldl_ext _ _ s fun label p hp => ?_
    obtain ⟨hmem, hoccurs⟩ := List.mem_filter.mp hp
    rw [names_chain (h.bound p hmem hoccurs)]
  rw [RouteEntry.label, RouteEntry.kind, h.handler, h.method, PathMatcher.source_of_compile hcompile,
    hr.ofIdentifier_of_path? hpath]
  simp only [hbindings, names_chain h.tasks, PathRoute.label]

theorem labels_eq {params : List (String × Descriptor)} {routes : List PathRoute} {entries : List RouteEntry}
    (hr : r.Consistent) (h : List.Forall₂ (r.EntryFor params) routes entries) (w : Workspace) :
    entries.map (·.label w) = routes.map (·.label params) := by
  induction h with
  | nil => rfl
  | cons hentry _ ih => rw [List.map_cons, List.map_cons, ih, hentry.label_eq hr]

/-- Every path that is mounted has its entries in the order of the answer, and nothing else is. -/
theorem of_mountPaths_eq_ok {params : List (String × Descriptor)} {data : List (String × Json)}
    {app app' : App} {paths : List String} {c c' : Context}
    (h : r.mountPaths w Hook.param params data app c = (.ok (app', paths), c')) :
    ∃ routed, app' = { app with entries := app.entries ++ routed } ∧
      List.Forall₂ (r.EntryFor params) (routesOf data) routed := by
  induction data generalizing app app' paths c c' with
  | nil =>
    obtain ⟨hpair, -⟩ := Effect.eq_of_pure h
    obtain ⟨rfl, -⟩ := Prod.mk.inj hpair
    exact ⟨[], by simp, .nil⟩
  | cons entry rest ih =>
    obtain ⟨identifier, verbs⟩ := entry
    cases hpath : r.path? identifier with
    | none =>
      rw [mountPaths, hpath] at h
      cases h
    | some path =>
      rw [mountPaths, hpath] at h
      obtain ⟨router, c₁, hrouter, h₁⟩ := Effect.exists_of_bind h
      obtain ⟨rfl, hbound⟩ := of_bindParams_eq_ok hrouter
      cases verbs with
      | obj verbs =>
        obtain ⟨app₁, c₂, hof, h₂⟩ := Effect.exists_of_bind h₁
        obtain ⟨hmounted, -⟩ := Effect.eq_ok_of_of hof
        obtain ⟨router, hrouter, hmount⟩ := exists_of_bind_eq_ok hmounted
        obtain ⟨rfl, htasks⟩ := of_addRoutes_eq_ok hrouter
        obtain ⟨matcher, hmatcher, rfl⟩ := App.of_mount_eq_ok hmount
        obtain ⟨⟨app₂, paths₂⟩, c₃, hrest, h₃⟩ := Effect.exists_of_bind h₂
        obtain ⟨hpair, -⟩ := Effect.eq_of_pure h₃
        obtain ⟨rfl, -⟩ := Prod.mk.inj hpair
        obtain ⟨routed, rfl, hrouted⟩ := ih hrest
        refine ⟨(verbRoutes verbs).map (fun v => ⟨matcher, .verb v.1,
          .tasks (v.2.filterMap r.task?) (r.bindings params identifier)⟩) ++ routed, ?_, ?_⟩
        · simp
        · rw [routesOf, List.flatMap_cons]
          refine List.rel_append ?_ hrouted
          rw [List.forall₂_map_left_iff, List.forall₂_map_right_iff, List.forall₂_same]
          exact fun v hv => ⟨⟨path, hpath, hmatcher⟩, rfl, rfl, htasks v hv, hbound⟩
      | _ => exact ih h₁

theorem of_materialize_eq_ok {data : List (String × Json)} {descriptors : List Descriptor}
    {routes : Materialized} {c c' : Context} (hparam : r.hook? Descriptor.param = some Hook.param)
    (h : r.materialize w data descriptors c = (.ok routes, c')) :
    ∃ hooked routed c₁,
      r.applyDescriptors w descriptors {} r.params c = (.ok (hooked, routes.params), c₁) ∧
      routes.app = { hooked with entries := hooked.entries ++ routed } ∧
      List.Forall₂ (r.EntryFor routes.params) (routesOf data) routed := by
  rw [materialize] at h
  obtain ⟨⟨hooked, params⟩, c₁, happlied, h₁⟩ := Effect.exists_of_bind h
  rw [hparam] at h₁
  obtain ⟨⟨app, paths⟩, c₂, hmount, h₂⟩ := Effect.exists_of_bind h₁
  obtain ⟨rfl, -⟩ := Effect.eq_of_pure h₂
  obtain ⟨routed, rfl, hrouted⟩ := of_mountPaths_eq_ok hmount
  exact ⟨hooked, routed, c₁, happlied, rfl, hrouted⟩

end Registry

namespace Site

/-- The stages of a query that is applied. Its answer and its routes come from what is registered
afterwards, but for the parameters, which the routes bring with them. -/
structure AppliesAs (s : Site) (w : Workspace) (app : App) (source : String) (s' : Site) (app' : App)
    (query : PreparedQuery) (data : List (String × Json)) (routes : Materialized) : Prop where
  load : PreparedQuery.load w source = .ok query
  registry : ∃ added, added.Nodup ∧
    (∀ id, id ∈ added ↔ id ∈ query.paths ∧ id ∉ s.registry.pathIdentifiers) ∧
    s'.registry = { s.registry.withPaths added with params := routes.params }
  answer : s'.answer query.text = .ok data
  made : { s'.registry with params := s.registry.params }.materialize w data query.descriptors
    s.context = (.ok routes, s'.context)
  app_eq : app' = app.extend routes.app

theorem of_set_eq_ok {s s' : Site} {w : Workspace} {app app' : App} {source : String}
    (h : s.set w app source = (.ok (), s', app')) :
    ∃ query data routes, s.AppliesAs w app source s' app' query data routes := by
  cases hload : PreparedQuery.load w source with
  | error fault =>
    rw [set_of_load_error hload] at h
    cases h
  | ok query =>
    obtain ⟨added, hnodup, hadded, hset⟩ := set_of_load hload s app
    rw [hset, applyQuery] at h
    split at h
    · cases h
    · next data hdata =>
      split at h
      · cases h
      · next routes context hroutes =>
        cases h
        exact ⟨query, data, routes,
          { load := hload
            registry := ⟨added, hnodup, hadded, rfl⟩
            answer := hdata
            made := hroutes
            app_eq := rfl }⟩

end Site
end RouteQuery
