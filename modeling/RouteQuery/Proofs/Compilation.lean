import RouteQuery.Proofs.Reachable
import RouteQuery.Proofs.RouteBlocks

/-! From route blocks to routes: what a query without annotations adds to an application. -/
namespace RouteQuery
open RouteBlock

namespace Registry

variable {r : Registry}

theorem task_scope (r : Registry) (w : Workspace) (name : String) :
    (r.scope w).task name =
      match r.task? name with
      | some task => .ok task
      | none => .error (.unknownTask name) := rfl

theorem chain_eq_ok (w : Workspace) {names : List String} (h : ∀ n ∈ names, n ∈ r.taskNames) :
    (r.scope w).chain names = .ok (names.filterMap r.task?) := by
  unfold HookScope.chain
  induction names with
  | nil => rfl
  | cons n names ih =>
    simp only [List.mem_cons, forall_eq_or_imp] at h
    obtain ⟨task, htask⟩ := exists_task?_iff.mpr h.1
    rw [List.mapM_cons, task_scope, htask, ih h.2, List.filterMap_cons_some htask]
    rfl

theorem names_chain {names : List String} (h : ∀ n ∈ names, n ∈ r.taskNames) :
    TaskChain.names (names.filterMap r.task?) = names := by
  induction names with
  | nil => rfl
  | cons n names ih =>
    simp only [List.mem_cons, forall_eq_or_imp] at h
    obtain ⟨task, htask⟩ := exists_task?_iff.mpr h.1
    have hname : task.name = n := by simpa using List.find?_some htask
    rw [List.filterMap_cons_some htask, TaskChain.names, List.map_cons, hname]
    exact congrArg (n :: ·) (ih h.2)

theorem addRoutes_verbs (w : Workspace) (tasks : Verb → List String) {verbs : List Verb}
    (h : ∀ verb ∈ verbs, ∀ t ∈ tasks verb, t ∈ r.taskNames) (router : PathRouter) :
    r.addRoutes w (verbs.map fun verb => (verb.name, .obj ((tasks verb).map fun t => (t, .str t))))
        router =
      .ok { router with
        routes := router.routes ++ verbs.map fun verb => (verb, (tasks verb).filterMap r.task?) } := by
  induction verbs generalizing router with
  | nil => simp [addRoutes]
  | cons verb verbs ih =>
    simp only [List.mem_cons, forall_eq_or_imp] at h
    have hnames : ((tasks verb).map fun t => (t, Json.str t)).map (·.1) = tasks verb := by
      rw [List.map_map]
      exact List.map_id' _
    have hchain := chain_eq_ok w h.1
    simp only [List.map_cons, addRoutes, Verb.ofName?_name, hnames, hchain]
    change r.addRoutes w _ (router.route verb _) = _
    rw [ih h.2, PathRouter.route]
    simp

end Registry

/-- One route for each verb, with all tasks for it. -/
def routesAt (r : Registry) (matcher : PathMatcher) (verbs : List (Verb × List String)) :
    List RouteEntry :=
  (verbs.map (·.1)).eraseDups.map fun verb =>
    { matcher
      method := .verb verb
      handler := .tasks ((tasksAt verbs verb).eraseDups.filterMap r.task?) [] }

def routeEntries (r : Registry) (matcher : String → PathMatcher) (blocks : List RouteBlock) :
    List RouteEntry :=
  (blocks.map (·.path)).eraseDups.flatMap fun path =>
    routesAt r (matcher path) (verbsAt blocks path)

theorem routeEntries_withPaths (r : Registry) (ids : List String) (matcher : String → PathMatcher)
    (blocks : List RouteBlock) :
    routeEntries (r.withPaths ids) matcher blocks = routeEntries r matcher blocks := by
  simp only [routeEntries, routesAt, Registry.task?_withPaths]

theorem PathMatcher.source_of_compile {path : RoutePath} {mode : MatchMode} {m : PathMatcher}
    (h : compile path mode = .ok m) : m.source = path := by
  unfold compile at h
  split at h
  · split at h
    · obtain rfl := Except.ok.inj h
      rfl
    · cases h
  · split at h
    · obtain rfl := Except.ok.inj h
      rfl
    · cases h

namespace Registry

variable {r : Registry}

theorem mount_routes {m : PathMatcher} {path : RoutePath} (h : PathMatcher.compile path .route = .ok m)
    (app : App) (routes : List (Verb × TaskChain)) :
    app.mount { path, routes } = .ok { app with
      entries := app.entries ++ routes.map fun (verb, chain) => ⟨m, .verb verb, .tasks chain []⟩ } := by
  rw [App.mount, h]
  rfl

theorem mountPaths_paths (w : Workspace) (hook : Hook) (matcher : String → PathMatcher)
    (verbs : String → List (Verb × List String)) {paths : List String}
    (hpath : ∀ path ∈ paths, r.path? (Escape.encode path) = some (RoutePath.ofText path))
    (hmatcher : ∀ path ∈ paths,
      PathMatcher.compile (RoutePath.ofText path) .route = .ok (matcher path))
    (htasks : ∀ path ∈ paths, ∀ verb, ∀ t ∈ tasksAt (verbs path) verb, t ∈ r.taskNames) (app : App) :
    r.mountPaths w hook []
        (paths.map fun path => (Escape.encode path, .obj (verbData (verbs path)))) app =
      pure ({ app with
          entries := app.entries ++ paths.flatMap fun path => routesAt r (matcher path) (verbs path) },
        paths.map Escape.encode) := by
  induction paths generalizing app with
  | nil => simp [mountPaths]
  | cons path paths ih =>
    simp only [List.mem_cons, forall_eq_or_imp] at hpath hmatcher htasks
    have hregistered : ∀ verb ∈ ((verbs path).map (·.1)).eraseDups,
        ∀ t ∈ (tasksAt (verbs path) verb).eraseDups, t ∈ r.taskNames :=
      fun verb _ t ht => htasks.1 verb t (List.mem_eraseDups.mp ht)
    have hroutes := addRoutes_verbs w (fun verb => (tasksAt (verbs path) verb).eraseDups) hregistered
      { path := RoutePath.ofText path }
    have hmount : (r.addRoutes w (verbData (verbs path)) { path := RoutePath.ofText path } >>=
        app.mount) = .ok { app with
          entries := app.entries ++ routesAt r (matcher path) (verbs path) } := by
      rw [verbData, hroutes]
      change app.mount _ = _
      rw [mount_routes hmatcher.1, List.nil_append, List.map_map]
      rfl
    simp only [List.map_cons, mountPaths, hpath.1, bindParams, pure_bind, hmount, Effect.of_ok,
      ih hpath.2 hmatcher.2 htasks.2, List.flatMap_cons, List.append_assoc]

theorem path?_encode (hr : r.Consistent) {blocks : List RouteBlock}
    (hvalid : ∀ b ∈ blocks, Valid r.taskNames b)
    (hpaths : ∀ b ∈ blocks, Escape.encode b.path ∈ r.pathIdentifiers) :
    ∀ path ∈ (blocks.map (·.path)).eraseDups,
      r.path? (Escape.encode path) = some (RoutePath.ofText path) := by
  intro path hpath
  obtain ⟨b, hb, rfl⟩ := List.mem_map.mp (List.mem_eraseDups.mp hpath)
  rw [hr.path?_eq (hpaths b hb), RoutePath.ofIdentifier_encode (hvalid b hb).path]

theorem materialize_pathData (hr : r.Consistent) (hparams : r.params = []) (w : Workspace)
    {blocks : List RouteBlock} (hvalid : ∀ b ∈ blocks, Valid r.taskNames b)
    (hpaths : ∀ b ∈ blocks, Escape.encode b.path ∈ r.pathIdentifiers)
    {matcher : String → PathMatcher}
    (hmatcher : ∀ b ∈ blocks,
      PathMatcher.compile (RoutePath.ofText b.path) .route = .ok (matcher b.path)) :
    r.materialize w (pathData blocks) [] =
      pure ⟨⟨routeEntries r matcher blocks, []⟩, [],
        (blocks.map (·.path)).eraseDups.map Escape.encode⟩ := by
  have hcompile : ∀ path ∈ (blocks.map (·.path)).eraseDups,
      PathMatcher.compile (RoutePath.ofText path) .route = .ok (matcher path) := by
    intro path hpath
    obtain ⟨b, hb, rfl⟩ := List.mem_map.mp (List.mem_eraseDups.mp hpath)
    exact hmatcher b hb
  have htasks : ∀ path ∈ (blocks.map (·.path)).eraseDups,
      ∀ verb, ∀ t ∈ tasksAt (verbsAt blocks path) verb, t ∈ r.taskNames :=
    fun _ _ _ _ ht => mem_of_mem_tasksAt hvalid ht
  have hmount := mountPaths_paths w Hook.param matcher (verbsAt blocks)
    (path?_encode hr hvalid hpaths) hcompile htasks {}
  have hhook : r.hook? Descriptor.param = some Hook.param := hr.hook?_builtin rfl
  rw [materialize, hparams, applyDescriptors, pure_bind]
  simp only [hhook]
  rw [pathData, hmount, pure_bind]
  rfl

end Registry

theorem Registry.texts_encode {r : Registry} (hr : r.Consistent) {blocks : List RouteBlock}
    (hvalid : ∀ b ∈ blocks, Valid r.taskNames b)
    (hpaths : ∀ b ∈ blocks, Escape.encode b.path ∈ r.pathIdentifiers) :
    (((blocks.map (·.path)).eraseDups.map Escape.encode).filterMap r.path?).map (·.text) =
      (blocks.map (·.path)).eraseDups := by
  have hwritten : (blocks.map (·.path)).eraseDups.filterMap (r.path? ∘ Escape.encode) =
      (blocks.map (·.path)).eraseDups.map RoutePath.ofText := by
    have hsome := List.filterMap_congr (path?_encode hr hvalid hpaths)
    exact hsome.trans (congrFun List.filterMap_eq_map _)
  rw [List.filterMap_map, hwritten, List.map_map]
  exact (List.map_congr_left fun path _ => RoutePath.text_ofText path).trans (List.map_id' _)

namespace Site

/-- A query of route blocks appends their routes to an application, whatever the site has been
through. No task is missing in a chain. -/
theorem set_queryText {s : Site} (hs : s.Reachable) (hparams : s.registry.params = [])
    (w : Workspace) (app : App) {blocks : List RouteBlock} (hne : blocks ≠ [])
    (hvalid : ∀ b ∈ blocks, Valid s.registry.taskNames b) {matcher : String → PathMatcher}
    (hmatcher : ∀ b ∈ blocks,
      PathMatcher.compile (RoutePath.ofText b.path) .route = .ok (matcher b.path)) :
    (∃ s', s.set w app (queryText blocks) =
        (.ok (), s', app.extend ⟨routeEntries s.registry matcher blocks, []⟩) ∧
      s'.registry.params = [] ∧ s'.ready = s.ready.emit (blocks.map (·.path)).eraseDups) ∧
    ∀ path verb,
      TaskChain.names ((tasksAt (verbsAt blocks path) verb).eraseDups.filterMap s.registry.task?) =
        (tasksAt (verbsAt blocks path) verb).eraseDups := by
  have htasks := hs.consistent.registry.vocabulary_wellFormed.isIdentifier_task
  have hload := load_queryText w hne hvalid htasks
  obtain ⟨added, hnodup, hadded, hset⟩ := set_of_load hload s app
  have hr := hs.consistent.registry.withPaths_of_load hload hnodup hadded
  have hpaths : ∀ b ∈ blocks, Escape.encode b.path ∈ (s.registry.withPaths added).pathIdentifiers := by
    intro b hb
    rw [Registry.pathIdentifiers_withPaths, List.mem_append, hadded]
    -- A path left behind by another query was registered under the same identifier.
    have hfound := mem_pathIdentifiers_queryText hvalid htasks hb
    by_cases hold : Escape.encode b.path ∈ s.registry.pathIdentifiers
    · exact .inl hold
    · exact .inr ⟨List.mem_eraseDups.mpr hfound, hold⟩
  have hanswer := answer_queryText hr.vocabulary_wellFormed hne hvalid hpaths
  have hroutes := Registry.materialize_pathData hr hparams w hvalid hpaths hmatcher
  have hready := Registry.texts_encode hr hvalid hpaths
  rw [routeEntries_withPaths] at hroutes
  have happly := applyQuery_of_ok (s := s.setRegistry (s.registry.withPaths added))
    (prepared blocks) app hanswer (congrFun hroutes s.context)
  rw [hset, happly]
  exact ⟨⟨_, rfl, rfl, congrArg s.ready.emit hready⟩, fun path verb =>
    Registry.names_chain fun t ht => mem_of_mem_tasksAt hvalid (List.mem_eraseDups.mp ht)⟩

theorem set_queryText_interleaved :
    ∃ s' app', stocked.set ⟨"/", []⟩ {} (queryText interleaved) = (.ok (), s', app') ∧
      app'.describe ⟨"/", []⟩ = ["GET /a -> log_request -> hello", "PUT /b.*/ -> hello"] := by
  have hs := reachable_stocked
  have hvalid : ∀ b ∈ interleaved, Valid stocked.registry.taskNames b := by
    rw [interleaved, List.forall_mem_cons, List.forall_mem_cons, List.forall_mem_cons]
    exact ⟨⟨⟨by decide, List.all_eq_true.mp (by decide)⟩, by decide, by decide, by decide⟩,
      ⟨⟨by decide, List.all_eq_true.mp (by decide)⟩, by decide, by decide, by decide⟩,
      ⟨⟨by decide, List.all_eq_true.mp (by decide)⟩, by decide, by decide, by decide⟩, by simp⟩
  have hcompile : ∀ path ∈ ["/a", "/b.*/"],
      (PathMatcher.compile (RoutePath.ofText path) .route).isOk = true := by decide +kernel
  obtain ⟨m, hm⟩ := exists_of_isOk (hcompile "/a" (by decide))
  obtain ⟨n, hn⟩ := exists_of_isOk (hcompile "/b.*/" (by decide))
  obtain ⟨matcher, hm, hn⟩ : ∃ matcher : String → PathMatcher,
      PathMatcher.compile (RoutePath.ofText "/a") .route = .ok (matcher "/a") ∧
      PathMatcher.compile (RoutePath.ofText "/b.*/") .route = .ok (matcher "/b.*/") :=
    ⟨fun path => if path = "/a" then m else n, hm, hn⟩
  have hmatcher : ∀ b ∈ interleaved,
      PathMatcher.compile (RoutePath.ofText b.path) .route = .ok (matcher b.path) := by
    rw [interleaved, List.forall_mem_cons, List.forall_mem_cons, List.forall_mem_cons]
    exact ⟨hm, hn, hm, by simp⟩
  obtain ⟨⟨s', hset, -⟩, -⟩ := set_queryText hs rfl ⟨"/", []⟩ {} (by simp [interleaved]) hvalid hmatcher
  refine ⟨s', _, hset, ?_⟩
  have hentries : routeEntries stocked.registry matcher interleaved =
      [⟨matcher "/a", .verb .get, .tasks [{ name := "log_request", handler := StockTasks.logRequest },
          { name := "hello", handler := StockTasks.hello }] []⟩,
        ⟨matcher "/b.*/", .verb .put, .tasks [{ name := "hello", handler := StockTasks.hello }] []⟩] := by
    rfl
  rw [hentries]
  simp only [App.describe, App.extend, RouteEntry.label, RouteEntry.kind, List.nil_append,
    List.map_cons, List.map_nil, PathMatcher.source_of_compile hm,
    PathMatcher.source_of_compile hn, RoutePath.text_ofText]
  decide +kernel

end Site
end RouteQuery
