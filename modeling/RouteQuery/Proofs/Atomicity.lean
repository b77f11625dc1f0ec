import RouteQuery.Proofs.ParamHistory
import RouteQuery.Proofs.QueryPrinting

/-! Applying a query is all or nothing, whatever its hooks do. -/
namespace RouteQuery.Site

/-- What is left of a query that failed: nothing but paths from its text, behind those that were
registered, and not even these when the query did not load. -/
structure Unapplied (w : Workspace) (source : String) (s s' : Site) : Prop where
  tasks : s'.registry.tasks = s.registry.tasks
  options : s'.registry.options = s.registry.options
  hooks : s'.registry.hooks = s.registry.hooks
  params : s'.registry.params = s.registry.params
  /-- The generation, and all that any subscriber is still to receive. -/
  ready : s'.ready = s.ready
  paths : ∃ added : List String, s'.registry.paths =
      s.registry.paths ++ added.map (fun id => (id, RoutePath.ofIdentifier id)) ∧
    ∀ id ∈ added, ∃ query, PreparedQuery.load w source = .ok query ∧
      id ∈ QueryText.pathIdentifiers query.text
  unloaded : ∀ fault, PreparedQuery.load w source = .error fault → s' = s

structure Applied (s s' : Site) (app app' : App) : Prop where
  entries : app.entries <+: app'.entries
  parsers : app.parsers <+: app'.parsers
  generation : s'.generation = s.generation + 1
  /-- One event, which every subscriber receives behind all others. -/
  event : ∃ paths, s'.ready = s.ready.emit paths ∧
    (∀ subscriber : Ready.Subscriber, subscriber.seen ≤ s.generation →
      s'.ready.pending subscriber =
        Ready.Signal.latest (s.ready.pending subscriber ++ [⟨s'.generation, paths⟩])) ∧
    s'.ready.receive s.ready.subscribe = (.event ⟨s'.generation, paths⟩, s'.ready.subscribe) ∧
    s'.ready.receive s'.ready.subscribe = (.empty, s'.ready.subscribe)

theorem unapplied_refl (w : Workspace) (source : String) (s : Site) : Unapplied w source s s where
  tasks := rfl
  options := rfl
  hooks := rfl
  params := rfl
  ready := rfl
  paths := ⟨[], by simp⟩
  unloaded _ _ := rfl

theorem unapplied_of_load {w : Workspace} {source : String} {query : PreparedQuery}
    (h : PreparedQuery.load w source = .ok query) (s : Site) {added : List String}
    (hadded : ∀ id ∈ added, id ∈ query.paths) (context : Context) :
    Unapplied w source s { s.setRegistry (s.registry.withPaths added) with context } where
  tasks := rfl
  options := rfl
  hooks := rfl
  params := rfl
  ready := rfl
  paths := ⟨added, rfl, fun id hid =>
    ⟨query, h, (PreparedQuery.mem_paths_of_load h).mp (hadded id hid)⟩⟩
  unloaded fault hfault := by
    rw [h] at hfault
    cases hfault

/-- A query is applied as a whole or, but for its paths, not at all. -/
theorem set_applied_or_unapplied {s : Site} (h : s.Reachable) (w : Workspace) (app : App)
    (source : String) :
    match s.set w app source with
    | (.error _, s', app') => app' = app ∧ Unapplied w source s s'
    | (.ok (), s', app') => Applied s s' app app' := by
  cases hload : PreparedQuery.load w source with
  | error fault =>
    rw [set_of_load_error hload]
    exact ⟨rfl, unapplied_refl w source s⟩
  | ok query =>
    obtain ⟨added, -, hadded, hset⟩ := set_of_load hload s app
    have hpaths : ∀ id ∈ added, id ∈ query.paths := fun id hid => ((hadded id).mp hid).1
    rw [hset]
    rcases applyQuery_cases (s.setRegistry (s.registry.withPaths added)) w query app with
      ⟨fault, context, hs⟩ | ⟨routes, context, hs⟩
    · rw [hs]
      exact ⟨rfl, unapplied_of_load hload s hpaths context⟩
    · rw [hs]
      have hready := h.consistent.ready
      exact
        { entries := List.prefix_append ..
          parsers := List.prefix_append ..
          generation := rfl
          event := ⟨_, rfl, Ready.Signal.pending_emit hready _,
            Ready.Signal.receive_emit_subscribe hready _⟩ }

section
open RouteBlock

theorem redefinedParam_eq :
    redefinedParam = "@param id: hello -> hello\n\x7b /:id \x7b GET \x7b hello \x7d \x7d \x7d" := by
  rw [redefinedParam, queryText_greetAt]
  rfl

theorem paths_greetAt_id : (prepared (greetAt "/:id")).paths = ["_slash__colon_id"] := by
  have hfound : QueryText.pathIdentifiers (Escape.encodeChars (queryText (greetAt "/:id")).toList) =
      ["_slash__colon_id"] := by
    rw [queryText_greetAt]
    decide +kernel
  rw [prepared, hfound]
  rfl

/-- What a call has left that commits a parameter and routes a path without it. -/
structure Greeted (s : Site) (app : App) : Prop where
  reachable : s.Reachable
  tasks : s.registry.taskNames = ["hello"]
  paths : s.registry.pathIdentifiers = ["_slash_a"]
  params : s.registry.params = [("_colon_id", userDescriptor)]
  generation : s.generation = 1
  routes : app.describe ⟨"/", []⟩ = ["GET /a -> hello"]
  parsers : app.parsers = [⟨.json, {}⟩]

theorem exists_greeted : ∃ s app, Greeted s app := by
  have hpath : RoutePath.IsText "/a" := ⟨by decide, List.all_eq_true.mp (by decide)⟩
  have hs := reachable_greeting.consistent
  obtain ⟨s, app, hset, hreachable, hparams, htasks⟩ := set_unusedParam (App.useParser {} ⟨.json, {}⟩)
  have hpaths := pathIdentifiers_of_set (s := greeting) accepts_unusedParam.load paths_greetAt_a
    List.not_mem_nil (App.useParser {} ⟨.json, {}⟩)
  rw [hset] at hpaths
  obtain ⟨hparsers, hroutes⟩ := app_greetAt hs hpath hset accepts_unusedParam
    (List.forall_mem_singleton.mpr rfl) ⟨"/", []⟩
  rw [hparams] at hroutes
  obtain ⟨_, _, _, _, happlies, -⟩ := applies_of_set hs hset
  exact ⟨s, app, hreachable, htasks, hpaths, hparams, congrArg Ready.Signal.generation happlies.ready,
    hroutes.trans (by decide +kernel), hparsers⟩

variable {s : Site} {app : App}

theorem Greeted.refuses (h : Greeted s app) : ∃ s' app', s.set ⟨"/", []⟩ app (queryText (greetAt "/:id")) =
      (.error (.unknownTask "log_request"), s', app') ∧
    s'.registry.pathIdentifiers = ["_slash_a", "_slash__colon_id"] := by
  obtain ⟨haccepts, s', app', hset⟩ := set_after_unusedParam h.reachable.consistent h.params h.tasks app
  have hnew : "_slash__colon_id" ∉ s.registry.pathIdentifiers := by
    rw [h.paths]
    decide
  have hpaths := pathIdentifiers_of_set haccepts.load paths_greetAt_id hnew app
  rw [hset, h.paths] at hpaths
  exact ⟨s', app', hset, hpaths⟩

theorem Greeted.accepts_redefined (h : Greeted s app) :
    ∃ s' app', s.set ⟨"/", []⟩ app redefinedParam = (.ok (), s', app') ∧
    s'.generation = 2 ∧ (s'.ready.receive s.ready.subscribe).1 = .event ⟨2, ["/:id"]⟩ ∧
    app'.parsers = [⟨.json, {}⟩] ∧
    app'.describe ⟨"/", []⟩ = ["GET /a -> hello", "GET /:id -> hello [param id: hello -> hello]"] := by
  have hpath : RoutePath.IsText "/:id" := ⟨by decide, List.all_eq_true.mp (by decide)⟩
  have hs := h.reachable.consistent
  obtain ⟨haccepts, s', app', hset⟩ := set_redefinedParam hs h.params h.tasks app
  obtain ⟨hparsers, hroutes⟩ := app_greetAt hs hpath hset haccepts (List.forall_mem_singleton.mpr rfl) ⟨"/", []⟩
  obtain ⟨_, _, _, _, happlies, -⟩ := applies_of_set hs hset
  obtain ⟨rfl, rfl⟩ := haccepts.unique happlies.accepts
  have hparams : s'.registry.params = [("_colon_id", greetedTwice)] := by
    rw [happlies.params, h.params]
    rfl
  rw [h.routes, hparams] at hroutes
  have hevent := (Ready.Signal.receive_emit_subscribe hs.ready ["/:id"]).1
  have hready : s'.ready = s.ready.emit ["/:id"] :=
    happlies.ready.trans (congrArg s.ready.emit (by decide +kernel))
  have hgeneration : s'.generation = s.generation + 1 := congrArg Ready.Signal.generation happlies.ready
  refine ⟨s', app', hset, hgeneration.trans (by rw [h.generation]), ?_, hparsers.trans h.parsers,
    hroutes.trans (by decide +kernel)⟩
  rw [hready, hevent]
  exact congrArg (fun n => Ready.Received.event ⟨n + 1, _⟩) h.generation

/-- Of two calls on one site with one application the first is refused when its path has been registered,
for a task that the committed parameter calls for, and leaves nothing but the path. The other one, which
gives the parameter anew, is applied. -/
theorem set_applied_or_unapplied_greeted : ∃ s app, s.Reachable ∧ s.registry.taskNames = ["hello"] ∧
    s.registry.pathIdentifiers = ["_slash_a"] ∧
    s.registry.params = [("_colon_id", ⟨"param", "id", ["log_request"]⟩)] ∧ s.generation = 1 ∧
    app.describe ⟨"/", []⟩ = ["GET /a -> hello"] ∧ app.parsers = [⟨.json, {}⟩] ∧
    (∃ s', s.set ⟨"/", []⟩ app "\x7b /:id \x7b GET \x7b hello \x7d \x7d \x7d" =
        (.error (.unknownTask "log_request"), s', app) ∧
      s'.registry.pathIdentifiers = ["_slash_a", "_slash__colon_id"] ∧
      Unapplied ⟨"/", []⟩ "\x7b /:id \x7b GET \x7b hello \x7d \x7d \x7d" s s') ∧
    ∃ s' app', s.set ⟨"/", []⟩ app "@param id: hello -> hello\n\x7b /:id \x7b GET \x7b hello \x7d \x7d \x7d" =
        (.ok (), s', app') ∧
      s'.generation = 2 ∧ (s'.ready.receive s.ready.subscribe).1 = .event ⟨2, ["/:id"]⟩ ∧
      app'.parsers = [⟨.json, {}⟩] ∧
      app'.describe ⟨"/", []⟩ = ["GET /a -> hello", "GET /:id -> hello [param id: hello -> hello]"] ∧
      Applied s s' app app' := by
  obtain ⟨s, app, h⟩ := exists_greeted
  have htext : queryText (greetAt "/:id") = "\x7b /:id \x7b GET \x7b hello \x7d \x7d \x7d" :=
    queryText_greetAt "/:id"
  rw [← htext, ← redefinedParam_eq]
  refine ⟨s, app, h.reachable, h.tasks, h.paths, h.params, h.generation, h.routes, h.parsers, ?_, ?_⟩
  · have hrefused := set_applied_or_unapplied h.reachable ⟨"/", []⟩ app (queryText (greetAt "/:id"))
    obtain ⟨s', app', hset, hpaths⟩ := h.refuses
    rw [hset] at hrefused
    obtain ⟨rfl, hunapplied⟩ := hrefused
    exact ⟨s', hset, hpaths, hunapplied⟩
  · have happlied := set_applied_or_unapplied h.reachable ⟨"/", []⟩ app redefinedParam
    obtain ⟨s', app', hset, hgeneration, hevent, hparsers, hroutes⟩ := h.accepts_redefined
    rw [hset] at happlied
    exact ⟨s', app', hset, hgeneration, hevent, hparsers, hroutes, happlied⟩

end

end RouteQuery.Site
