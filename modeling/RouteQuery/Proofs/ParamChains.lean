import RouteQuery.Proofs.ParamNames
import RouteQuery.Proofs.ParamTable
import RouteQuery.Proofs.TaskPlans
import RouteQuery.Dispatch

/-! Chains for parameters: they run for what a route has captured, before the chain of the route, and
for nothing else. -/
namespace RouteQuery
open Http

/-! ### Steps that pass a request on -/

/-- A call in which a task passes the request on once, whatever stands behind it. -/
def Task.PassesOn (task : Task) (req : Request) (remaining : Nat) (e : Exchange) (req' : Request)
    (context : Context) (finish : Response × Context → Response × Context) : Prop :=
  ∀ run : Request → Action Response,
    task.handler req ⟨remaining, run⟩ e = (Decision.pass req' context finish).run ⟨remaining, run⟩ e

/-- The last word on a response. -/
def Exchange.finishing (finish : Response × Context → Response × Context)
    (result : Response × Exchange) : Response × Exchange :=
  let outcome := finish (result.1, result.2.context)
  (outcome.1, { result.2 with context := outcome.2 })

namespace Step

def call (s : Step) (req : Request) (remaining : Nat) : Visit :=
  ⟨s.task.name, s.param, req.params, remaining⟩

/-- A request gets through steps, with `behind` others behind them, when each of their tasks passes
it on. The calls are noted on the way. -/
inductive Through (behind : Nat) : List Step → Request → Exchange → Request → Exchange →
    (Response × Context → Response × Context) → Prop
  | nil (req : Request) (e : Exchange) : Through behind [] req e req e id
  | cons {s : Step} {rest : List Step} {req req₁ req' : Request} {e e' : Exchange} {context : Context}
      {finish finish' : Response × Context → Response × Context}
      (hpass : s.task.PassesOn { req with param := s.param } (rest.length + behind)
        { e with visits := s.call req (rest.length + behind) :: e.visits } req₁ context finish)
      (hrest : Through behind rest req₁
        ⟨context, s.call req (rest.length + behind) :: e.visits⟩ req' e' finish') :
      Through behind (s :: rest) req e req' e' (finish ∘ finish')

/-- What stands behind steps that a request gets through runs with what they make of the request. -/
theorem run_of_through {next : Request → Action Response} {steps rest : List Step}
    {req req' : Request} {e e' : Exchange} {finish : Response × Context → Response × Context}
    (h : Through rest.length steps req e req' e' finish) :
    run next (steps ++ rest) req e = Exchange.finishing finish (run next rest req' e') := by
  induction h with
  | nil req e => rfl
  | @cons s steps req req₁ req' e e' context finish finish' hpass hrest ih =>
    have hrun : run next (s :: steps ++ rest) req e =
        s.task.handler { req with param := s.param }
          ⟨steps.length + rest.length, run next (steps ++ rest)⟩
          { e with visits := s.call req (steps.length + rest.length) :: e.visits } := by
      rw [← List.length_append]
      rfl
    have hpassed := hpass (run next (steps ++ rest))
    rw [hrun, hpassed]
    change Exchange.finishing finish (run next (steps ++ rest) req₁ _) = _
    rw [ih]
    rfl

/-- The tasks of the steps are called in order, each with its parameter. -/
theorem visits_of_through {behind : Nat} {steps : List Step} {req req' : Request} {e e' : Exchange}
    {finish : Response × Context → Response × Context}
    (h : Through behind steps req e req' e' finish) :
    ∃ calls : List Visit, e'.visits = calls.reverse ++ e.visits ∧
      calls.map (fun v => (v.task, v.param)) = steps.map fun s => (s.task.name, s.param) := by
  induction h with
  | nil req e => exact ⟨[], rfl, rfl⟩
  | @cons s steps req req₁ req' e e' context finish finish' hpass hrest ih =>
    obtain ⟨calls, hvisits, hcalls⟩ := ih
    refine ⟨s.call req (steps.length + behind) :: calls, ?_, ?_⟩
    · rw [hvisits]
      simp
    · rw [List.map_cons, List.map_cons, hcalls]
      rfl

end Step

/-! ### The chains for a route -/

namespace Registry

variable {r : Registry}

/-- The tasks that the descriptor of a parameter names. -/
def paramArgs (r : Registry) (name : String) : List String :=
  ((r.params.lookup (Escape.colonToken ++ name)).map (·.args)).getD []

def paramChain (r : Registry) (name : String) : TaskChain := (r.paramArgs name).filterMap r.task?

/-- The chain for a parameter as the routes of an identifier have it. -/
def chainFor (r : Registry) (identifier name : String) : TaskChain :=
  if Text.occursIn (Escape.colonToken ++ name).toList identifier.toList then r.paramChain name else []

/-- A chain for each capture, in order. -/
def paramSteps (r : Registry) (identifier : String) (found : PathMatch) : List Step :=
  found.params.flatMap fun (name, value) => Step.ofChain (r.chainFor identifier name) (some ⟨name, value⟩)

/-- Of the chains bound for an identifier, those for one parameter: the one from the table, if its
key stands in the identifier. -/
theorem filter_bindings (h : Descriptor.Keyed r.params) (identifier name : String) :
    (r.bindings r.params identifier).filter (·.name == name) =
      if Text.occursIn (Escape.colonToken ++ name).toList identifier.toList then
        (r.params.lookup (Escape.colonToken ++ name)).toList.map fun d =>
          ⟨d.value, d.args.filterMap r.task?⟩
      else [] := by
  have hvalue : (r.bindings r.params identifier).filter (·.name == name) =
      ((r.params.filter (·.2.value == name)).filter fun p =>
        Text.occursIn p.1.toList identifier.toList).map fun p =>
          ⟨p.2.value, p.2.args.filterMap r.task?⟩ := by
    rw [bindings, List.filter_map, List.filter_comm]
    rfl
  rw [hvalue, h.filter_value]
  cases r.params.lookup (Escape.colonToken ++ name) with
  | none => simp
  | some d =>
    rw [Option.toList_some, List.map_singleton, List.filter_singleton]
    cases Text.occursIn (Escape.colonToken ++ name).toList identifier.toList <;> rfl

theorem steps_bindings (h : Descriptor.Keyed r.params) (identifier : String) (found : PathMatch)
    (chain : TaskChain) :
    found.steps chain (r.bindings r.params identifier) =
      r.paramSteps identifier found ++ Step.ofChain chain none := by
  rw [PathMatch.steps, paramSteps]
  congr 2
  funext ⟨name, value⟩
  simp only [filter_bindings h, chainFor, paramChain, paramArgs]
  split
  · cases r.params.lookup (Escape.colonToken ++ name) <;> simp [Step.ofChain]
  · rfl

/-- All steps for parameters are for what was captured. -/
theorem captured_of_mem_paramSteps {identifier : String} {found : PathMatch} {s : Step}
    (h : s ∈ r.paramSteps identifier found) :
    ∃ p, s.param = some p ∧ (p.name, p.value) ∈ found.params ∧ s.task ∈ r.chainFor identifier p.name := by
  obtain ⟨⟨name, value⟩, hcapture, hs⟩ := List.mem_flatMap.mp h
  obtain ⟨task, htask, rfl⟩ := List.mem_map.mp hs
  exact ⟨_, rfl, hcapture, htask⟩

end Registry

theorem RoutePath.eq_decode_of_literal {identifier text : String}
    (h : ofIdentifier identifier = .literal text) : text = Escape.decode identifier := by
  unfold ofIdentifier at h
  split at h
  · cases h
  · exact (RoutePath.literal.inj h).symm

/-- The parameters of a match are the groups that took part in it, in the order of the pattern. -/
theorem PathMatcher.params_of_matches? {m : PathMatcher} {path : List Char} {found : PathMatch}
    (h : m.matches? path = some found) :
    ∃ value? : Nat → Option String, found.params =
      (m.keys.zipIdx 1).filterMap fun (key, i) => (value? i).map (key, ·) := by
  unfold matches? at h
  split at h
  · cases h
  · next p _ =>
    dsimp only at h
    split_ifs at h
    obtain rfl := Option.some.inj h
    refine ⟨fun i => (p.captured.lookup i).map String.ofList, ?_⟩
    simp [Option.map_map, Function.comp_def]

namespace Registry

variable {r : Registry}

/-- What holds of a route with parameters, and of each request that its entry handles. -/
structure RunsParamChains (r : Registry) (w : Workspace) (route : PathRoute) (entry : RouteEntry) :
    Prop where
  entryFor : r.EntryFor r.params route entry
  /-- The chains for captures run first. Once their tasks have passed the request on, the chain of the
  route runs, and then what is behind the entry. -/
  runs : ∀ {rest : List RouteEntry} {req req' : Request} {found : PathMatch} {e e' : Exchange}
    {finish : Response × Context → Response × Context},
    entry.accepts? req = some found →
    Step.Through route.tasks.length (r.paramSteps route.identifier found)
      { req with params := some (RouteParams.ofCaptures found.params) } e req' e' finish →
    dispatch w (entry :: rest) req e = Exchange.finishing finish
      (Step.run (dispatch w rest) (Step.ofChain (route.tasks.filterMap r.task?) none) req' e') ∧
    ∃ calls : List Visit, e'.visits = calls.reverse ++ e.visits ∧
      calls.map (fun v => (v.task, v.param)) =
        (r.paramSteps route.identifier found).map fun s => (s.task.name, s.param)
  captured : ∀ (found : PathMatch), ∀ s ∈ r.paramSteps route.identifier found,
    ∃ p, s.param = some p ∧ (p.name, p.value) ∈ found.params
  /-- In a literal path, captures are segments in their order, and the whole chain in the table runs
  for each `:name` among them. -/
  literal : ∀ text, r.path? route.identifier = some (.literal text) →
    ∃ ps, PathTemplate.pieces 0 text.toList = .ok ps ∧
      (∀ req found, entry.accepts? req = some found → ∃ value? : Nat → Option String, found.params =
        ((PathTemplate.Piece.keys 0 ps).zipIdx 1).filterMap fun (key, i) => (value? i).map (key, ·)) ∧
      ∀ name, .param name ∈ ps →
        r.chainFor route.identifier name = r.paramChain name ∧
        (r.paramChain name).names = r.paramArgs name

theorem occursIn_of_param (h : r.Consistent) {identifier text name : String}
    {ps : List PathTemplate.Piece} (hpath : r.path? identifier = some (.literal text))
    (hps : PathTemplate.pieces 0 text.toList = .ok ps) (hname : .param name ∈ ps) :
    Text.occursIn (Escape.colonToken ++ name).toList identifier.toList = true := by
  have hmem : identifier ∈ r.pathIdentifiers := by
    by_contra hout
    rw [path?_eq_none_iff.mpr hout] at hpath
    cases hpath
  have hliteral : RoutePath.ofIdentifier identifier = .literal text :=
    Option.some.inj ((h.path?_eq hmem).symm.trans hpath)
  have hword := all_isWordChar_of_isIdentifier
    (QueryText.isIdentifier_of_isPathIdentifier (h.isPathIdentifier hmem))
  have hcolon : ':' ∉ identifier.toList := fun hin =>
    absurd (List.all_eq_true.mp hword _ hin) (by decide)
  obtain ⟨hchars, before, after, hsplit⟩ := PathTemplate.of_param_mem_pieces hps hname
  rw [RoutePath.eq_decode_of_literal hliteral, Escape.decode, String.toList_ofList] at hsplit
  rw [Text.occursIn_iff, String.toList_append]
  exact Escape.colonToken_infix hcolon hchars hsplit

theorem EntryFor.names_paramChain {route : PathRoute} {entry : RouteEntry}
    (h : r.EntryFor r.params route entry) {name : String}
    (hoccurs : Text.occursIn (Escape.colonToken ++ name).toList route.identifier.toList = true) :
    (r.paramChain name).names = r.paramArgs name := by
  refine names_chain fun t ht => ?_
  unfold paramArgs at ht
  cases hlookup : r.params.lookup (Escape.colonToken ++ name) with
  | none =>
    rw [hlookup] at ht
    cases ht
  | some d =>
    rw [hlookup] at ht
    obtain ⟨before, after, hsplit, -⟩ := List.lookup_eq_some_iff.mp hlookup
    exact h.bound (Escape.colonToken ++ name, d) (by simp [hsplit]) hoccurs t ht

theorem EntryFor.runsParamChains (h : r.Consistent) (hkeyed : Descriptor.Keyed r.params)
    (w : Workspace) {route : PathRoute} {entry : RouteEntry}
    (hentry : r.EntryFor r.params route entry) : r.RunsParamChains w route entry where
  entryFor := hentry
  runs := by
    intro rest req req' found e e' finish haccepts hthrough
    have hlength : (Step.ofChain (route.tasks.filterMap r.task?) none).length = route.tasks.length := by
      have hnames := congrArg List.length (names_chain hentry.tasks)
      simpa [TaskChain.names, Step.ofChain] using hnames
    have hdispatch : dispatch w (entry :: rest) req e =
        Step.run (dispatch w rest) (r.paramSteps route.identifier found ++
          Step.ofChain (route.tasks.filterMap r.task?) none)
          { req with params := some (RouteParams.ofCaptures found.params) } e := by
      rw [dispatch, haccepts]
      simp only [hentry.handler, steps_bindings hkeyed]
    rw [← hlength] at hthrough
    rw [hdispatch]
    exact ⟨Step.run_of_through hthrough, Step.visits_of_through hthrough⟩
  captured := fun found s hs => by
    obtain ⟨p, hparam, hcapture, -⟩ := captured_of_mem_paramSteps hs
    exact ⟨p, hparam, hcapture⟩
  literal := by
    intro text htext
    obtain ⟨path, hpath, hcompile⟩ := hentry.matcher
    obtain rfl := Option.some.inj (htext.symm.trans hpath)
    obtain ⟨ps, hps, hkeys⟩ := PathMatcher.keys_of_compile hcompile
    refine ⟨ps, hps, fun req found haccepts => ?_, fun name hname => ?_⟩
    · rw [← hkeys]
      unfold RouteEntry.accepts? at haccepts
      split at haccepts
      · exact PathMatcher.params_of_matches? haccepts
      · cases haccepts
    · have hoccurs := occursIn_of_param h htext hps hname
      exact ⟨if_pos hoccurs, hentry.names_paramChain hoccurs⟩

end Registry

namespace Site

/-- Each route of a query that is applied runs the chains for what a request has captured, and no
others. The chains are those in the table of parameters after the query. -/
theorem set_runsParamChains {s s' : Site} (h : s.Reachable) {w : Workspace} {app app' : App}
    {source : String} (hset : s.set w app source = (.ok (), s', app')) :
    ∃ query data hooked routed, PreparedQuery.load w source = .ok query ∧
      s'.answer query.text = .ok data ∧
      s'.registry.params = Descriptor.commit s.registry.params query.descriptors ∧
      app'.entries = app.entries ++ hooked ++ routed ∧
      List.Forall₂ (s'.registry.RunsParamChains w) (routesOf data) routed := by
  have hs' : s'.Reachable := by
    have hstep := h.step (.set s w app source)
    rwa [hset] at hstep
  obtain ⟨query, data, routes, happlies⟩ := of_set_eq_ok hset
  obtain ⟨hparams, hooked, routed, hentries, hrouted⟩ := happlies.entries hs'.consistent
  exact ⟨query, data, hooked, routed, happlies.load, happlies.answer, hparams, hentries,
    hrouted.imp fun _ _ hentry => hentry.runsParamChains hs'.consistent.registry hs'.keyed w⟩

/-! ### A chain for the parameter of one route -/

def userQuery : String := "@param id: log_request\n\x7b /:id \x7b GET \x7b hello \x7d \x7d \x7d"

def userDescriptor : Descriptor := ⟨"param", "id", ["log_request"]⟩

def userData : List (String × Json) :=
  [("_slash__colon_id", .obj [("GET", .obj [("hello", .str "hello")])])]

def userRequest : Request := { method := "GET", uri := ⟨"/42".toList, none⟩, headers := [], body := [] }

/-- The tasks that come with the library, and the path of the query. -/
def users : Registry := stocked.registry.withPaths ["_slash__colon_id"]

def userRouter : PathRouter where
  path := .literal "/:id"
  params := [⟨"id", (StockTasks.all (.constant "0")).take 1⟩]

def helloChain : TaskChain := ((StockTasks.all (.constant "0")).drop 2).take 1

def userEntry (m : PathMatcher) : RouteEntry :=
  ⟨m, .verb .get, .tasks helloChain userRouter.params⟩

/-- The query as it is parsed. -/
def userText : String := "\n\x7b _slash__colon_id \x7b GET \x7b hello \x7d \x7d \x7d"

theorem load_userQuery (w : Workspace) : PreparedQuery.load w userQuery =
    .ok ⟨[userDescriptor], userText.toList, ["_slash__colon_id"]⟩ := by
  have hdescriptors : Descriptor.parseAll userQuery.toList = .ok [userDescriptor] := rfl
  have hstrip : QueryText.stripDescriptors (QueryText.stripComments userQuery.toList) =
      "\n\x7b /:id \x7b GET \x7b hello \x7d \x7d \x7d".toList := rfl
  have hencode : Escape.encodeChars "\n\x7b /:id \x7b GET \x7b hello \x7d \x7d \x7d".toList =
      userText.toList := by decide
  have hfound : QueryText.pathIdentifiers userText.toList = ["_slash__colon_id"] := by decide +kernel
  rw [PreparedQuery.load_of_stripped (by decide) hdescriptors hstrip (by simp), hencode, hfound]
  rfl

def userSelections : List Selection := [.branch "_slash__colon_id" [.branch "GET" [.leaf "hello"]]]

theorem parse_userText : Document.parse userText.toList = .ok ⟨none, userSelections⟩ := by
  have hnames : Selection.AllNames (isIdentifier · = true) userSelections := by
    simp only [userSelections, Selection.AllNames, and_true]
    decide
  have htext : userText.toList = '\n' :: '{' :: ' ' :: ((Selection.text userSelections).toList ++ ['}']) := by
    simp [userText, userSelections, Selection.text]
  refine Document.parse_of_tokens (List.cons_ne_nil _ _) ?_ ?_
  · simp [userSelections, Selection.Filled]
  · rw [htext, tokens_newline, tokens_openBrace, tokens_space, Selection.tokens_text hnames,
      tokens_closeBrace, tokens_nil]

theorem path?_users : users.path? "_slash__colon_id" = some (.literal "/:id") := by
  have htext : RoutePath.IsText "/:id" := ⟨by decide, List.all_eq_true.mp (by decide)⟩
  have hencode : Escape.encode "/:id" = "_slash__colon_id" := by decide
  have hpath := RoutePath.ofIdentifier_encode htext
  rw [hencode] at hpath
  exact congrArg some hpath

theorem materialize_users (w : Workspace) {m : PathMatcher}
    (hm : PathMatcher.compile (.literal "/:id") .route = .ok m) (c : Context) :
    users.materialize w userData [userDescriptor] c =
      (.ok ⟨⟨[userEntry m], []⟩, [("_colon_id", userDescriptor)], ["_slash__colon_id"]⟩, c) := by
  have happlied : users.applyDescriptors w [userDescriptor] {} users.params =
      pure ({}, [("_colon_id", userDescriptor)]) := rfl
  have hhook : users.hook? Descriptor.param = some Hook.param := rfl
  have hbound : users.bindParams w Hook.param "_slash__colon_id" [("_colon_id", userDescriptor)]
      { path := .literal "/:id" } = pure userRouter := rfl
  have hmount : (users.addRoutes w [("GET", .obj [("hello", .str "hello")])] userRouter >>=
      App.mount {}) = .ok { entries := [userEntry m] } := by
    change App.mount {} (userRouter.route .get helloChain) = _
    rw [App.mount, PathRouter.route, userRouter, hm]
    rfl
  rw [Registry.materialize, happlied, userData]
  simp only [pure_bind, hhook, Registry.mountPaths, path?_users, hbound, hmount, Effect.of_ok]
  rfl

theorem set_userQuery (w : Workspace) {m : PathMatcher}
    (hm : PathMatcher.compile (.literal "/:id") .route = .ok m) :
    ∃ s', stocked.set w {} userQuery = (.ok (), s', { entries := [userEntry m] }) ∧
      s'.registry = { users with params := [("_colon_id", userDescriptor)] } ∧
      s'.answer userText.toList = .ok userData := by
  have hs := reachable_stocked
  obtain ⟨added, hnodup, hadded, hset⟩ := set_of_load (load_userQuery w) stocked {}
  have hr := hs.consistent.registry.withPaths_of_load (load_userQuery w) hnodup hadded
  obtain rfl := added_eq_singleton hnodup List.not_mem_nil hadded
  have hroutable : (stocked.setRegistry users).Routable ⟨none, userSelections⟩ := by
    refine List.forall_mem_singleton.mpr ⟨_, by decide, _, rfl, ?_⟩
    refine List.forall_mem_singleton.mpr ⟨.get, _, rfl, ?_⟩
    exact List.forall_mem_singleton.mpr ⟨_, by decide, rfl⟩
  have htree : Selection.data (Selection.merge userSelections) = userData := by
    simp [userSelections, Selection.merge, Execution.childrenOf, Execution.othersThan, Selection.data,
      userData]
  have hanswer := answer_of_routable (consistent_setRegistry hs.consistent hr) parse_userText
    hroutable
  rw [htree] at hanswer
  have happly := applyQuery_of_ok (w := w) ⟨[userDescriptor], _, ["_slash__colon_id"]⟩ {} hanswer
    (materialize_users w hm _)
  exact ⟨_, hset.trans happly, rfl, hanswer⟩

theorem passesOn_logRequest {task : Task} (h : task.handler = StockTasks.logRequest) (req : Request)
    (remaining : Nat) (e : Exchange) : task.PassesOn req remaining e req e.context id := by
  intro run
  rw [h]
  rfl

/-- The task for the parameter is called with what was captured, before that of the route. -/
theorem set_runsParamChains_users : ∃ s' entry,
    stocked.set ⟨"/", []⟩ {} userQuery = (.ok (), s', { entries := [entry] }) ∧
    (dispatch ⟨"/", []⟩ [entry] userRequest {}).2.visits.reverse.map (fun v => (v.task, v.param)) =
      [("log_request", some ⟨"id", "42"⟩), ("hello", none)] := by
  have hs := reachable_stocked
  have hmatch : ((PathMatcher.compile (.literal "/:id") .route).toOption.bind
      (·.matches? "/42".toList)) = some ⟨[("id", "42")], []⟩ := by decide +kernel
  obtain ⟨m, hm, haccepts⟩ := Option.bind_eq_some_iff.mp hmatch
  obtain ⟨s', hset, hregistry, hdata⟩ := set_userQuery ⟨"/", []⟩ (eq_ok_of_toOption hm)
  obtain ⟨query, data, hooked, routed, hload, hanswer, -, hentries, hrouted⟩ :=
    set_runsParamChains hs hset
  obtain rfl := Except.ok.inj ((load_userQuery ⟨"/", []⟩).symm.trans hload)
  obtain rfl := Except.ok.inj (hdata.symm.trans hanswer)
  have hroutes : routesOf userData = [⟨"_slash__colon_id", .get, ["hello"]⟩] := rfl
  rw [hroutes] at hrouted
  obtain ⟨entry, rest, hentry, hnil, rfl⟩ := List.forall₂_cons_left_iff.mp hrouted
  obtain rfl := List.forall₂_nil_left_iff.mp hnil
  have hentries : [] ++ [userEntry m] = hooked ++ [entry] := hentries
  obtain ⟨-, hsame⟩ := List.append_inj' hentries rfl
  obtain rfl := (List.cons.inj hsame).1
  have hsteps : s'.registry.paramSteps "_slash__colon_id" ⟨[("id", "42")], []⟩ =
      Step.ofChain ((StockTasks.all (.constant "0")).take 1) (some ⟨"id", "42"⟩) := by
    rw [hregistry]
    rfl
  have hthrough : Step.Through 1 (Step.ofChain ((StockTasks.all (.constant "0")).take 1) (some ⟨"id", "42"⟩))
      { userRequest with params := some [("id", "42")] } {} _ _ _ :=
    .cons (passesOn_logRequest rfl _ _ _) (.nil _ _)
  rw [← hsteps] at hthrough
  have haccepts : (userEntry m).accepts? userRequest = some ⟨[("id", "42")], []⟩ := haccepts
  obtain ⟨hrun, -⟩ := hentry.runs haccepts hthrough
  refine ⟨s', userEntry m, hset, ?_⟩
  rw [hrun, hregistry]
  rfl

end Site
end RouteQuery
