import RouteQuery.Dispatch
import RouteQuery.Proofs.TaskPlans

/-! The entries that accept a request as one stack, laid flat, and how far the request gets in it. -/
namespace RouteQuery
open Http

/-! ### Captures -/

theorem Json.lookup_put {α : Type} (members : List (String × α)) (key : String) (value : α)
    (name : String) :
    (Json.put members key value).lookup name = if name = key then some value else members.lookup name := by
  induction members with
  | nil =>
    by_cases h : name = key <;> simp [Json.put, List.lookup_cons, h, beq_false_of_ne]
  | cons member members ih =>
    obtain ⟨k, v⟩ := member
    by_cases hk : k = key
    · subst hk
      by_cases h : name = k <;> simp [Json.put, List.lookup_cons, h, beq_false_of_ne]
    · by_cases h : name = k
      · subst h
        simp [Json.put, hk]
      · simp [Json.put, hk, List.lookup_cons, beq_false_of_ne h, ih]

/-- Of a name that was captured more than once the last value counts. -/
theorem RouteParams.lookup_ofCaptures (captures : List (String × String)) (name : String) :
    (RouteParams.ofCaptures captures).lookup name = captures.reverse.lookup name := by
  -- Over any accumulator, since later captures overwrite what is there.
  have hfold : ∀ acc : List (String × String),
      (captures.foldl (fun params c => Json.put params c.1 c.2) acc).lookup name =
        (captures.reverse.lookup name).or (acc.lookup name) := by
    induction captures with
    | nil => simp
    | cons capture captures ih =>
      intro acc
      obtain ⟨key, value⟩ := capture
      rw [List.foldl_cons, ih, Json.lookup_put, List.reverse_cons, List.lookup_append, Option.or_assoc]
      by_cases h : name = key <;> simp [h, beq_false_of_ne]
  exact (hfold []).trans (by simp)

/-! ### The stack -/

/-- One thing on the way of a request: a task with the captures of its entry and the number of tasks
behind it in there, or a directory. -/
inductive Layer where
  | step (params : RouteParams) (step : Step) (remaining : Nat)
  | files (directory : Http.StaticFiles) (found : PathMatch)

namespace Layer

def ofSteps (params : RouteParams) : List Step → List Layer
  | [] => []
  | s :: rest => .step params s rest.length :: ofSteps params rest

def visit? : Layer → Option Visit
  | step params s remaining => some ⟨s.task.name, s.param, some params, remaining⟩
  | files .. => none

def visits (layers : List Layer) : List Visit := layers.filterMap visit?

end Layer

def RouteEntry.layers (entry : RouteEntry) (req : Request) : List Layer :=
  match entry.accepts? req with
  | none => []
  | some found =>
    match entry.handler with
    | .tasks chain params => Layer.ofSteps (RouteParams.ofCaptures found.params) (found.steps chain params)
    | .files directory => [.files directory found]

def stack (entries : List RouteEntry) (req : Request) : List Layer :=
  entries.flatMap (·.layers req)

theorem accepts?_congr {req req' : Request} (hmethod : req'.method = req.method)
    (huri : req'.uri = req.uri) (entry : RouteEntry) : entry.accepts? req' = entry.accepts? req := by
  rw [RouteEntry.accepts?, RouteEntry.accepts?, hmethod, huri]

theorem stack_congr {req req' : Request} (hmethod : req'.method = req.method)
    (huri : req'.uri = req.uri) (entries : List RouteEntry) : stack entries req' = stack entries req := by
  simp only [stack, RouteEntry.layers, accepts?_congr hmethod huri]

def RouteEntry.tasks (entry : RouteEntry) : List Task :=
  match entry.handler with
  | .tasks chain params => chain ++ params.flatMap (·.chain)
  | .files _ => []

theorem mem_tasks_of_mem_steps {found : PathMatch} {chain : TaskChain} {params : List ParamBinding}
    {s : Step} (h : s ∈ found.steps chain params) :
    s.task ∈ chain ++ params.flatMap (·.chain) := by
  rcases List.mem_append.mp h with h | h
  · obtain ⟨⟨name, value⟩, -, h⟩ := List.mem_flatMap.mp h
    obtain ⟨b, hb, h⟩ := List.mem_flatMap.mp h
    obtain ⟨task, htask, rfl⟩ := List.mem_map.mp h
    exact List.mem_append_right _ (List.mem_flatMap.mpr ⟨b, (List.mem_filter.mp hb).1, htask⟩)
  · obtain ⟨task, htask, rfl⟩ := List.mem_map.mp h
    exact List.mem_append_left _ htask

/-! ### The way of a request -/

/-- The request as a task of the stack receives it. -/
def Layer.request (params : RouteParams) (s : Step) (req : Request) : Request :=
  { req with params := some params, param := s.param }

structure Serves (w : Workspace) (directory : Http.StaticFiles) (found : PathMatch) (req : Request)
    (response : Response) : Prop where
  method : req.method = "GET" ∨ req.method = "HEAD"
  response_eq : directory.serve w (found.below req.uri) req.headers = response
  found : response.status ≠ 404

/-- The directory has no answer: for the method, or because there is no such file. -/
def Declines (w : Workspace) (directory : Http.StaticFiles) (found : PathMatch) (req : Request) :
    Prop :=
  ¬(req.method = "GET" ∨ req.method = "HEAD") ∨
    (directory.serve w (found.below req.uri) req.headers).status = 404

theorem serves_of_serve? {w : Workspace} {directory : Http.StaticFiles} {found : PathMatch}
    {req : Request} {response : Response}
    (h : StaticFiles.serve? w directory req found = some response) :
    Serves w directory found req response := by
  unfold StaticFiles.serve? at h
  split at h
  · next hmethod =>
    obtain ⟨hresponse, hstatus⟩ := Option.filter_eq_some_iff.mp h
    exact ⟨hmethod, Option.some.inj hresponse, by simpa using hstatus⟩
  · cases h

theorem declines_of_serve? {w : Workspace} {directory : Http.StaticFiles} {found : PathMatch}
    {req : Request} (h : StaticFiles.serve? w directory req found = none) :
    Declines w directory found req := by
  unfold StaticFiles.serve? at h
  split at h
  · exact .inr (by simpa using h)
  · next hmethod => exact .inl hmethod

section
variable (w : Workspace) (plan : Task → TaskPlan)

/-- A request gets through layers when each task passes it on and each directory declines it. What
the tasks have to say on a response is said in the reverse order. -/
inductive Passes : List Layer → Request × Context → Request × Context →
    (Response × Context → Response × Context) → Prop
  | nil (place : Request × Context) : Passes [] place place id
  | step {params : RouteParams} {s : Step} {remaining : Nat} {rest : List Layer} {req req' : Request}
      {context context' : Context} {place : Request × Context}
      {finish finish' : Response × Context → Response × Context}
      (hplan : plan s.task (Layer.request params s req) remaining context = .pass req' context' finish)
      (hrest : Passes rest (req', context') place finish') :
      Passes (.step params s remaining :: rest) (req, context) place (finish ∘ finish')
  | files {directory : Http.StaticFiles} {found : PathMatch} {rest : List Layer} {req : Request}
      {context : Context} {place : Request × Context}
      {finish : Response × Context → Response × Context} (h : Declines w directory found req)
      (hrest : Passes rest (req, context) place finish) :
      Passes (.files directory found :: rest) (req, context) place finish

/-- A request ends where a task answers it, where a directory does, or behind the last layer. -/
inductive Ends : List Layer → Request × Context → List Visit → Response × Context → Prop
  | exhausted (req : Request) (context : Context) : Ends [] (req, context) [] (.notFound, context)
  | answered {params : RouteParams} {s : Step} {remaining : Nat} {rest : List Layer} {req : Request}
      {context : Context} {outcome : Response × Context}
      (hplan : plan s.task (Layer.request params s req) remaining context = .answer outcome) :
      Ends (.step params s remaining :: rest) (req, context)
        [⟨s.task.name, s.param, some params, remaining⟩] outcome
  | served {directory : Http.StaticFiles} {found : PathMatch} {rest : List Layer} {req : Request}
      {context : Context} {response : Response} (h : Serves w directory found req response) :
      Ends (.files directory found :: rest) (req, context) [] (response, context)

/-- A result that comes from a request on its way through layers. -/
def Travels (layers : List Layer) (req : Request) (e : Exchange) (result : Response × Exchange) :
    Prop :=
  ∃ passed rest place finish last outcome,
    layers = passed ++ rest ∧ Passes w plan passed (req, e.context) place finish ∧
      Ends w plan rest place last outcome ∧
      result = ((finish outcome).1,
        ⟨(finish outcome).2, (Layer.visits passed ++ last).reverse ++ e.visits⟩)

variable {w plan}

theorem travels_of_ends {layers : List Layer} {req : Request} {e : Exchange} {last : List Visit}
    {outcome : Response × Context} (h : Ends w plan layers (req, e.context) last outcome) :
    Travels w plan layers req e (outcome.1, ⟨outcome.2, last.reverse ++ e.visits⟩) :=
  ⟨[], layers, _, id, last, outcome, rfl, .nil _, h, by simp [Layer.visits]⟩

theorem travels_files {layers : List Layer} {directory : Http.StaticFiles} {found : PathMatch}
    {req : Request} {e : Exchange} {result : Response × Exchange}
    (h : Declines w directory found req) (hrest : Travels w plan layers req e result) :
    Travels w plan (.files directory found :: layers) req e result := by
  obtain ⟨passed, rest, place, finish, last, outcome, rfl, hpasses, hends, rfl⟩ := hrest
  exact ⟨.files directory found :: passed, rest, place, finish, last, outcome, rfl,
    .files h hpasses, hends, rfl⟩

theorem travels_step {layers : List Layer} {params : RouteParams} {s : Step} {remaining : Nat}
    {req req' : Request} {context : Context} {e after : Exchange} {response : Response}
    {finish : Response × Context → Response × Context}
    (hplan : plan s.task (Layer.request params s req) remaining e.context = .pass req' context finish)
    (hrest : Travels w plan layers req'
      ⟨context, ⟨s.task.name, s.param, some params, remaining⟩ :: e.visits⟩ (response, after)) :
    Travels w plan (.step params s remaining :: layers) req e
      ((finish (response, after.context)).1,
        { after with context := (finish (response, after.context)).2 }) := by
  obtain ⟨passed, rest, place, finish', last, outcome, rfl, hpasses, hends, hresult⟩ := hrest
  obtain ⟨rfl, rfl⟩ := Prod.mk.inj hresult
  refine ⟨.step params s remaining :: passed, rest, place, finish ∘ finish', last, outcome, rfl,
    .step hplan hpasses, hends, ?_⟩
  simp [Layer.visits, Layer.visit?]

theorem travels_run {next : Request → Action Response} {layers : List Layer} {params : RouteParams}
    {steps : List Step} {req : Request} (hsteps : ∀ s ∈ steps, s.task.Follows (plan s.task))
    (hnext : ∀ req' e, req'.method = req.method → req'.uri = req.uri →
      Travels w plan layers req' e (next { req' with params := some params } e)) (e : Exchange) :
    Travels w plan (Layer.ofSteps params steps ++ layers) req e
      (Step.run next steps { req with params := some params } e) := by
  induction steps generalizing req e with
  | nil => exact hnext req e rfl rfl
  | cons s rest ih =>
    simp only [List.mem_cons, forall_eq_or_imp] at hsteps
    have hrun : Step.run next (s :: rest) { req with params := some params } e =
        (plan s.task (Layer.request params s req) rest.length e.context).run
          ⟨rest.length, Step.run next rest⟩
          { e with visits := ⟨s.task.name, s.param, some params, rest.length⟩ :: e.visits } :=
      hsteps.1.handler_eq _ _ _
    rw [hrun, Layer.ofSteps, List.cons_append]
    cases hplan : plan s.task (Layer.request params s req) rest.length e.context with
    | answer outcome => exact travels_of_ends (.answered hplan)
    | pass req' context finish =>
      have hkept := hsteps.1.sameRouting hplan
      have hmethod : req'.method = req.method := hkept.method
      have huri : req'.uri = req.uri := hkept.uri
      -- The next task gets the request as this one leaves it, with the captures still in place.
      have hparams : { req' with params := some params } = req' := by
        rw [show some params = req'.params from hkept.params.symm]
      have hrest := ih hsteps.2
        (fun req'' e hmethod' huri' => hnext req'' e (hmethod'.trans hmethod) (huri'.trans huri))
        ⟨context, ⟨s.task.name, s.param, some params, rest.length⟩ :: e.visits⟩
      rw [hparams] at hrest
      exact travels_step hplan hrest

/-- A request travels through the stack that its entries make, whatever was captured before. -/
theorem travels_dispatch {entries : List RouteEntry}
    (h : ∀ entry ∈ entries, ∀ task ∈ entry.tasks, task.Follows (plan task)) (req : Request)
    (captured : Option RouteParams) (e : Exchange) :
    Travels w plan (stack entries req) req e
      (dispatch w entries { req with params := captured } e) := by
  induction entries generalizing req captured e with
  | nil => exact travels_of_ends (.exhausted req e.context)
  | cons entry rest ih =>
    simp only [List.mem_cons, forall_eq_or_imp] at h
    have hsame : entry.accepts? { req with params := captured } = entry.accepts? req := rfl
    rw [stack, List.flatMap_cons, RouteEntry.layers, dispatch, hsame]
    cases haccepts : entry.accepts? req with
    | none => exact ih h.2 req captured e
    | some found =>
      cases hhandler : entry.handler with
      | tasks chain params =>
        have hsteps : ∀ s ∈ found.steps chain params, s.task.Follows (plan s.task) := by
          intro s hs
          apply h.1
          rw [RouteEntry.tasks, hhandler]
          exact mem_tasks_of_mem_steps hs
        -- Behind the chain the captures of this entry are replaced by those of the next one.
        have hnext : ∀ req' e, req'.method = req.method → req'.uri = req.uri →
            Travels w plan (stack rest req) req' e (dispatch w rest
              { req' with params := some (RouteParams.ofCaptures found.params) } e) := by
          intro req' e hmethod huri
          rw [← stack_congr hmethod huri]
          exact ih h.2 req' _ e
        exact travels_run hsteps hnext e
      | files directory =>
        have hserves : StaticFiles.serve? w directory { req with params := captured } found =
            StaticFiles.serve? w directory req found := rfl
        simp only [hserves]
        cases hserve : StaticFiles.serve? w directory req found with
        | none => exact travels_files (declines_of_serve? hserve) (ih h.2 req captured e)
        | some response => exact travels_of_ends (.served (serves_of_serve? hserve))

end

/-! ### What tasks are called with -/

/-- A call on behalf of an entry: with all that the entry captured, of equal names the last, and for
one of these captures if for any. -/
structure Visit.Sees (v : Visit) (found : PathMatch) : Prop where
  params : ∃ params, v.params = some params ∧
    ∀ name, params.lookup name = found.params.reverse.lookup name
  param : ∀ p, v.param = some p → (p.name, p.value) ∈ found.params

theorem mem_visits_ofSteps {params : RouteParams} {steps : List Step} {v : Visit}
    (h : v ∈ Layer.visits (Layer.ofSteps params steps)) :
    v.params = some params ∧ ∃ s ∈ steps, v.param = s.param := by
  induction steps with
  | nil => cases h
  | cons s rest ih =>
    rcases List.mem_cons.mp h with rfl | h
    · exact ⟨rfl, s, List.mem_cons_self, rfl⟩
    · obtain ⟨hparams, s', hs', hparam⟩ := ih h
      exact ⟨hparams, s', List.mem_cons_of_mem _ hs', hparam⟩

theorem mem_params_of_mem_steps {found : PathMatch} {chain : TaskChain} {params : List ParamBinding}
    {s : Step} (h : s ∈ found.steps chain params) {p : PathParam} (hp : s.param = some p) :
    (p.name, p.value) ∈ found.params := by
  rcases List.mem_append.mp h with h | h
  · obtain ⟨⟨name, value⟩, hcapture, h⟩ := List.mem_flatMap.mp h
    obtain ⟨b, -, h⟩ := List.mem_flatMap.mp h
    obtain ⟨task, -, rfl⟩ := List.mem_map.mp h
    obtain rfl := Option.some.inj hp
    exact hcapture
  · obtain ⟨task, -, rfl⟩ := List.mem_map.mp h
    cases hp

theorem sees_of_mem_visits {entries : List RouteEntry} {req : Request} {v : Visit}
    (h : v ∈ Layer.visits (stack entries req)) :
    ∃ entry ∈ entries, ∃ found, entry.accepts? req = some found ∧ v.Sees found := by
  obtain ⟨layer, hlayer, hv⟩ := List.mem_filterMap.mp h
  obtain ⟨entry, hentry, hlayer⟩ := List.mem_flatMap.mp hlayer
  rw [RouteEntry.layers] at hlayer
  cases haccepts : entry.accepts? req with
  | none =>
    rw [haccepts] at hlayer
    cases hlayer
  | some found =>
    refine ⟨entry, hentry, found, haccepts, ?_⟩
    rw [haccepts] at hlayer
    simp only at hlayer
    split at hlayer
    · next chain params hhandler =>
      have hmem := List.mem_filterMap.mpr ⟨layer, hlayer, hv⟩
      obtain ⟨hparams, s, hs, hparam⟩ := mem_visits_ofSteps hmem
      exact ⟨⟨_, hparams, RouteParams.lookup_ofCaptures found.params⟩,
        fun p hp => mem_params_of_mem_steps hs (hparam.symm.trans hp)⟩
    · obtain rfl := List.mem_singleton.mp hlayer
      cases hv

theorem visits_append_prefix {w : Workspace} {plan : Task → TaskPlan} {passed rest : List Layer}
    {place : Request × Context} {last : List Visit} {outcome : Response × Context}
    (h : Ends w plan rest place last outcome) :
    Layer.visits passed ++ last <+: Layer.visits (passed ++ rest) := by
  rw [Layer.visits, Layer.visits, List.filterMap_append]
  refine List.prefix_append_right_inj _ |>.mpr ?_
  cases h with
  | exhausted => exact List.prefix_refl _
  | answered => exact ⟨_, rfl⟩
  | served => exact List.nil_prefix

/-- If its tasks follow plans, dispatch takes a request through a first part of the stack and ends
where that part does; the tasks called are those of this part, in order, each with what its entry
captured. -/
theorem dispatch_through_stack (w : Workspace) {plan : Task → TaskPlan} {entries : List RouteEntry}
    (h : ∀ entry ∈ entries, ∀ task ∈ entry.tasks, task.Follows (plan task)) (req : Request)
    (e : Exchange) :
    ∃ passed rest place finish last outcome, stack entries req = passed ++ rest ∧
      Passes w plan passed (req, e.context) place finish ∧ Ends w plan rest place last outcome ∧
      dispatch w entries req e = ((finish outcome).1,
        ⟨(finish outcome).2, (Layer.visits passed ++ last).reverse ++ e.visits⟩) ∧
      Layer.visits passed ++ last <+: Layer.visits (stack entries req) ∧
      ∀ v ∈ Layer.visits passed ++ last,
        ∃ entry ∈ entries, ∃ found, entry.accepts? req = some found ∧ v.Sees found := by
  obtain ⟨passed, rest, place, finish, last, outcome, hstack, hpasses, hends, hresult⟩ :=
    travels_dispatch (w := w) h req req.params e
  have hfirst : Layer.visits passed ++ last <+: Layer.visits (stack entries req) := by
    rw [hstack]
    exact visits_append_prefix hends
  exact ⟨passed, rest, place, finish, last, outcome, hstack, hpasses, hends, hresult, hfirst,
    fun v hv => sees_of_mem_visits (hfirst.subset hv)⟩

def fallThrough : List RouteEntry :=
  let matcher : PathMatcher := ⟨.regex "", .route, .empty, []⟩
  [⟨matcher, .any, .tasks ((StockTasks.all (.constant "0")).take 1) []⟩,
    ⟨matcher, .any, .files ⟨"public", {}⟩⟩,
    ⟨matcher, .verb .post, .tasks (((StockTasks.all (.constant "0")).drop 1).take 2) []⟩]

def rootRequest : Request := { method := "POST", uri := ⟨['/'], none⟩, headers := [], body := [] }

theorem dispatch_fallThrough :
    ∃ passed rest place finish last outcome, stack fallThrough rootRequest = passed ++ rest ∧
      Passes ⟨"/", []⟩ (fun task => StockTasks.plan (.constant "0") task.name) passed (rootRequest, .empty) place
        finish ∧
      Ends ⟨"/", []⟩ (fun task => StockTasks.plan (.constant "0") task.name) rest place last outcome ∧
      (Layer.visits passed ++ last).map (·.task) = ["log_request", "request_id", "hello"] := by
  have hstock : ∀ entry ∈ fallThrough, ∀ task ∈ entry.tasks, task ∈ StockTasks.all (.constant "0") := by
    simp only [fallThrough, List.forall_mem_cons, RouteEntry.tasks, List.flatMap_nil, List.append_nil]
    exact ⟨fun _ => List.mem_of_mem_take, by simp,
      fun _ h => List.mem_of_mem_drop (List.mem_of_mem_take h), by simp⟩
  have hfollows : ∀ entry ∈ fallThrough, ∀ task ∈ entry.tasks,
      task.Follows (StockTasks.plan (.constant "0") task.name) := fun entry hentry task htask =>
    StockTasks.follows_plan _ task (hstock entry hentry task htask)
  have hvisits : (dispatch ⟨"/", []⟩ fallThrough rootRequest {}).2.visits.map (·.task) =
      ["hello", "request_id", "log_request"] := by decide +kernel
  obtain ⟨passed, rest, place, finish, last, outcome, hstack, hpasses, hends, hresult, -⟩ :=
    dispatch_through_stack ⟨"/", []⟩ hfollows rootRequest {}
  rw [hresult] at hvisits
  exact ⟨passed, rest, place, finish, last, outcome, hstack, hpasses, hends,
    by simpa using congrArg List.reverse hvisits⟩

end RouteQuery
