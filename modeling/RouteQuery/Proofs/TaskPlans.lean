import RouteQuery.StockTasks

/-! Tasks that answer a request or pass it on once, and leave the marks of routing on it alone. -/
namespace RouteQuery
open Http

/-- What becomes of a request: an answer, or a request for the rest of the way and a last word on
the response to it. -/
inductive Decision where
  | answer (outcome : Response × Context)
  | pass (req : Request) (context : Context) (finish : Response × Context → Response × Context)

/-- A decision on a request, the number of tasks behind this one and the shared context. -/
abbrev TaskPlan := Request → Nat → Context → Decision

def Decision.run (next : Next) : Decision → Action Response
  | answer outcome => fun e => (outcome.1, { e with context := outcome.2 })
  | pass req context finish => fun e =>
    let (response, after) := next.run req { e with context }
    let outcome := finish (response, after.context)
    (outcome.1, { after with context := outcome.2 })

structure SameRouting (req req' : Request) : Prop where
  method : req'.method = req.method
  uri : req'.uri = req.uri
  parsed : req'.parsed = req.parsed
  param : req'.param = req.param
  params : req'.params = req.params

theorem SameRouting.refl (req : Request) : SameRouting req req := ⟨rfl, rfl, rfl, rfl, rfl⟩

/-- A task that does nothing but carry out a plan under which requests keep their routing. -/
structure Task.Follows (task : Task) (plan : TaskPlan) : Prop where
  handler_eq : ∀ req next e,
    task.handler req next e = (plan req next.remaining e.context).run next e
  sameRouting : ∀ {req remaining context req' context' finish},
    plan req remaining context = .pass req' context' finish → SameRouting req req'

namespace StockTasks

def plan (newId : IdSource) (name : String) : TaskPlan := fun req _ context =>
  if name = "log_request" then .pass req context id
  else if name = "request_id" then
    let (id, context, req) := match req.headers.get? requestIdHeader with
      | some id => (id, context, req)
      | none =>
        let (id, context) := newId context
        (id, context, { req with headers := req.headers ++ [(requestIdHeader, id)] })
    .pass req context fun (response, context) =>
      ({ response with headers := response.headers.set requestIdHeader id }, context)
  else if name = "hello" then
    let (context, hits) := context.update hitsKey increment
    .answer (.json (.obj [("message", .str "hello"), ("hits", hits)]), context)
  else
    let next : Next := ⟨0, fun _ => pure .notFound⟩
    let answered := (if name = "echo_body" then echoBody req next else showParams req next) {}
    .answer (answered.1, context)

theorem follows_plan (newId : IdSource) : ∀ task ∈ all newId, task.Follows (plan newId task.name) := by
  simp only [all, List.forall_mem_cons]
  refine ⟨?_, ?_, ?_, ?_, ?_, by simp⟩
  · exact ⟨fun req next e => rfl, fun h => by cases h; exact .refl _⟩
  · refine ⟨fun req next e => ?_, fun {req} _ _ _ _ _ h => ?_⟩
    · simp only [requestId, plan]
      cases req.headers.get? requestIdHeader <;> rfl
    · simp only [plan] at h
      cases hid : req.headers.get? requestIdHeader <;> rw [hid] at h <;> cases h
      · exact ⟨rfl, rfl, rfl, rfl, rfl⟩
      · exact .refl _
  · exact ⟨fun req next e => rfl, fun h => by cases h⟩
  · exact ⟨fun req next e => rfl, fun h => by cases h⟩
  · exact ⟨fun req next e => rfl, fun h => by cases h⟩

end StockTasks
end RouteQuery
