import RouteQuery.Context
import RouteQuery.Fault
import RouteQuery.Http.Message

/-! Tasks: named steps that answer a request or pass it on. -/
namespace RouteQuery
open Http

/-- A task that ran: what it was called with, and how many tasks of its chain were left. -/
structure Visit where
  task : String
  param : Option PathParam
  params : Option RouteParams
  remaining : Nat
  deriving DecidableEq, Repr

/-- What changes while requests are answered: the shared context and, the latest first, the tasks
that ran. -/
structure Exchange where
  context : Context := .empty
  visits : List Visit := []

abbrev Action := StateM Exchange

/-- What is left of the way of a request after a task. -/
structure Next where
  /-- The tasks of the chain still to come. -/
  remaining : Nat
  run : Request → Action Response

structure Task where
  name : String
  handler : Request → Next → Action Response
  isIdentifier_name : isIdentifier name := by decide

namespace Task

def make (name : String) (handler : Request → Next → Action Response) : Except Fault Task :=
  if h : isIdentifier name then .ok ⟨name, handler, h⟩ else .error (.invalidName .task name)

end Task

abbrev TaskChain := List Task

def TaskChain.names (chain : TaskChain) : List String := chain.map (·.name)

def arrows (names : List String) : String := " -> ".intercalate names

structure Step where
  task : Task
  param : Option PathParam

namespace Step

/-- Each task of a chain, for the same parameter. -/
def ofChain (chain : TaskChain) (param : Option PathParam) : List Step := chain.map (⟨·, param⟩)

/-- Notes that the task of this step runs. -/
def visit (step : Step) (req : Request) (remaining : Nat) : Action Unit :=
  modify fun e => { e with visits := ⟨step.task.name, step.param, req.params, remaining⟩ :: e.visits }

/-- Runs the first step, which may run the others through its `next`; `finish` stands behind the
last one. -/
def run (finish : Request → Action Response) : List Step → Request → Action Response
  | [], req => finish req
  | step :: rest, req => do
    let req := { req with param := step.param }
    step.visit req rest.length
    step.task.handler req ⟨rest.length, run finish rest⟩

end Step

namespace TaskChain

/-- Runs a chain on its own. A request that no task answers is not found. -/
def run (chain : TaskChain) (req : Request) : Action Response :=
  Step.run (fun _ => pure .notFound) (Step.ofChain chain none) req

end TaskChain
end RouteQuery
