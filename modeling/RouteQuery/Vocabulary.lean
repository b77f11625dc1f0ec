import RouteQuery.Execution
import RouteQuery.Fault
import RouteQuery.Verb

/-! The names that a query may use, and queries checked against them. -/
namespace RouteQuery

structure Vocabulary where
  paths : List String
  tasks : List String
  deriving DecidableEq, Repr

namespace Vocabulary

def pathType : String := "path"

def taskType : String := "task"

def typeText (name : String) (fields : List String) (type : String) : String :=
  "type " ++ name ++ " \x7b\n" ++
    String.join (fields.map fun f => "  " ++ f ++ ": " ++ type ++ "\n") ++ "\x7d\n"

/-- The schema of queries: every path has the verbs as fields, every verb has the tasks. -/
def schemaText (v : Vocabulary) : String :=
  typeText queryTypeName v.paths pathType ++
    typeText pathType (Verb.all.map (·.name)) taskType ++ typeText taskType v.tasks "String"

/-- The values that a query is answered from, by their depth: all paths, the verbs of a path, the
tasks of a verb. -/
inductive Node where
  | paths | verbs | tasks
  deriving DecidableEq, Repr

/-- A known path leads to the verbs, a verb to the tasks, and a task is its own name. -/
def resolver (paths tasks : List String) : Resolver Node
  | .paths, field => if field ∈ paths then .object .verbs else .null
  | .verbs, field => if (Verb.ofName? field).isSome then .object .tasks else .null
  | .tasks, field => if field ∈ tasks then .scalar (.str field) else .null

/-- Answers a normalized query from the paths and tasks that are known. A text with malformed syntax
is refused as such; of all other faults only the number is told. -/
def answer (v : Vocabulary) (query : List Char) (paths tasks : List String) :
    Except Fault (List (String × Json)) :=
  match Schema.compile v.schemaText.toList with
  | .error fault => .error (.inconsistentSchema (Escape.decode fault.message))
  | .ok schema =>
    let result := execute schema query (resolver paths tasks) .paths
    match result.faults.find? (fun f => match f with | .syntaxFault _ => true | _ => false) with
    | some fault => .error (.malformedQuery (Escape.decode fault.message))
    | none =>
      if result.faults.isEmpty then
        match result.data with
        | some data => .ok data
        | none => .error (.failedQuery 0)
      else .error (.failedQuery result.faults.length)

end Vocabulary
end RouteQuery
