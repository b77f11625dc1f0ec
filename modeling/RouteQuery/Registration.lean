import RouteQuery.Site

/-! What a program can register with a site, tasks under the names of their functions among it. -/
namespace RouteQuery

namespace Task

/-- What stands behind the last `::` of a path, all of it if there is none. -/
def lastSegment : List Char → List Char
  | [] => []
  | c :: cs =>
    if Text.occursIn "::".toList cs then lastSegment cs
    else (Text.after? "::".toList (c :: cs)).getD (c :: cs)

/-- The name of a function by the name of its type, which is the path of the function and then its type
arguments. Closures and function pointers have no name. -/
def functionName? (typeName : String) : Option String :=
  let type := typeName.toList
  if Text.occursIn "\x7b\x7bclosure\x7d\x7d".toList type || "fn(".toList.isPrefixOf type ||
      type.contains ' ' then none
  else
    let name := String.ofList (lastSegment (type.takeWhile (· ≠ '<')))
    if isIdentifier name then some name else none

def ofFunction (typeName : String) (handler : Http.Request → Next → Action Http.Response) :
    Except Fault Task :=
  match functionName? typeName with
  | some name => make name handler
  | none => .error (.anonymousTask typeName)

end Task

/-- What a program can ask a site to register. -/
inductive Registration where
  /-- A task under the name of its function. -/
  | function (typeName : String) (handler : Http.Request → Next → Action Http.Response)
  | task (name : String) (handler : Http.Request → Next → Action Http.Response)
  /-- Options as they are serialized, or why they cannot be. -/
  | options (name : String) (serialized : Except String Json)
  | hook (name : String) (effect : Hook)
  | stockTasks (newId : StockTasks.IdSource)

/-- One stock task is added after another, up to the first that is refused. -/
def Registration.perform : Registration → Change Site Unit
  | function typeName handler => .of (Task.ofFunction typeName handler) >>= Site.addingTask
  | task name handler => .of (Task.make name handler) >>= Site.addingTask
  | options name (.ok value) => Site.registering (Registering.options name value)
  | options name (.error reason) => throw (.invalidOptions name (.unserializable reason))
  | hook name effect => Site.registering (Registering.hook name effect)
  | stockTasks newId => (StockTasks.all newId).forM Site.addingTask

end RouteQuery
