import RouteQuery.Hook
import RouteQuery.Vocabulary

/-! All that a query may refer to: tasks, paths, options and hooks. -/
namespace RouteQuery

structure Registry where
  tasks : List Task := []
  paths : List (String × RoutePath) := []
  options : List (String × Json) := []
  hooks : List (String × Hook) := Hook.builtin
  /-- The parameter descriptors of all queries so far, by the escaped form of what they name. -/
  params : List (String × Descriptor) := []

namespace Registry

def task? (r : Registry) (name : String) : Option Task := r.tasks.find? (·.name == name)

def taskNames (r : Registry) : List String := r.tasks.map (·.name)

def pathIdentifiers (r : Registry) : List String := r.paths.map (·.1)

def path? (r : Registry) (identifier : String) : Option RoutePath := r.paths.lookup identifier

def hook? (r : Registry) (name : String) : Option Hook := r.hooks.lookup name

def option? (r : Registry) (name : String) : Option Json := r.options.lookup name

def scope (r : Registry) (w : Workspace) : HookScope := ⟨w, r.tasks, r.options⟩

def vocabulary (r : Registry) : Vocabulary := ⟨r.pathIdentifiers, r.taskNames⟩

/-- Adds a path under its identifier, unless it is there already. -/
def addPath (r : Registry) (identifier : String) : Except Fault Registry :=
  if !isIdentifier identifier then .error (.invalidName .path identifier)
  else if (r.path? identifier).isSome then .ok r
  else .ok { r with paths := r.paths ++ [(identifier, RoutePath.ofIdentifier identifier)] }

/-- Adds paths up to the first one that is refused. -/
def addPaths (r : Registry) : List String → Except Fault Unit × Registry
  | [] => (.ok (), r)
  | identifier :: rest =>
    match r.addPath identifier with
    | .ok r => r.addPaths rest
    | .error fault => (.error fault, r)

end Registry

/-! ### Registering

A call checks what it is given before it changes anything. -/
namespace Registering

def task (task : Task) : Change Registry Unit := do
  if ((← get).task? task.name).isSome then throw (.duplicateTask task.name)
  modify fun r => { r with tasks := r.tasks ++ [task] }

def options (name : String) (options : Json) : Change Registry Unit := do
  if name.toList.all Text.isBlank then throw (.invalidName .options name)
  if options.isNull then throw (.missingOptions name)
  modify fun r => { r with options := Json.put r.options name options }

def hook (name : String) (hook : Hook) : Change Registry Unit := do
  if !isIdentifier name then throw (.invalidName .descriptor name)
  if ((← get).hook? name).isSome then throw (.duplicateDescriptor name)
  modify fun r => { r with hooks := r.hooks ++ [(name, hook)] }

end Registering

namespace Registry

def addTask (r : Registry) (task : Task) : Except Fault Registry := (Registering.task task).apply r

def addOptions (r : Registry) (name : String) (options : Json) : Except Fault Registry :=
  (Registering.options name options).apply r

def addHook (r : Registry) (name : String) (hook : Hook) : Except Fault Registry :=
  (Registering.hook name hook).apply r

end Registry
end RouteQuery
