import RouteQuery.Json.Render
import RouteQuery.Site

/-! The command line: what its arguments ask for, and what is printed. -/
namespace RouteQuery

inductive Command where
  | encode (text : String)
  | decode (text : String)
  /-- List the descriptors of a query. -/
  | descriptors (query : String)
  /-- Print the schema that a query is checked against. -/
  | schema (tasks : List String) (query : String)
  /-- Apply a query to an empty application. -/
  | check (tasks : List String) (query : String)
  deriving DecidableEq, Repr

namespace Command

/-- Arguments taken apart: the values of the task option, and all others. -/
structure Arguments where
  tasks : List String := []
  values : List String := []
  deriving DecidableEq, Repr

namespace Arguments

def addTask (a : Arguments) (task : String) : Arguments := { a with tasks := task :: a.tasks }

def addValue (a : Arguments) (value : String) : Arguments := { a with values := value :: a.values }

/-- A dash alone is a value, anything longer that starts with a dash is an option. -/
def isOption (argument : String) : Bool := argument.startsWith "-" && argument != "-"

def attached? (option argument : String) : Option String :=
  (Text.after? option.toList argument.toList).map String.ofList

/-- The value of a short option may have an equals sign before it. -/
def dropEquals (value : String) : String := (attached? "=" value).getD value

/-- Reads arguments. Options may stand before and after values, up to `--`, behind which everything is
a value. Task options count only where they are known. -/
def parse? (tasksKnown : Bool) : List String → Option Arguments
  | [] => some {}
  | "--" :: rest => some { values := rest }
  | argument :: rest =>
    if !isOption argument then (parse? tasksKnown rest).map (·.addValue argument)
    else if !tasksKnown then none
    else if argument = "-t" ∨ argument = "--task" then
      match rest with
      | [] => none
      | value :: rest =>
        if isOption value then none else (parse? tasksKnown rest).map (·.addTask value)
    else match attached? "--task=" argument with
      | some value => (parse? tasksKnown rest).map (·.addTask value)
      | none =>
        if argument.startsWith "--" then none
        else match attached? "-t" argument with
          | some value => (parse? tasksKnown rest).map (·.addTask (dropEquals value))
          | none => none

def single? (a : Arguments) : Option (List String × String) :=
  match a.values with
  | [value] => some (a.tasks, value)
  | _ => none

end Arguments

/-- The command that arguments ask for; none when they cannot be understood. -/
def parse? : List String → Option Command
  | [] => none
  | name :: arguments =>
    let plain := (Arguments.parse? false arguments).bind (·.single?)
    let withTasks := (Arguments.parse? true arguments).bind (·.single?)
    match name with
    | "encode" => plain.map fun (_, text) => encode text
    | "decode" => plain.map fun (_, text) => decode text
    | "descriptors" => plain.map fun (_, query) => descriptors query
    | "schema" => withTasks.map fun (tasks, query) => schema tasks query
    | "check" => withTasks.map fun (tasks, query) => check tasks query
    | _ => none

/-- A task that answers with nothing. -/
def idle (_ : Http.Request) (_ : Next) : Action Http.Response := pure (.bare 200)

def descriptorJson (d : Descriptor) : Json :=
  .obj [("name", .str d.name), ("value", .str d.value), ("args", .arr (d.args.map .str))]

def line (s : String) : String := s ++ "\n"

def siteWith (tasks : List String) : Except Fault Site :=
  tasks.foldlM (fun site name => site.addNamedTask name idle) {}

def registryFor (tasks : List String) (normalized : List Char) : Except Fault Registry := do
  let registry ← tasks.foldlM (fun r name => Task.make name idle >>= r.addTask) ({} : Registry)
  (← QueryText.extractPaths normalized).foldlM Registry.addPath registry

def run (w : Workspace) : Command → Except Fault String
  | encode text => .ok (line (Escape.encode text))
  | decode text => .ok (line (Escape.decode text))
  | descriptors query => do
    let ds ← Descriptor.parseAll (← w.loadQuery query)
    return line (Json.arr (ds.map descriptorJson)).pretty
  | schema tasks query => do
    let registry ← registryFor tasks (← QueryText.normalize (← w.loadQuery query))
    return registry.vocabulary.schemaText
  | check tasks query => do
    let site ← siteWith tasks
    match site.set w {} query with
    | (.error fault, _) => .error fault
    | (.ok (), _, app) =>
      return String.join ((app.describe w).map line) ++
        line ("ok: " ++ toString app.entries.length ++ " route(s)")

/-- What the error stream shows of a fault. -/
def errorLine (w : Wording) (fault : Fault) : String := line ("Error: " ++ fault.message w)

end Command
end RouteQuery
