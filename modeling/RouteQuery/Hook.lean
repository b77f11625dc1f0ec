import RouteQuery.App
import RouteQuery.Descriptor

/-! Hooks: what a descriptor does to an application or to the router of a path. -/
namespace RouteQuery
open Http

/-- Something that may fail and may change a state. What has changed by the time it fails stays changed. -/
abbrev Change (σ : Type) := ExceptT Fault (StateM σ)

namespace Change

variable {σ α : Type}

/-- Leaves the state alone. -/
def of (result : Except Fault α) : Change σ α := ExceptT.mk (pure result)

/-- What a change makes of a state, unless it fails. -/
def apply (change : Change σ Unit) (s : σ) : Except Fault σ :=
  match change s with
  | (.ok (), s') => .ok s'
  | (.error fault, _) => .error fault

end Change

/-- A change of the shared context. -/
abbrev Effect := Change Context

structure HookScope where
  workspace : Workspace
  tasks : List Task
  options : List (String × Json)

namespace HookScope

def task (s : HookScope) (name : String) : Except Fault Task :=
  match s.tasks.find? (·.name == name) with
  | some task => .ok task
  | none => .error (.unknownTask name)

def chain (s : HookScope) (names : List String) : Except Fault TaskChain := names.mapM s.task

/-- Options under a name as `read?` understands them, the defaults when there are none. -/
def options? {α : Type} (s : HookScope) (name : String) (target : OptionsTarget) (default : α)
    (read? : Json → Option α) : Except Fault α :=
  match s.options.lookup name with
  | none => .ok default
  | some v =>
    match read? v with
    | some options => .ok options
    | none => .error (.invalidOptions name (.unreadable target v))

end HookScope

/-- A descriptor stands for a change of whatever it is applied to. -/
structure Hook where
  onApp : HookScope → Descriptor → App → Effect App
  onRouter : HookScope → Descriptor → PathRouter → Effect PathRouter

namespace Hook

/-- A hook for applications that leaves the shared context alone. Of two faults the one on the way
to the change counts. -/
def forApp {α : Type} (prepare : HookScope → Descriptor → Except Fault α)
    (change : App → α → Except Fault App) : Hook where
  onApp scope d app := .of (prepare scope d >>= change app)
  onRouter scope d _ := .of (prepare scope d >>= fun _ => .error (.wrongTarget d.name .router))

/-- Runs the chain of the arguments for the parameter that the value names. -/
def param : Hook where
  onApp scope d _ :=
    .of (scope.chain d.args >>= fun _ => .error (.wrongTarget d.name .application))
  onRouter scope d router := .of ((scope.chain d.args).map (router.bind d.value))

/-- Serves the directory that the second argument names below the path in the first. The value
names the options. -/
def static : Hook :=
  forApp
    (fun scope d => do
      let options ← scope.options? d.value .staticFiles ({} : StaticOptions) StaticOptions.ofJson?
      match d.args with
      | [] => .error (.missingArgument d.name "mount path")
      | [_] => .error (.missingArgument d.name "root")
      | mount :: root :: _ => .ok (mount, { root, options : StaticFiles }))
    (fun app (mount, directory) => app.serveFiles mount directory)

/-- Runs the chain of the arguments for every request for the path that is the value. -/
def all : Hook :=
  forApp
    (fun scope d => do return (RoutePath.ofIdentifier (Escape.encode d.value), ← scope.chain d.args))
    (fun app (path, chain) => app.all path chain)

/-- Installs a body parser. The value names the options. -/
def bodyParser (kind : BodyKind) : Hook :=
  forApp (fun scope d => scope.options? d.value .bodyParser ({} : BodyOptions) BodyOptions.ofJson?)
    (fun app options => .ok (app.useParser ⟨kind, options⟩))

def builtin : List (String × Hook) :=
  [("param", param), ("static", static), ("all", all), ("json", bodyParser .json),
   ("raw", bodyParser .raw), ("text", bodyParser .text), ("urlencoded", bodyParser .form)]

end Hook
end RouteQuery
