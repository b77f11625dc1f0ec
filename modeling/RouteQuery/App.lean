import RouteQuery.Http.StaticFiles
import RouteQuery.PathMatcher
import RouteQuery.Task
import RouteQuery.Verb

/-! Applications: routes and mounts in the order in which they are tried, and body parsers. -/
namespace RouteQuery
open Http

inductive MethodFilter where
  | any
  | verb (v : Verb)
  deriving DecidableEq, Repr

namespace MethodFilter

/-- A route for `GET` answers `HEAD` too. -/
def allows : MethodFilter → String → Bool
  | any, _ => true
  | verb .get, method => method == "GET" || method == "HEAD"
  | verb v, method => method == v.name

end MethodFilter

/-- A chain that runs for a captured parameter. -/
structure ParamBinding where
  name : String
  chain : TaskChain

inductive Handler where
  | tasks (chain : TaskChain) (params : List ParamBinding)
  | files (directory : StaticFiles)

structure RouteEntry where
  matcher : PathMatcher
  method : MethodFilter
  handler : Handler

namespace RouteEntry

def accepts? (e : RouteEntry) (req : Request) : Option PathMatch :=
  if e.method.allows req.method then e.matcher.matches? req.uri.path else none

def kind (e : RouteEntry) : String :=
  match e.handler, e.method, e.matcher.mode with
  | .files _, _, _ => "STATIC"
  | .tasks .., .verb v, _ => v.name
  | .tasks .., .any, .mount => "USE"
  | .tasks .., .any, .route => "ALL"

/-- One line that tells what the entry does. -/
def label (w : Workspace) (e : RouteEntry) : String :=
  let target := match e.handler with
    | .files directory => w.absolute directory.root
    | .tasks chain params => params.foldl (fun s b =>
      s ++ " [param " ++ b.name ++ ": " ++ arrows b.chain.names ++ "]") (arrows chain.names)
  e.kind ++ " " ++ e.matcher.source.text ++ " -> " ++ target

end RouteEntry

/-- The routes of one path, with the chains for its parameters. -/
structure PathRouter where
  path : RoutePath
  params : List ParamBinding := []
  routes : List (Verb × TaskChain) := []

namespace PathRouter

def bind (r : PathRouter) (name : String) (chain : TaskChain) : PathRouter :=
  { r with params := r.params ++ [⟨name, chain⟩] }

def route (r : PathRouter) (verb : Verb) (chain : TaskChain) : PathRouter :=
  { r with routes := r.routes ++ [(verb, chain)] }

end PathRouter

structure App where
  entries : List RouteEntry := []
  parsers : List BodyParser := []

namespace App

def push (app : App) (entry : RouteEntry) : App := { app with entries := app.entries ++ [entry] }

/-- Runs the chain for every request at or below a path. -/
def useTasks (app : App) (mount : String) (chain : TaskChain) : Except Fault App := do
  return app.push ⟨← PathMatcher.compile (.literal mount) .mount, .any, .tasks chain []⟩

def useParser (app : App) (parser : BodyParser) : App :=
  { app with parsers := app.parsers ++ [parser] }

def serveFiles (app : App) (mount : String) (directory : StaticFiles) : Except Fault App := do
  return app.push ⟨← PathMatcher.compile (.literal mount) .mount, .any, .files directory⟩

def all (app : App) (path : RoutePath) (chain : TaskChain) : Except Fault App := do
  return app.push ⟨← PathMatcher.compile path .route, .any, .tasks chain []⟩

/-- One entry for each route, all with the parameters of the router. -/
def mount (app : App) (router : PathRouter) : Except Fault App := do
  let matcher ← PathMatcher.compile router.path .route
  return { app with entries := app.entries ++
    router.routes.map fun (verb, chain) => ⟨matcher, .verb verb, .tasks chain router.params⟩ }

def extend (app other : App) : App :=
  ⟨app.entries ++ other.entries, app.parsers ++ other.parsers⟩

def describe (w : Workspace) (app : App) : List String := app.entries.map (·.label w)

end App
end RouteQuery
