import RouteQuery.Materialize
import RouteQuery.Ready
import RouteQuery.StockTasks

/-! A site: what is registered, the values that its tasks share, and the queries applied so far. -/
namespace RouteQuery

structure Site where
  registry : Registry := {}
  /-- The names that the next query may use. -/
  vocabulary : Vocabulary := registry.vocabulary
  context : Context := .empty
  ready : Ready.Signal := {}

/-- A query read and taken apart. -/
structure PreparedQuery where
  descriptors : List Descriptor
  /-- The query itself, escaped. -/
  text : List Char
  paths : List String
  deriving Repr

namespace PreparedQuery

def ofText (text : List Char) : Except Fault PreparedQuery := do
  let descriptors ← Descriptor.parseAll text
  let normalized ← QueryText.normalize text
  return ⟨descriptors, normalized, ← QueryText.extractPaths normalized⟩

/-- From the text of a query or the name of a file that holds it. -/
def load (w : Workspace) (source : String) : Except Fault PreparedQuery :=
  w.loadQuery source >>= ofText

end PreparedQuery

namespace Site

def generation (s : Site) : Nat := s.ready.generation

/-- Replaces what is registered and learns the names. -/
def setRegistry (s : Site) (registry : Registry) : Site :=
  { s with registry, vocabulary := registry.vocabulary }

/-- Changes what is registered. -/
def registering (change : Change Registry Unit) : Change Site Unit := fun s =>
  let (result, registry) := change s.registry
  (result, { s with registry })

/-- Adds a task, and then its name to those that the next query may use. -/
def addingTask (task : Task) : Change Site Unit := do
  registering (Registering.task task)
  modify fun s => { s with vocabulary := s.registry.vocabulary }

def addTask (s : Site) (task : Task) : Except Fault Site := (addingTask task).apply s

def addNamedTask (s : Site) (name : String) (handler : Http.Request → Next → Action Http.Response) :
    Except Fault Site :=
  Task.make name handler >>= s.addTask

def addOptions (s : Site) (name : String) (options : Json) : Except Fault Site :=
  (registering (Registering.options name options)).apply s

def addHook (s : Site) (name : String) (hook : Hook) : Except Fault Site :=
  (registering (Registering.hook name hook)).apply s

/-- Adds tasks up to the first one that is refused. -/
def addTasks (s : Site) (tasks : List Task) : Except Fault Unit × Site := (tasks.forM addingTask) s

def addStockTasks (s : Site) (newId : StockTasks.IdSource) : Except Fault Unit × Site :=
  s.addTasks (StockTasks.all newId)

/-- Applies a query whose paths are registered. -/
def applyQuery (s : Site) (w : Workspace) (query : PreparedQuery) (app : App) :
    Except Fault Unit × Site × App :=
  match s.vocabulary.answer query.text s.registry.pathIdentifiers s.registry.taskNames with
  | .error fault => (.error fault, s, app)
  | .ok data =>
    match s.registry.materialize w data query.descriptors s.context with
    | (.error fault, context) => (.error fault, { s with context }, app)
    | (.ok routes, context) =>
      let paths := (routes.paths.filterMap s.registry.path?).map (·.text)
      (.ok (),
        { s with
          registry := { s.registry with params := routes.params }
          context
          ready := s.ready.emit paths },
        app.extend routes.app)

/-- Applies a query to an application. When it fails, the application stays as it is, and of the
site only the registered paths, with their names, and the shared context may have changed. -/
def set (s : Site) (w : Workspace) (app : App) (source : String) :
    Except Fault Unit × Site × App :=
  match PreparedQuery.load w source with
  | .error fault => (.error fault, s, app)
  | .ok query =>
    match s.registry.addPaths query.paths with
    | (.error fault, registry) => (.error fault, { s with registry }, app)
    | (.ok (), registry) => (s.setRegistry registry).applyQuery w query app

/-- Lets a task or an application work within an exchange on the shared context of the site. The
tasks that ran are told in order. -/
def within (s : Site) (action : Action Http.Response) : Http.Response × List Visit × Site :=
  let (response, exchange) := action.run ⟨s.context, []⟩
  (response, exchange.visits.reverse, { s with context := exchange.context })

end Site
end RouteQuery
