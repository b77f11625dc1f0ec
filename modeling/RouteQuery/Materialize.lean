import RouteQuery.Registry

/-! From descriptors and the answer to a query to the routes they stand for. -/
namespace RouteQuery

namespace Descriptor

/-- The name of descriptors that belong to paths and not to the application. -/
def param : String := "param"

/-- What the identifier of a path with the parameter contains. -/
def paramKey (d : Descriptor) : String := Escape.colonToken ++ d.value

end Descriptor

/-- Routes that are ready to be appended to an application. -/
structure Materialized where
  app : App
  /-- The parameter descriptors known from now on. -/
  params : List (String × Descriptor)
  /-- The identifiers of the routed paths, in the order of the query. -/
  paths : List String

namespace Registry

/-- Applies the hooks of descriptors to an application, in order, and adds parameter descriptors to
those known. A later descriptor for the same parameter replaces the earlier one in its place. -/
def applyDescriptors (r : Registry) (w : Workspace) :
    List Descriptor → App → List (String × Descriptor) → Effect (App × List (String × Descriptor))
  | [], app, params => pure (app, params)
  | d :: rest, app, params =>
    if d.name = Descriptor.param then
      applyDescriptors r w rest app (Json.put params d.paramKey d)
    else
      match r.hook? d.name with
      | none => throw (.unknownDescriptor d.name)
      | some hook => do
        let app ← hook.onApp (r.scope w) d app
        applyDescriptors r w rest app params

/-- Binds the chains of the parameters that an identifier contains. -/
def bindParams (r : Registry) (w : Workspace) (hook : Hook) (identifier : String) :
    List (String × Descriptor) → PathRouter → Effect PathRouter
  | [], router => pure router
  | (key, d) :: rest, router =>
    if Text.occursIn key.toList identifier.toList then do
      let router ← hook.onRouter (r.scope w) d router
      bindParams r w hook identifier rest router
    else bindParams r w hook identifier rest router

/-- Adds a route for each verb that has tasks. -/
def addRoutes (r : Registry) (w : Workspace) : List (String × Json) → PathRouter →
    Except Fault PathRouter
  | [], router => .ok router
  | (name, tasks) :: rest, router =>
    match Verb.ofName? name, tasks with
    | some verb, .obj tasks => do
      addRoutes r w rest (router.route verb (← (r.scope w).chain (tasks.map (·.1))))
    | _, _ => addRoutes r w rest router

/-- Mounts a router for each path of the answer. A path without verbs is passed over. -/
def mountPaths (r : Registry) (w : Workspace) (hook : Hook) (params : List (String × Descriptor)) :
    List (String × Json) → App → Effect (App × List String)
  | [], app => pure (app, [])
  | (identifier, verbs) :: rest, app =>
    match r.path? identifier with
    | none => throw (.invalidName .path identifier)
    | some path => do
      let router ← bindParams r w hook identifier params { path }
      match verbs with
      | .obj verbs => do
        let app ← .of (addRoutes r w verbs router >>= app.mount)
        let (app, paths) ← mountPaths r w hook params rest app
        return (app, identifier :: paths)
      | _ => mountPaths r w hook params rest app

/-- The routes for the answer to a query. The descriptors come first, then the paths. -/
def materialize (r : Registry) (w : Workspace) (data : List (String × Json))
    (descriptors : List Descriptor) : Effect Materialized := do
  let (app, params) ← r.applyDescriptors w descriptors {} r.params
  match r.hook? Descriptor.param with
  | none => throw (.unknownDescriptor Descriptor.param)
  | some hook => do
    let (app, paths) ← r.mountPaths w hook params data app
    return ⟨app, params, paths⟩

end Registry
end RouteQuery
