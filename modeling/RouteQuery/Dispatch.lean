import RouteQuery.App

/-! The way of a request: through the body parsers, then through the entries in order. -/
namespace RouteQuery
open Http

namespace PathMatch

/-- The tasks of an entry that matched: for each captured parameter the chains bound to its name,
then the chain of the entry. -/
def steps (found : PathMatch) (chain : TaskChain) (params : List ParamBinding) : List Step :=
  (found.params.flatMap fun (name, value) =>
    (params.filter (·.name == name)).flatMap fun b => Step.ofChain b.chain (some ⟨name, value⟩)) ++
  Step.ofChain chain none

/-- The target that a directory is asked for: what the mount left of the path, from a slash on. -/
def below (found : PathMatch) (uri : Uri) : Uri :=
  { uri with path := if found.rest.head? = some '/' then found.rest else '/' :: found.rest }

end PathMatch

namespace StaticFiles

def serve? (w : Workspace) (d : Http.StaticFiles) (req : Request) (found : PathMatch) :
    Option Response :=
  if req.method = "GET" ∨ req.method = "HEAD" then
    some (d.serve w (found.below req.uri) req.headers) |>.filter (·.status ≠ 404)
  else none

end StaticFiles

/-- Tries the entries in order. A chain that runs out hands the request to the entries behind its
own; a request that is left over is not found. -/
def dispatch (w : Workspace) : List RouteEntry → Request → Action Response
  | [], _ => pure .notFound
  | entry :: rest, req =>
    match entry.accepts? req with
    | none => dispatch w rest req
    | some found =>
      match entry.handler with
      | .tasks chain params =>
        Step.run (dispatch w rest) (found.steps chain params)
          { req with params := some (RouteParams.ofCaptures found.params) }
      | .files directory =>
        match StaticFiles.serve? w directory req found with
        | some response => pure response
        | none => dispatch w rest req

namespace App

def reads (parser : BodyParser) (req : Request) : Bool :=
  (req.headers.text? "content-type").any (MediaType.accepts parser.contentType.toList)

/-- A body parser in front of the rest of the way. It has no part in a request whose body is of
another type or has been parsed already. -/
def parsing (parser : BodyParser) (next : Request → Action Response) (req : Request) :
    Action Response :=
  if req.parsed.isSome || !reads parser req then next req
  else
    match parser.parse req.declaredLength? req.body with
    | .ok parsed => next { req with parsed := some parsed }
    | .error fault => pure (.text fault.status fault.message.toList)

/-- The entries with the body parsers around them. The last parser is laid on first, which makes the
first one the outermost. -/
def respond (w : Workspace) (app : App) : Request → Action Response :=
  app.parsers.reverse.foldl (fun next parser => parsing parser next) (dispatch w app.entries)

def answer (w : Workspace) (app : App) (req : Request) : Action Response := do
  return (← app.respond w req).forMethod req.method

end App
end RouteQuery
