import RouteQuery.Task

/-! Tasks that come with the library. -/
namespace RouteQuery
open Http

namespace StockTasks

def requestIdHeader : String := "x-request-id"

def hitsKey : String := "hits"

def logRequest (req : Request) (next : Next) : Action Response := next.run req

/-- Makes a new identifier. What this has to remember it keeps among the shared values. -/
abbrev IdSource := StateM Context Text.Bytes

/-- Makes identifiers that are all alike. -/
def IdSource.constant (id : String) : IdSource := pure (Response.bytesOf id)

/-- Gives the request a new identifier if it has none, and the response the same one. -/
def requestId (newId : IdSource) (req : Request) (next : Next) : Action Response := do
  let (id, req) ← match req.headers.get? requestIdHeader with
    | some id => pure (id, req)
    | none => do
      let id ← modifyGet fun e =>
        let (id, context) := newId e.context
        (id, { e with context })
      pure (id, { req with headers := req.headers ++ [(requestIdHeader, id)] })
  let response ← next.run req
  return { response with headers := response.headers.set requestIdHeader id }

/-- One more than a count; anything else counts as zero. -/
def increment (current : Option Json) : Json := Json.ofNat ((current.bind Json.nat?).getD 0 + 1)

def hello (_ : Request) (_ : Next) : Action Response := do
  let hits ← modifyGet fun e =>
    let (context, hits) := e.context.update hitsKey increment
    (hits, { e with context })
  return .json (.obj [("message", .str "hello"), ("hits", hits)])

def echoBody (req : Request) (_ : Next) : Action Response :=
  return match req.parsed with
    | some body => .json body.toJson
    | none => .text 415 "no body parser accepted the request".toList

/-- Answers with the captures of the route, by name, and the parameter that the task runs for. -/
def showParams (req : Request) (_ : Next) : Action Response :=
  let params := (req.params.getD []).mergeSort fun a b => decide (a.1 ≤ b.1)
  let param := match req.param with
    | some p => .obj [("name", .str p.name), ("value", .str p.value)]
    | none => .null
  return .json (.obj [("params", .obj (params.map fun (k, v) => (k, .str v))), ("param", param)])

def all (newId : IdSource) : List Task :=
  [{ name := "log_request", handler := logRequest },
   { name := "request_id", handler := requestId newId },
   { name := "hello", handler := hello }, { name := "echo_body", handler := echoBody },
   { name := "show_params", handler := showParams }]

end StockTasks
end RouteQuery
