import RouteQuery.Http.BodyParser
import RouteQuery.Http.Uri
import RouteQuery.Json.Render

/-! Requests and responses, with what the tasks before have noted on a request. -/
namespace RouteQuery.Http
open Text

/-- Names, in lower case, and values, in the order in which they are sent. -/
abbrev Headers := List (String × Bytes)

def Headers.get? (headers : Headers) (name : String) : Option Bytes := List.lookup name headers

/-- Sets the value under a name, in place of all values there. -/
def Headers.set (headers : Headers) (name : String) (value : Bytes) : Headers :=
  headers.filter (·.1 ≠ name) ++ [(name, value)]

/-- A value as text, if it consists of visible ASCII characters, blanks and tabs. -/
def visibleText? (value : Bytes) : Option (List Char) :=
  if value.all fun b => (32 ≤ b && b < 127) || b == 9 then
    some (value.map fun b => Char.ofNat b.toNat)
  else none

def Headers.text? (headers : Headers) (name : String) : Option (List Char) :=
  (headers.get? name).bind visibleText?

/-- The parameter that a task runs for. -/
structure PathParam where
  name : String
  value : String
  deriving DecidableEq, Repr

/-- What a route captured, each name once. -/
abbrev RouteParams := List (String × String)

/-- Of equal names the last value counts. -/
def RouteParams.ofCaptures (captures : List (String × String)) : RouteParams :=
  captures.foldl (fun params (name, value) => Json.put params name value) []

structure Request where
  method : String
  uri : Uri
  headers : Headers
  body : Bytes
  /-- What a body parser made of the body. -/
  parsed : Option ParsedBody := none
  /-- The parameter that the running task was called for. -/
  param : Option PathParam := none
  /-- The captures of the route that was reached last. -/
  params : Option RouteParams := none

structure Response where
  status : Nat
  headers : Headers := []
  body : Bytes := []

namespace Request

/-- A character of a method or a header name. -/
def isTokenChar (c : Char) : Bool := c.isAlphanum || "!#$%&'*+-.^_|~\x60".toList.contains c

def isToken (s : String) : Bool := !s.isEmpty && s.toList.all isTokenChar

def maxHeaderName : Nat := 65535

def isHeaderName (s : String) : Bool := isToken s && s.length ≤ maxHeaderName

/-- No control characters but the tab. -/
def isHeaderValue (value : Bytes) : Bool := value.all fun b => (32 ≤ b && b != 127) || b == 9

/-- A request, unless its method, its target or a header is malformed. -/
def make? (method target : String) (headers : List (String × Bytes)) (body : Bytes) :
    Option Request := do
  let uri ← Uri.parse? target.toList
  if isToken method && headers.all fun (name, value) => isHeaderName name && isHeaderValue value then
    some { method, uri, body, headers := headers.map fun (name, value) => (name.map Char.toLower, value) }
  else none

/-- The length that the request gives for its body: digits, behind at most one plus sign. -/
def declaredLength? (req : Request) : Option Nat := do
  let text ← req.headers.text? "content-length"
  let digits := match text with
    | '+' :: rest => rest
    | _ => text
  if digits.isEmpty || !digits.all Char.isDigit then none
  let n : Nat := digits.foldl (fun n c => n * 10 + (c.toNat - 48)) 0
  if n ≤ maxBytes then some n else none

end Request

namespace Response

def contentType : String := "content-type"

def bytesOf (s : String) : Bytes := toUtf8 s.toList

def bare (status : Nat) : Response := { status }

def notFound : Response := bare 404

def text (status : Nat) (body : List Char) : Response :=
  { status, headers := [(contentType, bytesOf "text/plain; charset=utf-8")], body := toUtf8 body }

def json (v : Json) : Response :=
  { status := 200, headers := [(contentType, bytesOf "application/json")]
    body := toUtf8 v.renderChars }

/-- What of a response is sent for a request with this method: no body for `HEAD`, nor for a
`CONNECT` that succeeds. -/
def forMethod (response : Response) (method : String) : Response :=
  if method = "HEAD" ∨ (method = "CONNECT" ∧ 200 ≤ response.status ∧ response.status < 300) then
    { response with body := [] }
  else response

end Response
end RouteQuery.Http
