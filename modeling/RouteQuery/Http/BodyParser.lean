import RouteQuery.Http.ByteLimit
import RouteQuery.Http.Form
import RouteQuery.Http.MediaType
import RouteQuery.Json.Parse

/-! Body parsers: which bodies each of them reads, and what it makes of them. -/
namespace RouteQuery.Http
open Text

inductive BodyKind where
  | json | raw | text | form
  deriving DecidableEq, Repr

namespace BodyKind

def defaultType : BodyKind → String
  | json => "application/json"
  | raw => "application/octet-stream"
  | text => "text/plain"
  | form => "application/x-www-form-urlencoded"

end BodyKind

structure BodyOptions where
  limit : Nat := 100 * 1024
  /-- The pattern of accepted types, if it is not the kind's own. -/
  contentType : Option String := none
  /-- Of JSON, accept objects and arrays only. -/
  strict : Bool := true
  deriving DecidableEq, Repr

namespace BodyOptions

/-- An absent type and a null mean the same. -/
def typeOfJson? : Json → Option (Option String)
  | .null => some none
  | v => v.str?.map some

/-- Options as they are registered. What is not given keeps its default. -/
def ofJson? (v : Json) : Option BodyOptions :=
  match v.record? true [["limit"], ["type"], ["strict"]] with
  | some [limit, type, strict] => do
    let limit ← match limit with
      | some v => ByteLimit.ofJson? v
      | none => some ({} : BodyOptions).limit
    let contentType ← match type with
      | some v => typeOfJson? v
      | none => some none
    let strict ← match strict with
      | some v => v.bool?
      | none => some true
    some { limit, contentType, strict }
  | _ => none

end BodyOptions

inductive ParsedBody where
  | json (v : Json)
  | raw (bytes : Bytes)
  | text (text : List Char)
  | form (pairs : List (String × String))

namespace ParsedBody

/-- The body as JSON: raw bytes by their number, a form by its pairs, of which the last with a name
counts. -/
def toJson : ParsedBody → Json
  | json v => v
  | raw bytes => Json.ofNat bytes.length
  | text cs => .str (String.ofList cs)
  | form pairs => Json.mkObj (pairs.map fun (k, v) => (k, .str v))

end ParsedBody

inductive BodyFault where
  /-- Larger than the limit, by its own account or in fact. -/
  | tooLarge
  /-- Neither an object nor an array where only those are accepted. -/
  | notContainer
  | invalidJson
  | invalidUtf8
  deriving DecidableEq, Repr

namespace BodyFault

def status : BodyFault → Nat
  | tooLarge => 413
  | _ => 400

def message : BodyFault → String
  | tooLarge => "request entity too large"
  | notContainer => "strict mode only accepts objects and arrays"
  | invalidJson => "invalid json: <reason>"
  | invalidUtf8 => "body is not valid utf-8"

end BodyFault

structure BodyParser where
  kind : BodyKind
  options : BodyOptions
  deriving DecidableEq, Repr

namespace BodyParser

def contentType (p : BodyParser) : String := p.options.contentType.getD p.kind.defaultType

/-- Space, tab, line feed, form feed and carriage return as bytes. -/
def isBlankByte (b : UInt8) : Bool := b == 32 || b == 9 || b == 10 || b == 12 || b == 13

/-- A body of blanks is an empty object. -/
def readJson (strict : Bool) (bytes : Bytes) : Except BodyFault Json :=
  match bytes.find? (!isBlankByte ·) with
  | none => .ok (.obj [])
  | some b =>
    if strict && b != 123 && b != 91 then .error .notContainer
    else match (ofUtf8? bytes).bind Json.parse? with
      | some v => .ok v
      | none => .error .invalidJson

/-- Reads a body that is within the limit. -/
def read (p : BodyParser) (bytes : Bytes) : Except BodyFault ParsedBody :=
  match p.kind with
  | .json => (readJson p.options.strict bytes).map .json
  | .raw => .ok (.raw bytes)
  | .text =>
    match ofUtf8? bytes with
    | some text => .ok (.text text)
    | none => .error .invalidUtf8
  | .form => .ok (.form (Form.decode bytes))

/-- Reads a body whose request gives its length as `declared`. -/
def parse (p : BodyParser) (declared : Option Nat) (bytes : Bytes) : Except BodyFault ParsedBody :=
  if declared.any (p.options.limit < ·) || p.options.limit < bytes.length then .error .tooLarge
  else p.read bytes

end BodyParser
end RouteQuery.Http
