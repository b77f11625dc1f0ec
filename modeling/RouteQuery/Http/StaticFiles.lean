import RouteQuery.Http.ByteRange
import RouteQuery.Http.ContentCoding
import RouteQuery.Workspace

/-! Answering requests with the files of a directory. -/
namespace RouteQuery.Http
open Text

structure StaticOptions where
  /-- Answer a request for a directory with its `index.html`. -/
  index : Bool := true
  /-- Prefer files that are already compressed. -/
  gzip : Bool := false
  brotli : Bool := false
  deriving DecidableEq, Repr

namespace StaticOptions

def boolOr (default : Bool) : Option Json → Option Bool
  | some v => v.bool?
  | none => some default

/-- Options as they are registered. What is not given keeps its default. -/
def ofJson? (v : Json) : Option StaticOptions :=
  match v.record? true [["index"], ["precompressed_gzip", "precompressedGzip"],
      ["precompressed_br", "precompressedBr"]] with
  | some [index, gzip, brotli] => do
    some ⟨← boolOr true index, ← boolOr false gzip, ← boolOr false brotli⟩
  | _ => none

def codings (o : StaticOptions) : List ContentCoding :=
  (if o.gzip then [.gzip] else []) ++ (if o.brotli then [.brotli] else [])

end StaticOptions

/-- A directory whose files are served. A relative root starts at the workspace. -/
structure StaticFiles where
  root : String
  options : StaticOptions
  deriving DecidableEq, Repr

namespace StaticFiles

/-- The name of a file without its last dot and what follows; a dot that opens a name does not
count. -/
def splitExtension (name : String) : String × Option String :=
  let cs := name.toList.reverse
  let extension := cs.takeWhile (· ≠ '.')
  let stem := (cs.drop (extension.length + 1)).reverse
  if extension.length = cs.length ∨ stem.isEmpty then (name, none)
  else (String.ofList stem, some (String.ofList extension.reverse))

/-- Extensions, in lower case, and the types of the files that bear them. -/
def knownTypes : List (String × String) :=
  [("txt", "text/plain"), ("html", "text/html"), ("htm", "text/html"), ("css", "text/css"),
   ("js", "text/javascript"), ("mjs", "text/javascript"), ("json", "application/json"),
   ("csv", "text/csv"), ("md", "text/markdown"), ("xml", "text/xml"), ("svg", "image/svg+xml"),
   ("png", "image/png"), ("jpg", "image/jpeg"), ("jpeg", "image/jpeg"), ("gif", "image/gif"),
   ("webp", "image/webp"), ("ico", "image/x-icon"), ("pdf", "application/pdf"),
   ("wasm", "application/wasm"), ("gz", "application/gzip"), ("zip", "application/zip"),
   ("toml", "text/x-toml"), ("woff", "application/font-woff"), ("woff2", "font/woff2")]

/-- The type of a file by the extension of its name, in any case. -/
def contentType (name : String) : String :=
  ((splitExtension name).2.bind fun e => knownTypes.lookup (e.map Char.toLower)).getD
    "application/octet-stream"

/-- The file that a path asks for, below the root: percent-encoding is decoded, and neither `..` nor
an encoded slash may lead out of the directory. -/
def components? (path : List Char) : Option (List String) := do
  let decoded ← ofUtf8? (percentDecode (toUtf8 (path.dropWhile (· == '/'))))
  if decoded.head? = some '/' then none
  let parts := (splitAt (· == '/') decoded).filter fun p => p ≠ [] ∧ p ≠ ['.']
  if parts.contains ['.', '.'] then none else some (parts.map String.ofList)

/-- Opens the file `name` in the first of the codings that it exists in. Where it does not exist in
one, the name looked for loses its extension before the next one is tried. -/
def openFile (lookup : String → Except LookupFault Workspace.Entry) (name : String) :
    List ContentCoding → Except LookupFault (Workspace.Entry × Option ContentCoding)
  | [] => (lookup name).map (·, none)
  | coding :: rest =>
    let coded := name ++ coding.extension
    match lookup coded with
    | .ok entry => .ok (entry, some coding)
    | .error .absent => openFile lookup (splitExtension coded).1 rest
    | .error fault => .error fault

/-- The answer to an open file or to the fault met on the way. A missing file, or a path through a
file, is not found; other faults are the server's. -/
def answerFile (name : String) (headers : Headers) :
    Except LookupFault (Workspace.Entry × Option ContentCoding) → Response
  | .ok (entry, coding) =>
    let content := match entry with
      | .file bytes => bytes
      | .directory => []
    let codingHeader := match coding.bind (·.token?) with
      | some token => [("content-encoding", Response.bytesOf token)]
      | none => []
    ByteRange.apply headers
      { status := 200
        headers := (Response.contentType, Response.bytesOf (contentType name)) :: codingHeader
        body := content }
  | .error .absent | .error .notDirectory => .notFound
  | .error _ => .bare 500

/-- The place of a path below the root: the directory that it lies in, and its name. The root itself
lies in its own parent. -/
def place (d : StaticFiles) (path : List String) : List String × String :=
  let names := Workspace.parts d.root ++ path
  (names.dropLast, names.getLast?.getD "")

/-- Answers a `GET` or `HEAD` request for a path below the directory. A directory is answered by its
index; without a slash at its end the client is first sent to the path with one. -/
def serve (d : StaticFiles) (w : Workspace) (uri : Uri) (headers : Headers) : Response :=
  match components? uri.path with
  | none => .notFound
  | some path =>
    let directory := match w.lookupBelow d.root path with
      | .ok .directory => true
      | _ => false
    if directory && !d.options.index then .notFound
    else if directory && uri.path.getLast? ≠ some '/' then
      let query := match uri.query with
        | some query => '?' :: query
        | none => []
      { status := 307, headers := [("location", toUtf8 (uri.path ++ '/' :: query))] }
    else
      let (parents, name) := d.place (if directory then path ++ ["index.html"] else path)
      let lookup (name : String) := w.lookupNames (w.origin d.root) (parents ++ [name])
      let codings := ContentCoding.preference (ContentCoding.accepted d.options.codings headers)
      answerFile name headers (openFile lookup name codings)

end StaticFiles
end RouteQuery.Http
