import RouteQuery.QueryText
import RouteQuery.Text.Utf8

/-! The files that a program can reach, as a value, and what a path leads to. -/
namespace RouteQuery
open Text

/-- Files, named by the parts of their paths from the root on, and the directory from which relative
paths start, as it is written. Every part but the last of a file is a directory. -/
structure Workspace where
  location : String
  files : List (List String × Bytes)

inductive Workspace.Entry where
  | file (content : Bytes)
  | directory
  deriving DecidableEq, Repr

namespace Workspace

def parts (path : String) : List String :=
  (splitAt (· == '/') path.toList).map String.ofList

/-- The parts of the directory from which relative paths start. -/
def home (w : Workspace) : List String := (parts w.location).filter (· ≠ "")

def child? (w : Workspace) (path : List String) : Option Entry :=
  match w.files.lookup path with
  | some content => some (.file content)
  | none =>
    if w.files.any (path.isPrefixOf ·.1) || path.isPrefixOf w.home then some .directory else none

def maxName : Nat := 255

def maxPath : Nat := 4095

/-- Follows names from the directory or file `place`, which is `entry`. -/
def walk (w : Workspace) (place : List String) (entry : Entry) :
    List String → Except LookupFault Entry
  | [] => .ok entry
  | name :: rest =>
    match entry with
    | .file _ => .error .notDirectory
    | .directory =>
      if name = "" ∨ name = "." then walk w place .directory rest
      else if name = ".." then walk w place.dropLast .directory rest
      else if name.utf8ByteSize > maxName then .error .nameTooLong
      else match w.child? (place ++ [name]) with
        | some entry => walk w (place ++ [name]) entry rest
        | none => .error .absent

/-- A path as it is written from the root on. -/
def absolute (w : Workspace) (path : String) : String :=
  if path.startsWith "/" then path
  else if w.location.endsWith "/" then w.location ++ path
  else w.location ++ "/" ++ path

def origin (w : Workspace) (path : String) : List String :=
  if path.startsWith "/" then [] else w.home

/-- The parts of a path from the root on, if every name in it leads to a directory. -/
def resolve (w : Workspace) (path : String) : List String :=
  (parts path).foldl (fun place name =>
    if name = "" ∨ name = "." then place
    else if name = ".." then place.dropLast
    else place ++ [name]) (w.origin path)

/-- Files under paths that start at `location`. -/
def ofFiles (location : String) (files : List (String × Bytes)) : Workspace :=
  let w : Workspace := ⟨location, []⟩
  { w with files := files.map fun (path, content) => (w.resolve path, content) }

/-- What names lead to from a directory. -/
def lookupNames (w : Workspace) (place names : List String) : Except LookupFault Entry :=
  if names.any (·.contains '\x00') then .error .zeroByte else w.walk place .directory names

/-- What a path leads to, and names from there on. -/
def lookupBelow (w : Workspace) (path : String) (names : List String) : Except LookupFault Entry :=
  w.lookupNames (w.origin path) (parts path ++ names)

def lookup (w : Workspace) (path : String) : Except LookupFault Entry :=
  if path.isEmpty then .error .absent
  else if path.utf8ByteSize > maxPath then .error .nameTooLong
  else w.lookupBelow path []

def readText (w : Workspace) (path : String) : Except Fault (List Char) :=
  match w.lookup path with
  | .ok (.file content) =>
    match ofUtf8? content with
    | some text => .ok text
    | none => .error (.unreadableFile .notUtf8)
  | .ok .directory => .error (.unreadableFile .directory)
  | .error fault => .error (.unreadableFile (.unreachable fault))

/-- A text with a `{` is the query itself. Any other names a file, and stands for itself when
there is no such file. -/
def loadQuery (w : Workspace) (source : String) : Except Fault (List Char) :=
  if source.contains '{' then .ok source.toList
  else match w.lookup source with
    | .error .absent => .ok source.toList
    | _ => w.readText source

end Workspace
end RouteQuery
