import RouteQuery.Fault

/-! Descriptors, the lines `@name value: first -> second` that annotate a query. -/
namespace RouteQuery

structure Descriptor where
  name : String
  value : String
  args : List String
  deriving DecidableEq, Repr

namespace Descriptor
open Text

/-- The descriptor whose value is a route path. -/
def all : String := "all"

def isDelimiter (c : Char) : Bool := c == ':' || c == ';'

/-- The words of the argument part. Arrows between them are for the reader only. -/
def arguments (cs : List Char) : List String :=
  ((words cs).filter (· ≠ ['-', '>'])).map String.ofList

/-- The first delimiter that blank text or nothing follows: what stands before it and after it.
A `:` inside a path is none. -/
def pathDelimiter? : List Char → Option (List Char × List Char)
  | [] => none
  | c :: cs =>
    if isDelimiter c && (match cs with | [] => true | next :: _ => isAsciiBlank next) then
      some ([], cs)
    else (pathDelimiter? cs).map fun (before, after) => (c :: before, after)

/-- The first run of word characters with a delimiter right behind it. `run` holds, in reverse,
the word characters just read. -/
def delimitedWord? (run : List Char) : List Char → Option (List Char)
  | [] => none
  | c :: cs =>
    if isWordChar c then delimitedWord? (c :: run) cs
    else if isDelimiter c && !run.isEmpty then some run.reverse
    else delimitedWord? [] cs

def afterDelimiter (cs : List Char) : List Char :=
  ((cs.dropWhile (!isDelimiter ·)).drop 1).takeWhile (· ≠ '\n')

def parseLine (line : List Char) : Except Fault Descriptor :=
  let name := match line with
    | '@' :: rest => rest.takeWhile isWordChar
    | _ => []
  if name.isEmpty then .error (.namelessDescriptor (String.ofList (trim line)))
  else
    let tail := line.drop (name.length + 1)
    let name := String.ofList name
    if name = all then
      match pathDelimiter? tail with
      | none => .error (.valuelessDescriptor name)
      | some (before, after) =>
        let value := trim before
        if value.isEmpty then .error (.valuelessDescriptor name)
        else .ok ⟨name, String.ofList value, arguments after⟩
    else
      match delimitedWord? [] tail with
      | none => .error (.valuelessDescriptor name)
      | some value => .ok ⟨name, String.ofList value, arguments (afterDelimiter tail)⟩

/-- The descriptors of a query: on each line with an `@`, one from there to the end. -/
def parseAll (query : List Char) : Except Fault (List Descriptor) :=
  ((lines query).filter (·.contains '@')).mapM fun line => parseLine (line.dropWhile (· ≠ '@'))

end Descriptor
end RouteQuery
