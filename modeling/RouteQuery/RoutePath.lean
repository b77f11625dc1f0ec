import RouteQuery.Escape

/-! Names of the query language and the route paths they stand for. -/
namespace RouteQuery

/-- A letter or underscore, then letters, digits and underscores, all ASCII. -/
def isIdentifier (name : String) : Bool :=
  match name.toList with
  | [] => false
  | c :: cs => Text.isWordStart c && cs.all Text.isWordChar

inductive RoutePath where
  /-- A path with `:name` parameters, wildcards and groups. -/
  | literal (path : String)
  /-- The source of a regular expression. -/
  | regex (source : String)
  deriving DecidableEq, Repr

namespace RoutePath

/-- The part of an identifier between the slash tokens that it starts and ends with. -/
def regexSource? (identifier : List Char) : Option (List Char) :=
  let slash := Escape.slashToken.toList
  if 2 * slash.length ≤ identifier.length ∧ slash.isPrefixOf identifier ∧
      slash.isSuffixOf identifier then
    some ((identifier.drop slash.length).take (identifier.length - 2 * slash.length))
  else none

def ofIdentifier (identifier : String) : RoutePath :=
  match regexSource? identifier.toList with
  | some inner => .regex (String.ofList (Escape.decodeChars inner))
  | none => .literal (Escape.decode identifier)

def source : RoutePath → String
  | literal path => path
  | regex source => source

/-- The path as it is written in a query: a regular expression stands between slashes. -/
def text : RoutePath → String
  | literal path => path
  | regex source => "/" ++ source ++ "/"

end RoutePath
end RouteQuery
