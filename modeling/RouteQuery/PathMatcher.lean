import RouteQuery.PathTemplate
import RouteQuery.Pattern.Parse

/-! Request paths against route paths. -/
namespace RouteQuery

/-- A route path ready to be matched. `keys` names the groups of `node` in order. -/
structure PathMatcher where
  source : RoutePath
  mode : MatchMode
  node : Pattern.Node
  keys : List String

/-- The parameters of a match in order, and the part of the path behind it. -/
structure PathMatch where
  params : List (String × String)
  rest : List Char
  deriving DecidableEq, Repr

namespace PathMatcher

/-- The groups of a regular expression without a name are called by their position. -/
def keysOf (p : Pattern.Parsed) : List String :=
  (List.range p.node.groups).map fun i => (p.names.lookup (i + 1)).getD (toString i)

def compile (path : RoutePath) (mode : MatchMode) : Except Fault PathMatcher :=
  match path with
  | .literal text =>
    match PathTemplate.compile text mode with
    | .ok (node, keys) => .ok ⟨path, mode, node, keys⟩
    | .error fault => .error (.invalidPath path fault)
  | .regex source =>
    match Pattern.parse? source.toList with
    | some parsed => .ok ⟨path, mode, parsed.node, keysOf parsed⟩
    | none => .error (.invalidPath path (.badPattern source))

/-- A place that lies at the end of the path or next to a slash. -/
def onBoundary (p : Pattern.Point) : Bool :=
  p.rest.isEmpty || p.before == some '/' || p.rest.head? == some '/'

/-- The first match in a path. A literal mount must match whole segments. Groups that took no part
have no parameter. -/
def matches? (m : PathMatcher) (path : List Char) : Option PathMatch :=
  match Pattern.search m.node path with
  | none => none
  | some p =>
    let literalMount := match m.source, m.mode with
      | .literal _, .mount => true
      | _, _ => false
    if literalMount && !onBoundary p then none
    else
      let params := (m.keys.zipIdx 1).filterMap fun (key, i) =>
        (p.captured.lookup i).map fun value => (key, String.ofList value)
      some ⟨params, p.rest⟩

end PathMatcher
end RouteQuery
