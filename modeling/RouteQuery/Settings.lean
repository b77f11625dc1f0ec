import RouteQuery.SocketAddress
import RouteQuery.Text.Basic
import RouteQuery.Toml.Document

/-! The settings of a server, from TOML or JSON, and what can be wrong with them. -/
namespace RouteQuery

structure Settings where
  bindAddress : String := "0.0.0.0:3000"
  /-- A query, or the name of a file that holds it. -/
  querySource : String := "routes.gql"
  requestSeconds : Nat := 30
  logLevel : String := "info"
  metricsEnabled : Bool := false
  metricsAddress : String := "0.0.0.0:9090"
  /-- Options for descriptors, sorted by name. -/
  options : List (String × Json) := []

namespace Settings

/-- A field as `read?` understands it, its default when it is absent. -/
def fieldOr {α : Type} (default : α) (read? : Json → Option α) : Option Json → Option α
  | none => some default
  | some v => read? v

/-- The fields of a section. Those of an absent section are all absent. -/
def section? (exact : Bool) (fields : List String) : Option Json → Option (List (Option Json))
  | none => some (fields.map fun _ => none)
  | some v => v.record? exact (fields.map ([·]))

mutual

/-- Whether TOML can hold a value: there is no null, and integers have 64 bits with a sign. -/
def isStorable : Json → Bool
  | .null => false
  | .num (.int n) => n ≤ Toml.maxInteger
  | .arr items => allStorable items
  | .obj members => allMembersStorable members
  | _ => true

def allStorable : List Json → Bool
  | [] => true
  | v :: vs => isStorable v && allStorable vs

def allMembersStorable : List (String × Json) → Bool
  | [] => true
  | (_, v) :: rest => isStorable v && allMembersStorable rest

end

def optionsOf? : Json → Option (List (String × Json))
  | .obj members =>
    if members.all fun (_, v) => isStorable v then
      some (members.mergeSort fun a b => decide (a.1 ≤ b.1))
    else none
  | _ => none

/-- Settings from sections that are objects, or arrays of their values in order. What is not given
keeps its default. -/
def ofJson? (exact : Bool) (v : Json) : Option Settings := do
  let defaults : Settings := {}
  match ← section? exact ["listener", "query", "timeouts", "observability", "options"] (some v) with
  | [listener, query, timeouts, observability, options] =>
    match ← section? exact ["bind_address"] listener, ← section? exact ["source"] query,
      ← section? exact ["request_secs"] timeouts,
      ← section? exact ["log_level", "metrics_enabled", "metrics_address"] observability with
    | [bindAddress], [source], [seconds], [level, enabled, address] =>
      some {
        bindAddress := ← fieldOr defaults.bindAddress Json.str? bindAddress
        querySource := ← fieldOr defaults.querySource Json.str? source
        requestSeconds := ← fieldOr defaults.requestSeconds Json.nat? seconds
        logLevel := ← fieldOr defaults.logLevel Json.str? level
        metricsEnabled := ← fieldOr defaults.metricsEnabled Json.bool? enabled
        metricsAddress := ← fieldOr defaults.metricsAddress Json.str? address
        options := ← fieldOr [] optionsOf? options }
    | _, _, _, _ => none
  | _ => none

inductive Problem where
  | bindAddress (text : String)
  | metricsAddress (text : String)
  | emptySource
  | noTimeout
  | emptyOptionName
  deriving DecidableEq, Repr

def Problem.message : Problem → String
  | bindAddress text => "listener.bind_address \x60" ++ text ++ "\x60 is not a socket address"
  | metricsAddress text =>
    "observability.metrics_address \x60" ++ text ++ "\x60 is not a socket address"
  | emptySource => "query.source must not be empty"
  | noTimeout => "timeouts.request_secs must be greater than zero"
  | emptyOptionName => "option names must not be empty"

/-- All that is wrong with the settings. The address for metrics counts only when it is used. -/
def problems (s : Settings) : List Problem :=
  (if SocketAddress.parses s.bindAddress then [] else [.bindAddress s.bindAddress]) ++
  (if s.metricsEnabled && !SocketAddress.parses s.metricsAddress then
    [.metricsAddress s.metricsAddress] else []) ++
  (if s.querySource.toList.all Text.isBlank then [.emptySource] else []) ++
  (if s.requestSeconds = 0 then [.noTimeout] else []) ++
  (if s.options.any (·.1.toList.all Text.isBlank) then [.emptyOptionName] else [])

inductive Fault where
  | malformed
  | invalid (problems : List Problem)
  deriving DecidableEq, Repr

def invalidMessage (problems : List Problem) : String :=
  "Validation failed: " ++ ", ".intercalate (problems.map (·.message))

/-- Settings from the text of a TOML file. -/
def ofToml (text : List Char) : Except Fault Settings :=
  match (Toml.parse? text).bind (ofJson? false) with
  | none => .error .malformed
  | some settings =>
    if settings.problems.isEmpty then .ok settings else .error (.invalid settings.problems)

end Settings
end RouteQuery
