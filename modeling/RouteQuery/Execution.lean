import RouteQuery.Document
import RouteQuery.Schema
import RouteQuery.Json.Basic

/-! Checking a document against a schema and answering it from a tree of values. -/
namespace RouteQuery

inductive QueryFault where
  | syntaxFault (fault : SyntaxFault)
  | unknownField (field type : String)
  | missingSelection (field : String) (type : TypeRef)
  | forbiddenSelection (field : String) (type : TypeRef)
  | wrongShape (parent field : String) (type : TypeRef)
  | forbiddenNull (parent field : String)
  deriving DecidableEq, Repr

def QueryFault.message : QueryFault → String
  | syntaxFault fault => fault.message
  | unknownField field type =>
    "Cannot query field \"" ++ field ++ "\" on type \"" ++ type ++ "\"."
  | missingSelection field type =>
    "Field \"" ++ field ++ "\" of type \"" ++ type.text ++ "\" must have a selection of subfields."
  | forbiddenSelection field type =>
    "Field \"" ++ field ++ "\" must not have a selection since type \"" ++ type.text ++
      "\" has no subfields."
  | wrongShape parent field type =>
    "Field \"" ++ parent ++ "." ++ field ++ "\" resolved to a value that does not match type \"" ++
      type.text ++ "\"."
  | forbiddenNull parent field =>
    "Cannot return null for non-nullable field " ++ parent ++ "." ++ field ++ "."

inductive Resolved (α : Type) where
  | null
  | scalar (v : Json)
  | object (a : α)

abbrev Resolver (α : Type) := α → String → Resolved α

/-- JSON as a tree of values: an object has its members as fields, anything else has none. -/
def Json.resolver : Resolver Json := fun v field =>
  match v.get? field with
  | none | some .null => .null
  | some (.obj members) => .object (.obj members)
  | some other => .scalar other

namespace Execution

/-- Every invalid selection, in the order of the text. Below an unknown field or a forbidden
selection set nothing is looked at. -/
def validate (schema : Schema) (parent : ObjectType) : List Selection → List QueryFault
  | [] => []
  | .leaf name :: rest =>
    (match parent.field? name with
      | none => [.unknownField name parent.name]
      | some type =>
        if (schema.object? type.name).isSome then [.missingSelection name type] else []) ++
      validate schema parent rest
  | .branch name children :: rest =>
    (match parent.field? name with
      | none => [.unknownField name parent.name]
      | some type =>
        match schema.object? type.name with
        | some object => validate schema object children
        | none => [.forbiddenSelection name type]) ++
      validate schema parent rest

/-- The number of selections, those inside others included. -/
def weight : List Selection → Nat
  | [] => 0
  | .leaf _ :: rest => weight rest + 1
  | .branch _ children :: rest => weight children + weight rest + 1

/-- The distinct names among selections, in order of first occurrence. -/
def fieldNames (selections : List Selection) : List String :=
  (selections.foldl (fun seen s => if s.name ∈ seen then seen else s.name :: seen) []).reverse

/-- The selections below all those named `name`, one after the other. -/
def childrenOf (name : String) : List Selection → List Selection
  | [] => []
  | s :: rest =>
    if s.name = name then s.children ++ childrenOf name rest else childrenOf name rest

theorem weight_append (xs ys : List Selection) : weight (xs ++ ys) = weight xs + weight ys := by
  induction xs with
  | nil => simp [weight]
  | cons x xs ih => cases x <;> simp [weight, ih] <;> omega

theorem weight_cons (s : Selection) (rest : List Selection) :
    weight (s :: rest) = weight s.children + weight rest + 1 := by
  cases s <;> simp [weight, Selection.children]

theorem weight_childrenOf_le (name : String) (selections : List Selection) :
    weight (childrenOf name selections) ≤ weight selections := by
  induction selections with
  | nil => simp [childrenOf]
  | cons s rest ih =>
    rw [weight_cons]
    simp only [childrenOf]
    split
    · rw [weight_append]; omega
    · omega

theorem weight_childrenOf_lt (name : String) (s : Selection) (rest : List Selection) :
    weight (childrenOf name (s :: rest)) < weight (s :: rest) := by
  have := weight_childrenOf_le name rest
  rw [weight_cons]
  simp only [childrenOf]
  split
  · rw [weight_append]; omega
  · omega

/-- Adds the fault of a null where null is excluded. -/
def checkNull (parent field : String) (type : TypeRef) (answer : Json × List QueryFault) :
    Json × List QueryFault :=
  if answer.1.isNull && type.nonNull then (answer.1, answer.2 ++ [.forbiddenNull parent field])
  else answer

/-- A value for each selected field, and the faults met on the way. Equal names are answered
together, where the first of them stands. -/
def resolve {α : Type} (schema : Schema) (resolver : Resolver α) (object : ObjectType) (source : α) :
    List Selection → List (String × Json) × List QueryFault
  | [] => ([], [])
  | s :: rest =>
    let answers := (fieldNames (s :: rest)).filterMap fun name =>
      (object.field? name).map fun type =>
        let answer : Json × List QueryFault :=
          match resolver source name, schema.object? type.name with
          | .null, _ => (.null, [])
          | .object inner, some child =>
            let result := resolve schema resolver child inner (childrenOf name (s :: rest))
            (.obj result.1, result.2)
          | .scalar v, none => (v, [])
          | .object _, none | .scalar _, some _ => (.null, [.wrongShape object.name name type])
        (name, checkNull object.name name type answer)
    (answers.map fun (name, value, _) => (name, value), answers.flatMap (·.2.2))
termination_by selections => weight selections
decreasing_by exact weight_childrenOf_lt name s rest

end Execution

/-- The answer to a document. There is no data when the document is malformed or invalid. -/
structure ExecutionResult where
  data : Option (List (String × Json))
  faults : List QueryFault

def execute {α : Type} (schema : Schema) (query : List Char) (resolver : Resolver α) (source : α) :
    ExecutionResult :=
  match Document.parse query with
  | .error fault => ⟨none, [.syntaxFault fault]⟩
  | .ok document =>
    match Execution.validate schema schema.query document.selections with
    | [] =>
      let result := Execution.resolve schema resolver schema.query source document.selections
      ⟨some result.1, result.2⟩
    | faults => ⟨none, faults⟩

end RouteQuery
