import RouteQuery.Lexeme

/-! Schema text, `type Name { field: Type! }`, and the checked schema it describes. -/
namespace RouteQuery

structure TypeRef where
  name : String
  nonNull : Bool
  deriving DecidableEq, Repr

/-- The name, with a `!` where null is excluded. -/
def TypeRef.text (t : TypeRef) : String := if t.nonNull then t.name ++ "!" else t.name

structure ObjectType where
  name : String
  fields : List (String × TypeRef)
  deriving DecidableEq, Repr

def ObjectType.field? (t : ObjectType) (name : String) : Option TypeRef := t.fields.lookup name

inductive SchemaFault where
  | syntaxFault (fault : SyntaxFault)
  | scalarName (type : String)
  | repeatedField (type field : String)
  | repeatedType (type : String)
  | unknownType (type field target : String)
  | noQueryType
  deriving DecidableEq, Repr

def SchemaFault.message : SchemaFault → String
  | syntaxFault fault => fault.message
  | scalarName type => "Type \"" ++ type ++ "\" conflicts with a built-in scalar."
  | repeatedField type field => "Field \"" ++ type ++ "." ++ field ++ "\" can only be defined once."
  | repeatedType type => "There can be only one type named \"" ++ type ++ "\"."
  | unknownType type field target =>
    "Unknown type \"" ++ target ++ "\" referenced by field \"" ++ type ++ "." ++ field ++ "\"."
  | noQueryType => "Query root type must be provided."

namespace SchemaText

/-- Reads type definitions. `finished` holds those already read, in reverse, and `current` the one
that is open: its first token's place, its name and, in reverse, its fields. The first definition
must be complete and reports its faults where they show; a later one that is not is itself the
fault. -/
def typeDefs (finished : List ObjectType)
    (current : Option (List Char × String × List (String × TypeRef))) :
    List Lexeme → Except (List Char) (List ObjectType)
  | [] =>
    match current with
    | none => if finished.isEmpty then .error [] else .ok finished.reverse
    | some (place, _) => .error (if finished.isEmpty then [] else place)
  | ⟨token, start⟩ :: rest =>
    match current with
    | none =>
      match token, rest with
      | .name word, ⟨.name n, _⟩ :: ⟨.openBrace, _⟩ :: rest =>
        if word = "type" then typeDefs finished (some (start, n, [])) rest else .error start
      | _, _ => .error start
    | some (place, n, fields) =>
      match token, rest with
      | .closeBrace, rest => typeDefs (⟨n, fields.reverse⟩ :: finished) none rest
      | .name f, ⟨.colon, _⟩ :: ⟨.name t, _⟩ :: ⟨.bang, _⟩ :: rest =>
        typeDefs finished (some (place, n, (f, ⟨t, true⟩) :: fields)) rest
      | .name f, ⟨.colon, _⟩ :: ⟨.name t, _⟩ :: rest =>
        typeDefs finished (some (place, n, (f, ⟨t, false⟩) :: fields)) rest
      | _, _ => .error (if finished.isEmpty then start else place)

/-- Where the head `type Name {` of the first definition fails. A first word other than `type` is
reported at the start of the text. -/
def headFault? (text : List Char) : List Lexeme → Option (List Char)
  | ⟨.name word, _⟩ :: rest =>
    if word = "type" then
      match rest with
      | ⟨.name _, _⟩ :: ⟨.openBrace, _⟩ :: _ => none
      | ⟨.name _, _⟩ :: rest => some (startOf rest)
      | rest => some (startOf rest)
    else some text
  | ts => some (startOf ts)

def parse (text : List Char) : Except SyntaxFault (List ObjectType) :=
  let ts := lexemes text
  let result : Except (List Char) (List ObjectType) := match headFault? text ts with
    | some place => .error place
    | none => typeDefs [] none ts
  result.mapError (SyntaxFault.locate text)

end SchemaText

def builtinScalars : List String := ["String", "Int", "Float", "Boolean", "ID"]

def queryTypeName : String := "Query"

/-- A schema in which every field's type is known. -/
structure Schema where
  types : List ObjectType
  query : ObjectType
  query_mem : types.find? (·.name == queryTypeName) = some query

namespace Schema

def object? (s : Schema) (name : String) : Option ObjectType := s.types.find? (·.name == name)

def repeatedField? (seen : List String) : List (String × TypeRef) → Option String
  | [] => none
  | (f, _) :: rest => if f ∈ seen then some f else repeatedField? (f :: seen) rest

/-- The first fault among the type definitions alone, `seen` being the names of those before. -/
def definitionFault? (seen : List String) : List ObjectType → Option SchemaFault
  | [] => none
  | t :: rest =>
    if t.name ∈ builtinScalars then some (.scalarName t.name)
    else match repeatedField? [] t.fields with
      | some f => some (.repeatedField t.name f)
      | none =>
        if t.name ∈ seen then some (.repeatedType t.name)
        else definitionFault? (t.name :: seen) rest

/-- The first field whose type is neither a scalar nor defined. -/
def referenceFault? (types : List ObjectType) : Option SchemaFault :=
  types.findSome? fun t => t.fields.findSome? fun (f, r) =>
    if r.name ∈ builtinScalars ∨ types.any (·.name == r.name) then none
    else some (.unknownType t.name f r.name)

def ofTypes (types : List ObjectType) : Except SchemaFault Schema :=
  match definitionFault? [] types with
  | some fault => .error fault
  | none =>
    match referenceFault? types with
    | some fault => .error fault
    | none =>
      match h : types.find? (·.name == queryTypeName) with
      | some query => .ok ⟨types, query, h⟩
      | none => .error .noQueryType

def compile (text : List Char) : Except SchemaFault Schema :=
  match SchemaText.parse text with
  | .error fault => .error (.syntaxFault fault)
  | .ok types => ofTypes types

end Schema
end RouteQuery
