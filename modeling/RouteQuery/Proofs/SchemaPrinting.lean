import RouteQuery.Proofs.Lexing
import RouteQuery.Vocabulary

/-! Schemas from the tokens that spell them. The schema of a vocabulary compiles to the three types
that it stands for. -/
namespace RouteQuery

def TypeRef.tokens (t : TypeRef) : List Token := .name t.name :: if t.nonNull then [.bang] else []

namespace ObjectType

def fieldTokens (fields : List (String × TypeRef)) : List Token :=
  fields.flatMap fun (f, t) => .name f :: .colon :: t.tokens

def tokens (t : ObjectType) : List Token :=
  .name "type" :: .name t.name :: .openBrace :: (fieldTokens t.fields ++ [.closeBrace])

end ObjectType

namespace SchemaText
open ObjectType

theorem typeDefs_fields {finished : List ObjectType} {place : List Char} {n : String}
    {fields acc : List (String × TypeRef)} {ls rest : List Lexeme}
    (h : ls.map (·.token) = fieldTokens fields ++ [.closeBrace]) :
    typeDefs finished (some (place, n, acc)) (ls ++ rest) =
      typeDefs (⟨n, acc.reverse ++ fields⟩ :: finished) none rest := by
  induction fields generalizing ls acc with
  | nil =>
    obtain ⟨s₁, ls, rfl, h₁⟩ := exists_of_map_token_eq_cons h
    obtain rfl := List.map_eq_nil_iff.mp h₁
    simp [typeDefs]
  | cons field fields ih =>
    obtain ⟨f, t, nonNull⟩ := field
    simp only [fieldTokens, List.flatMap_cons, TypeRef.tokens, List.cons_append, List.append_assoc]
      at h
    obtain ⟨s₁, ls, rfl, h₁⟩ := exists_of_map_token_eq_cons h
    obtain ⟨s₂, ls, rfl, h₂⟩ := exists_of_map_token_eq_cons h₁
    obtain ⟨s₃, ls, rfl, h₃⟩ := exists_of_map_token_eq_cons h₂
    cases nonNull with
    | true =>
      obtain ⟨s₄, ls, rfl, h₄⟩ := exists_of_map_token_eq_cons h₃
      have step : typeDefs finished (some (place, n, (f, ⟨t, true⟩) :: acc)) (ls ++ rest) = _ := ih h₄
      simpa [typeDefs] using step
    | false =>
      have step : typeDefs finished (some (place, n, (f, ⟨t, false⟩) :: acc)) (ls ++ rest) = _ := ih h₃
      -- What follows the type is no `!`, so the field ends with it.
      have hbang : ∀ s ls', ls ++ rest ≠ ⟨.bang, s⟩ :: ls' := by
        rintro s ls' he
        cases fields <;> obtain ⟨s₄, ls, rfl, -⟩ := exists_of_map_token_eq_cons h₃ <;> simp at he
      rw [List.cons_append, List.cons_append, List.cons_append, typeDefs.eq_def]
      simpa using step

theorem typeDefs_types {types finished : List ObjectType} {ls : List Lexeme}
    (h : ls.map (·.token) = types.flatMap ObjectType.tokens) :
    typeDefs finished none ls = typeDefs (types.reverse ++ finished) none [] := by
  induction types generalizing ls finished with
  | nil =>
    obtain rfl := List.map_eq_nil_iff.mp h
    rfl
  | cons t types ih =>
    simp only [List.flatMap_cons, ObjectType.tokens, List.cons_append] at h
    obtain ⟨s₁, ls, rfl, h₁⟩ := exists_of_map_token_eq_cons h
    obtain ⟨s₂, ls, rfl, h₂⟩ := exists_of_map_token_eq_cons h₁
    obtain ⟨s₃, ls, rfl, h₃⟩ := exists_of_map_token_eq_cons h₂
    obtain ⟨inside, rest, rfl, hinside, hrest⟩ := List.map_eq_append_iff.mp h₃
    rw [typeDefs.eq_def]
    simp only [↓reduceIte, typeDefs_fields hinside, ih hrest]
    simp

theorem parse_of_tokens {types : List ObjectType} {text : List Char} (hne : types ≠ [])
    (h : RouteQuery.tokens text = types.flatMap ObjectType.tokens) : parse text = .ok types := by
  obtain ⟨t, types, rfl⟩ := List.exists_cons_of_ne_nil hne
  have hhead : headFault? text (lexemes text) = none := by
    simp only [RouteQuery.tokens, List.flatMap_cons, ObjectType.tokens, List.cons_append] at h
    obtain ⟨s₁, ls, hls, h₁⟩ := exists_of_map_token_eq_cons h
    obtain ⟨s₂, ls, rfl, h₂⟩ := exists_of_map_token_eq_cons h₁
    obtain ⟨s₃, ls, rfl, h₃⟩ := exists_of_map_token_eq_cons h₂
    simp [hls, headFault?]
  simp only [parse, hhead]
  rw [typeDefs_types h, typeDefs]
  simp [Except.mapError]

end SchemaText

namespace Schema

theorem repeatedField?_eq_none_iff {fields : List (String × TypeRef)} {seen : List String} :
    repeatedField? seen fields = none ↔
      (fields.map (·.1)).Nodup ∧ ∀ f ∈ fields, f.1 ∉ seen := by
  induction fields generalizing seen with
  | nil => simp [repeatedField?]
  | cons field fields ih =>
    obtain ⟨f, t⟩ := field
    have hapart : (∀ g ∈ fields, g.1 ∉ f :: seen) ↔
        f ∉ fields.map (·.1) ∧ ∀ g ∈ fields, g.1 ∉ seen := by
      simp only [List.mem_cons, not_or, List.mem_map, not_exists, not_and]
      exact forall₂_and
    rw [repeatedField?, List.map_cons, List.nodup_cons, List.forall_mem_cons]
    by_cases hf : f ∈ seen
    · simp [hf]
    · rw [if_neg hf, ih, hapart]
      tauto

theorem ofTypes_eq_ok {schema : Schema} (hdefined : definitionFault? [] schema.types = none)
    (hreferred : referenceFault? schema.types = none) : ofTypes schema.types = .ok schema := by
  obtain ⟨types, query, hquery⟩ := schema
  simp only [ofTypes, hdefined, hreferred]
  split
  · next found h =>
    obtain rfl : found = query := Option.some.inj (h.symm.trans hquery)
    rfl
  · next h => simp [hquery] at h

end Schema

namespace Vocabulary

structure WellFormed (v : Vocabulary) : Prop where
  paths_nodup : v.paths.Nodup
  tasks_nodup : v.tasks.Nodup
  isIdentifier_path : ∀ name ∈ v.paths, isIdentifier name = true
  isIdentifier_task : ∀ name ∈ v.tasks, isIdentifier name = true

/-- A type whose fields are all of one nullable type. -/
def uniformType (name : String) (fields : List String) (type : String) : ObjectType :=
  ⟨name, fields.map fun f => (f, ⟨type, false⟩)⟩

def queryType (v : Vocabulary) : ObjectType := uniformType queryTypeName v.paths pathType

def verbsType : ObjectType := uniformType pathType (Verb.all.map (·.name)) taskType

def tasksType (v : Vocabulary) : ObjectType := uniformType taskType v.tasks "String"

/-- The schema that the text of the vocabulary describes. -/
def schema (v : Vocabulary) : Schema where
  types := [v.queryType, verbsType, v.tasksType]
  query := v.queryType
  query_mem := rfl

theorem tokens_fieldLines {fields : List String} {type : String}
    (hfields : ∀ f ∈ fields, isIdentifier f = true) (htype : isIdentifier type = true)
    (rest : List Char) :
    tokens ((fields.map fun f => "  " ++ f ++ ": " ++ type ++ "\n").flatMap String.toList ++ rest) =
      ObjectType.fieldTokens (fields.map fun f => (f, ⟨type, false⟩)) ++ tokens rest := by
  induction fields with
  | nil => rfl
  | cons f fields ih =>
    have hf : isIdentifier f = true := hfields f (by simp)
    have step := ih fun g hg => hfields g (by simp [hg])
    simp only [List.map_cons, List.flatMap_cons, String.toList_append, List.append_assoc]
    generalize List.flatMap String.toList _ ++ rest = more at step ⊢
    change tokens (' ' :: ' ' :: (f.toList ++ ':' :: ' ' :: (type.toList ++ '\n' :: more))) = _
    rw [tokens_space, tokens_space, tokens_name hf (by simp [Text.isWordChar]), tokens_colon,
      tokens_space, tokens_name htype (by simp [Text.isWordChar]), tokens_newline, step]
    rfl

theorem tokens_typeText {name type : String} {fields : List String}
    (hname : isIdentifier name = true) (hfields : ∀ f ∈ fields, isIdentifier f = true)
    (htype : isIdentifier type = true) (rest : List Char) :
    tokens ((typeText name fields type).toList ++ rest) =
      (uniformType name fields type).tokens ++ tokens rest := by
  have hword : isIdentifier "type" = true := by decide
  have hlines := tokens_fieldLines hfields htype ('}' :: '\n' :: rest)
  simp only [typeText, String.toList_append, String.toList_join, List.append_assoc]
  generalize List.flatMap String.toList _ = lines at hlines ⊢
  change tokens ("type".toList ++ ' ' :: (name.toList ++ ' ' :: '{' :: '\n' :: (lines ++
    '}' :: '\n' :: rest))) = _
  rw [tokens_name hword (by simp [Text.isWordChar]), tokens_space,
    tokens_name hname (by simp [Text.isWordChar]), tokens_space, tokens_openBrace, tokens_newline,
    hlines, tokens_closeBrace, tokens_newline]
  simp [ObjectType.tokens, uniformType]

theorem tokens_schemaText {v : Vocabulary} (h : v.WellFormed) :
    tokens v.schemaText.toList = v.schema.types.flatMap ObjectType.tokens := by
  have hverbs : ∀ f ∈ Verb.all.map (·.name), isIdentifier f = true := by decide
  have htask : isIdentifier taskType = true := by decide
  have hstring : isIdentifier "String" = true := by decide
  have hend := tokens_typeText htask h.isIdentifier_task hstring []
  rw [List.append_nil] at hend
  rw [schemaText, String.toList_append, String.toList_append, List.append_assoc,
    tokens_typeText (by decide) h.isIdentifier_path (by decide),
    tokens_typeText (by decide) hverbs (by decide), hend, tokens_nil]
  simp [schema, queryType, verbsType, tasksType]

@[simp] theorem name_uniformType (name type : String) (fields : List String) :
    (uniformType name fields type).name = name := rfl

theorem repeatedField?_uniformType {name type : String} {fields : List String}
    (h : fields.Nodup) : Schema.repeatedField? [] (uniformType name fields type).fields = none :=
  Schema.repeatedField?_eq_none_iff.mpr
    ⟨by simpa [uniformType, Function.comp_def] using h, by simp⟩

/-- Whatever the names are, the schema text of a vocabulary compiles. -/
theorem compile_schemaText {v : Vocabulary} (h : v.WellFormed) :
    Schema.compile v.schemaText.toList = .ok v.schema := by
  have hparse : SchemaText.parse v.schemaText.toList = .ok v.schema.types :=
    SchemaText.parse_of_tokens (by simp [schema]) (tokens_schemaText h)
  have hverbs : (Verb.all.map (·.name)).Nodup := by decide
  have hdefined : Schema.definitionFault? [] v.schema.types = none := by
    simp [schema, queryType, verbsType, tasksType, Schema.definitionFault?,
      repeatedField?_uniformType h.paths_nodup, repeatedField?_uniformType h.tasks_nodup,
      repeatedField?_uniformType hverbs, builtinScalars, queryTypeName, pathType, taskType]
  have hreferred : Schema.referenceFault? v.schema.types = none := by
    simp [Schema.referenceFault?, schema, queryType, verbsType, tasksType, uniformType,
      builtinScalars]
  rw [Schema.compile, hparse]
  exact Schema.ofTypes_eq_ok hdefined hreferred

end Vocabulary
end RouteQuery
