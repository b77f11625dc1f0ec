import Mathlib
import RouteQuery.Proofs.Outcomes
import RouteQuery.Proofs.SchemaPrinting
import RouteQuery.Proofs.Tokenizing

/-! The grammar of schema text, and which type definitions fit together. A text compiles just when it
derives definitions that do, and the schema holds these definitions. -/
namespace RouteQuery
open Text

/-! ### The grammar -/

/-- The rule `Field := Name : Name !?`. -/
inductive IsField : List Token → String × TypeRef → Prop
  | nullable (field type : String) :
      IsField [.name field, .colon, .name type] (field, ⟨type, false⟩)
  | nonNull (field type : String) :
      IsField [.name field, .colon, .name type, .bang] (field, ⟨type, true⟩)

/-- Any number of fields, `Field*`. -/
inductive IsFields : List Token → List (String × TypeRef) → Prop
  | none : IsFields [] []
  | more {ts us : List Token} {f : String × TypeRef} {fields : List (String × TypeRef)}
      (first : IsField ts f) (rest : IsFields us fields) : IsFields (ts ++ us) (f :: fields)

/-- The rule `TypeDef := "type" Name { Field* }`. -/
inductive IsTypeDef : List Token → ObjectType → Prop
  | braces (name : String) {ts : List Token} {fields : List (String × TypeRef)}
      (inside : IsFields ts fields) :
      IsTypeDef (.name "type" :: .name name :: .openBrace :: (ts ++ [.closeBrace])) ⟨name, fields⟩

/-- One definition or more, `TypeDef+`. -/
inductive IsTypeDefs : List Token → List ObjectType → Prop
  | one {ts : List Token} {t : ObjectType} (first : IsTypeDef ts t) : IsTypeDefs ts [t]
  | more {ts us : List Token} {t : ObjectType} {types : List ObjectType} (first : IsTypeDef ts t)
      (rest : IsTypeDefs us types) : IsTypeDefs (ts ++ us) (t :: types)

theorem isField_iff {ts : List Token} {f : String × TypeRef} :
    IsField ts f ↔ ts = .name f.1 :: .colon :: f.2.tokens := by
  constructor
  · rintro (_ | _) <;> rfl
  · obtain ⟨field, type, nonNull⟩ := f
    rintro rfl
    cases nonNull with
    | false => exact .nullable field type
    | true => exact .nonNull field type

theorem isFields_iff {ts : List Token} {fields : List (String × TypeRef)} :
    IsFields ts fields ↔ ts = ObjectType.fieldTokens fields := by
  constructor
  · intro h
    induction h with
    | none => rfl
    | more first _ ih =>
      rw [isField_iff.mp first, ih]
      rfl
  · rintro rfl
    induction fields with
    | nil => exact .none
    | cons f fields ih => exact .more (isField_iff.mpr rfl) ih

theorem isTypeDef_iff {ts : List Token} {t : ObjectType} : IsTypeDef ts t ↔ ts = t.tokens := by
  constructor
  · rintro ⟨name, inside⟩
    rw [isFields_iff.mp inside]
    rfl
  · rintro rfl
    exact .braces t.name (isFields_iff.mpr rfl)

/-- Definitions are derived from their tokens. -/
theorem isTypeDefs_iff {ts : List Token} {types : List ObjectType} :
    IsTypeDefs ts types ↔ types ≠ [] ∧ ts = types.flatMap ObjectType.tokens := by
  constructor
  · intro h
    induction h with
    | one first => simp [isTypeDef_iff.mp first]
    | more first _ ih =>
      rw [isTypeDef_iff.mp first, ih.2]
      exact ⟨List.cons_ne_nil _ _, rfl⟩
  · rintro ⟨hne, rfl⟩
    induction types with
    | nil => exact absurd rfl hne
    | cons t types ih =>
      have first : IsTypeDef t.tokens t := isTypeDef_iff.mpr rfl
      cases types with
      | nil => simpa using IsTypeDefs.one first
      | cons next types => exact .more first (ih (List.cons_ne_nil _ _))

namespace ObjectType

theorem stray_not_mem_fieldTokens (fields : List (String × TypeRef)) :
    .stray ∉ fieldTokens fields := by
  rw [fieldTokens, List.mem_flatMap]
  rintro ⟨⟨f, t, nonNull⟩, -, hmem⟩
  cases nonNull <;> simp [TypeRef.tokens] at hmem

theorem stray_not_mem_tokens (t : ObjectType) : .stray ∉ t.tokens := by
  simp [tokens, stray_not_mem_fieldTokens]

end ObjectType

namespace SchemaText

/-- The tokens of the definition that is open, up to where reading has come. -/
def opened : Option (List Char × String × List (String × TypeRef)) → List Token
  | none => []
  | some (_, n, fields) =>
    .name "type" :: .name n :: .openBrace :: ObjectType.fieldTokens fields.reverse

/-- Reading loses no token of what it has read. -/
theorem tokens_of_typeDefs {finished types : List ObjectType}
    {current : Option (List Char × String × List (String × TypeRef))} {ls : List Lexeme}
    (h : typeDefs finished current ls = .ok types) :
    types ≠ [] ∧ types.flatMap ObjectType.tokens =
      finished.reverse.flatMap ObjectType.tokens ++ (opened current ++ ls.map (·.token)) := by
  fun_induction typeDefs finished current ls with
  | case2 finished hfinished =>
    obtain rfl := Except.ok.inj h
    exact ⟨by simpa using hfinished, by simp [opened]⟩
  | case4 finished start n _ _ rest ih =>
    obtain ⟨hne, htokens⟩ := ih h
    exact ⟨hne, by simp [htokens, opened, ObjectType.fieldTokens]⟩
  | case7 finished _ place n fields rest ih =>
    obtain ⟨hne, htokens⟩ := ih h
    exact ⟨hne, by simp [htokens, opened, ObjectType.tokens]⟩
  | case8 finished _ place n fields f _ t _ _ rest ih =>
    obtain ⟨hne, htokens⟩ := ih h
    exact ⟨hne, by simp [htokens, opened, ObjectType.fieldTokens, TypeRef.tokens]⟩
  | case9 finished _ place n fields f _ t _ rest _ ih =>
    obtain ⟨hne, htokens⟩ := ih h
    exact ⟨hne, by simp [htokens, opened, ObjectType.fieldTokens, TypeRef.tokens]⟩
  | case1 | case3 | case5 | case6 | case10 => cases h

theorem parse_iff_isTypeDefs {text : List Char} {types : List ObjectType} :
    parse text = .ok types ↔ IsTypeDefs (tokens text) types := by
  rw [isTypeDefs_iff]
  constructor
  · intro h
    rw [parse] at h
    have hread := eq_ok_of_mapError h
    split at hread
    · cases hread
    · obtain ⟨hne, htokens⟩ := tokens_of_typeDefs hread
      exact ⟨hne, by simpa [opened, tokens] using htokens.symm⟩
  · rintro ⟨hne, htokens⟩
    exact parse_of_tokens hne htokens

/-- A text is read as definitions just when it splits into tokens that derive them. -/
theorem parse_iff_splits {text : List Char} {types : List ObjectType} :
    parse text = .ok types ↔ ∃ ts, Splits text ts ∧ IsTypeDefs ts types := by
  rw [parse_iff_isTypeDefs]
  constructor
  · intro h
    have hstray : .stray ∉ tokens text := by
      simp [(isTypeDefs_iff.mp h).2, ObjectType.stray_not_mem_tokens]
    exact ⟨_, splits_tokens hstray, h⟩
  · rintro ⟨ts, hsplits, h⟩
    exact hsplits.tokens_eq ▸ h

end SchemaText

/-! ### Definitions that fit together -/

theorem ObjectType.field?_eq_some_iff {t : ObjectType} (h : (t.fields.map (·.1)).Nodup) {f : String}
    {r : TypeRef} : t.field? f = some r ↔ (f, r) ∈ t.fields := by
  rw [ObjectType.field?, List.lookup_eq_some_iff]
  constructor
  · rintro ⟨before, after, hsplit, -⟩
    simp [hsplit]
  · intro hmem
    obtain ⟨before, after, hsplit⟩ := List.append_of_mem hmem
    refine ⟨before, after, hsplit, fun p hp => ?_⟩
    rw [hsplit, List.map_append, List.map_cons, List.nodup_append] at h
    exact bne_iff_ne.mpr (h.2.2 p.1 (List.mem_map_of_mem hp) f List.mem_cons_self).symm

namespace Schema

/-- Definitions without repeated names whose fields have known types, one of them the root of
queries. -/
structure Consistent (types : List ObjectType) : Prop where
  not_scalar : ∀ t ∈ types, t.name ∉ builtinScalars
  names_nodup : (types.map (·.name)).Nodup
  fields_nodup : ∀ t ∈ types, (t.fields.map (·.1)).Nodup
  known : ∀ t ∈ types, ∀ f ∈ t.fields, f.2.name ∈ builtinScalars ∨ ∃ u ∈ types, u.name = f.2.name
  rooted : ∃ t ∈ types, t.name = queryTypeName

theorem definitionFault?_eq_none_iff {types : List ObjectType} {seen : List String} :
    definitionFault? seen types = none ↔
      (∀ t ∈ types, t.name ∉ builtinScalars ∧ (t.fields.map (·.1)).Nodup ∧ t.name ∉ seen) ∧
        (types.map (·.name)).Nodup := by
  induction types generalizing seen with
  | nil => simp [definitionFault?]
  | cons t types ih =>
    rw [List.forall_mem_cons, List.map_cons, List.nodup_cons, definitionFault?]
    by_cases hscalar : t.name ∈ builtinScalars
    · simp [hscalar]
    rw [if_neg hscalar]
    cases hrepeated : repeatedField? [] t.fields with
    | some f =>
      have hnodup : ¬(t.fields.map (·.1)).Nodup := fun hnodup => by
        rw [repeatedField?_eq_none_iff.mpr ⟨hnodup, by simp⟩] at hrepeated
        cases hrepeated
      simp [hnodup]
    | none =>
      have hnodup := (repeatedField?_eq_none_iff.mp hrepeated).1
      by_cases hseen : t.name ∈ seen
      · simp [hseen]
      · have hapart : (∀ u ∈ types, u.name ∉ t.name :: seen) ↔
            t.name ∉ types.map (·.name) ∧ ∀ u ∈ types, u.name ∉ seen := by
          simp only [List.mem_cons, not_or, List.mem_map, not_exists, not_and]
          exact forall₂_and
        simp only [hseen, if_false, ih, forall₂_and, hapart]
        tauto

theorem referenceFault?_eq_none_iff {types : List ObjectType} :
    referenceFault? types = none ↔ ∀ t ∈ types, ∀ f ∈ t.fields,
      f.2.name ∈ builtinScalars ∨ ∃ u ∈ types, u.name = f.2.name := by
  simp [referenceFault?, or_iff_not_imp_left]

/-- Definitions become a schema just when they are consistent, and this schema holds them. -/
theorem ofTypes_eq_ok_iff {types : List ObjectType} {schema : Schema} :
    ofTypes types = .ok schema ↔ schema.types = types ∧ Consistent types := by
  constructor
  · intro h
    rw [ofTypes] at h
    split at h
    · cases h
    · next hdefined =>
      split at h
      · cases h
      · next hreferred =>
        split at h
        · next query hquery =>
          obtain rfl := Except.ok.inj h
          obtain ⟨hdefinitions, hnames⟩ := definitionFault?_eq_none_iff.mp hdefined
          exact ⟨rfl, fun t ht => (hdefinitions t ht).1, hnames,
            fun t ht => (hdefinitions t ht).2.1, referenceFault?_eq_none_iff.mp hreferred,
            query, List.mem_of_find?_eq_some hquery, by simpa using List.find?_some hquery⟩
        · cases h
  · rintro ⟨rfl, h⟩
    refine ofTypes_eq_ok (definitionFault?_eq_none_iff.mpr ⟨fun t ht => ?_, h.names_nodup⟩)
      (referenceFault?_eq_none_iff.mpr h.known)
    exact ⟨h.not_scalar t ht, h.fields_nodup t ht, List.not_mem_nil⟩

theorem Consistent.exists_schema {types : List ObjectType} (h : Consistent types) :
    ∃ schema : Schema, schema.types = types := by
  obtain ⟨t, ht, hname⟩ := h.rooted
  have hfound : (types.find? (·.name == queryTypeName)).isSome :=
    List.find?_isSome.mpr ⟨t, ht, by simpa using hname⟩
  obtain ⟨query, hquery⟩ := Option.isSome_iff_exists.mp hfound
  exact ⟨⟨types, query, hquery⟩, rfl⟩

theorem name_of_object? {schema : Schema} {name : String} {t : ObjectType}
    (h : schema.object? name = some t) : t ∈ schema.types ∧ t.name = name :=
  ⟨List.mem_of_find?_eq_some h, by simpa using List.find?_some h⟩

/-- Every defined type is found under its name. -/
theorem Consistent.object?_of_mem {schema : Schema} (h : Consistent schema.types) {t : ObjectType}
    (ht : t ∈ schema.types) : schema.object? t.name = some t := by
  have hfound : (schema.object? t.name).isSome := List.find?_isSome.mpr ⟨t, ht, by simp⟩
  obtain ⟨u, hu⟩ := Option.isSome_iff_exists.mp hfound
  obtain ⟨hmem, hname⟩ := name_of_object? hu
  rw [hu, List.inj_on_of_nodup_map h.names_nodup hmem ht hname]

/-- The type of a field is an object type just when it is no scalar. -/
theorem Consistent.object?_eq_none_iff {schema : Schema} (h : Consistent schema.types) {t : ObjectType}
    (ht : t ∈ schema.types) {f : String × TypeRef} (hf : f ∈ t.fields) :
    schema.object? f.2.name = none ↔ f.2.name ∈ builtinScalars := by
  constructor
  · intro hnone
    rcases h.known t ht f hf with hscalar | ⟨u, hu, hname⟩
    · exact hscalar
    · rw [← hname, h.object?_of_mem hu] at hnone
      cases hnone
  · intro hscalar
    cases hobject : schema.object? f.2.name with
    | none => rfl
    | some u =>
      obtain ⟨hu, hname⟩ := name_of_object? hobject
      exact absurd (hname ▸ hscalar) (h.not_scalar u hu)

theorem compile_eq_ok_iff {text : List Char} {schema : Schema} : compile text = .ok schema ↔
    SchemaText.parse text = .ok schema.types ∧ Consistent schema.types := by
  constructor
  · intro h
    rw [compile] at h
    split at h
    · cases h
    · next types hparse =>
      obtain ⟨rfl, hconsistent⟩ := ofTypes_eq_ok_iff.mp h
      exact ⟨hparse, hconsistent⟩
  · rintro ⟨hparse, hconsistent⟩
    rw [compile, hparse]
    exact ofTypes_eq_ok_iff.mpr ⟨rfl, hconsistent⟩

/-- A text compiles just when it derives consistent definitions, and these are the only ones that it
derives. The schema has them in their order; its root is the type of queries, each type and each field is
found under its name, and so is the type of each field that is no scalar. -/
theorem compile_exactly_consistent :
    (∀ text schema, compile text = .ok schema ↔
      (∃ ts, Splits text ts ∧ IsTypeDefs ts schema.types) ∧ Consistent schema.types) ∧
    (∀ text, (∃ schema, compile text = .ok schema) ↔
      ∃ ts types, Splits text ts ∧ IsTypeDefs ts types ∧ Consistent types) ∧
    (∀ text ts ts' types types', Splits text ts → IsTypeDefs ts types → Splits text ts' →
      IsTypeDefs ts' types' → types = types') ∧
    ∀ text schema, compile text = .ok schema →
      schema.query ∈ schema.types ∧ schema.query.name = queryTypeName ∧
      ∀ t ∈ schema.types, schema.object? t.name = some t ∧
        (∀ f r, t.field? f = some r ↔ (f, r) ∈ t.fields) ∧
        ∀ f ∈ t.fields, f.2.name ∉ builtinScalars →
          ∃ u ∈ schema.types, u.name = f.2.name ∧ schema.object? f.2.name = some u := by
  have hiff : ∀ text schema, compile text = .ok schema ↔
      (∃ ts, Splits text ts ∧ IsTypeDefs ts schema.types) ∧ Consistent schema.types := by
    intro text schema
    rw [compile_eq_ok_iff, SchemaText.parse_iff_splits]
  refine ⟨hiff, fun text => ⟨?_, ?_⟩, ?_, ?_⟩
  · rintro ⟨schema, hschema⟩
    obtain ⟨⟨ts, hsplits, hdefs⟩, hconsistent⟩ := (hiff text schema).mp hschema
    exact ⟨ts, schema.types, hsplits, hdefs, hconsistent⟩
  · rintro ⟨ts, types, hsplits, hdefs, hconsistent⟩
    obtain ⟨schema, rfl⟩ := hconsistent.exists_schema
    exact ⟨schema, (hiff text schema).mpr ⟨⟨ts, hsplits, hdefs⟩, hconsistent⟩⟩
  · intro text ts ts' types types' hsplits hdefs hsplits' hdefs'
    have hparse := SchemaText.parse_iff_splits.mpr ⟨ts, hsplits, hdefs⟩
    have hparse' := SchemaText.parse_iff_splits.mpr ⟨ts', hsplits', hdefs'⟩
    exact Except.ok.inj (hparse.symm.trans hparse')
  · intro text schema hschema
    obtain ⟨-, hconsistent⟩ := (hiff text schema).mp hschema
    obtain ⟨hquery, hname⟩ := name_of_object? schema.query_mem
    refine ⟨hquery, hname, fun t ht => ⟨hconsistent.object?_of_mem ht,
      fun f r => ObjectType.field?_eq_some_iff (hconsistent.fields_nodup t ht), ?_⟩⟩
    intro f hf hscalar
    rcases hconsistent.known t ht f hf with hscalar' | ⟨u, hu, hname⟩
    · exact absurd hscalar' hscalar
    · exact ⟨u, hu, hname, hname ▸ hconsistent.object?_of_mem hu⟩

/-- Two types that refer to each other and to scalars, in both kinds of fields. -/
def staff : Schema where
  types := [⟨"Query", [("user", ⟨"User", true⟩), ("size", ⟨"Int", false⟩)]⟩,
    ⟨"User", [("name", ⟨"String", true⟩), ("boss", ⟨"User", false⟩)]⟩]
  query := ⟨"Query", [("user", ⟨"User", true⟩), ("size", ⟨"Int", false⟩)]⟩
  query_mem := rfl

/-- The types of `staff`, written with a comment and with little between the tokens. -/
def staffText : List Char :=
  "type Query \x7b user: User! size: Int \x7d # staff\ntype User\x7bname:String!,boss:User\x7d".toList

theorem compile_staffText : compile staffText = .ok staff := by cbv

theorem compile_staff : compile staffText = .ok staff ∧
    (∃ ts, Splits staffText ts ∧ IsTypeDefs ts staff.types) ∧ Consistent staff.types ∧
    ∀ t ∈ staff.types, ∀ f ∈ t.fields, f.2.name ∉ builtinScalars →
      ∃ u ∈ staff.types, u.name = f.2.name ∧ staff.object? f.2.name = some u := by
  obtain ⟨hiff, -, -, hschema⟩ := compile_exactly_consistent
  obtain ⟨hderived, hconsistent⟩ := (hiff staffText staff).mp compile_staffText
  obtain ⟨-, -, htypes⟩ := hschema staffText staff compile_staffText
  exact ⟨compile_staffText, hderived, hconsistent, fun t ht => (htypes t ht).2.2⟩

end Schema
end RouteQuery
