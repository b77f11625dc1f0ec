import RouteQuery.Proofs.Answering
import RouteQuery.Proofs.SchemaGrammar

/-! Which selections a schema allows. Checking finds the ones at fault in the order of the text, and none
just when all are valid; then the selections below one field, from all its occurrences, are valid too. -/
namespace RouteQuery
open Schema

namespace Execution

/-! ### Selections at fault -/

/-- What is wrong with a selection by itself, on an object of type `parent`: its field is unknown, or it
has no selections where its field is an object, or has some where its field is a scalar. -/
def selectionFault? (parent : ObjectType) (s : Selection) : Option QueryFault :=
  match parent.field? s.name, s with
  | none, _ => some (.unknownField s.name parent.name)
  | some type, .leaf name =>
    if type.name ∈ builtinScalars then none else some (.missingSelection name type)
  | some type, .branch name _ =>
    if type.name ∈ builtinScalars then some (.forbiddenSelection name type) else none

/-- Selections with the types on which they stand, each before those below it. Nothing is looked at below
an unknown field or a scalar. -/
def reached (schema : Schema) (parent : ObjectType) : List Selection → List (ObjectType × Selection)
  | [] => []
  | .leaf name :: rest => (parent, .leaf name) :: reached schema parent rest
  | .branch name children :: rest =>
    (parent, .branch name children) ::
      ((match (parent.field? name).bind fun type => schema.object? type.name with
        | none => []
        | some child => reached schema child children) ++ reached schema parent rest)

/-- The faults of the selections that checking reaches, in their order. -/
def faultsReached (schema : Schema) (parent : ObjectType) (selections : List Selection) :
    List QueryFault :=
  (reached schema parent selections).filterMap fun v => selectionFault? v.1 v.2

section
variable {schema : Schema} {parent : ObjectType}

theorem faultsReached_leaf (name : String) (rest : List Selection) :
    faultsReached schema parent (.leaf name :: rest) =
      (selectionFault? parent (.leaf name)).toList ++ faultsReached schema parent rest := by
  rw [faultsReached, reached, List.filterMap_cons]
  cases selectionFault? parent (.leaf name) <;> rfl

theorem faultsReached_branch (name : String) (children rest : List Selection) :
    faultsReached schema parent (.branch name children :: rest) =
      (selectionFault? parent (.branch name children)).toList ++
        ((match (parent.field? name).bind fun type => schema.object? type.name with
          | none => []
          | some child => faultsReached schema child children) ++
          faultsReached schema parent rest) := by
  rw [faultsReached, reached, List.filterMap_cons, List.filterMap_append]
  cases selectionFault? parent (.branch name children) <;>
    cases (parent.field? name).bind fun type => schema.object? type.name <;> rfl

theorem mem_fields_of_field? (h : Consistent schema.types) (hparent : parent ∈ schema.types)
    {name : String} {type : TypeRef} (hfield : parent.field? name = some type) :
    (name, type) ∈ parent.fields :=
  (ObjectType.field?_eq_some_iff (h.fields_nodup parent hparent)).mp hfield

/-- Checking selections on an object type finds just those at fault, in order. -/
theorem validate_eq_faultsReached (h : Consistent schema.types) (hparent : parent ∈ schema.types)
    (selections : List Selection) :
    validate schema parent selections = faultsReached schema parent selections := by
  fun_induction validate schema parent selections with
  | case1 => simp [faultsReached, reached]
  | case2 parent name rest ih =>
    rw [faultsReached_leaf, ih hparent]
    congr 1
    cases hfield : parent.field? name with
    | none => simp [selectionFault?, Selection.name, hfield]
    | some type =>
      have hscalar := h.object?_eq_none_iff hparent (mem_fields_of_field? h hparent hfield)
      cases hobject : schema.object? type.name <;>
        simp_all [selectionFault?, Selection.name]
  | case3 parent name children rest ihc ih =>
    rw [faultsReached_branch, ih hparent, ← List.append_assoc]
    congr 1
    cases hfield : parent.field? name with
    | none => simp [selectionFault?, Selection.name, hfield]
    | some type =>
      have hscalar := h.object?_eq_none_iff hparent (mem_fields_of_field? h hparent hfield)
      cases hobject : schema.object? type.name with
      | none =>
        have hname := hscalar.mp hobject
        simp [selectionFault?, Selection.name, hfield, hobject, hname]
      | some child =>
        have hname : type.name ∉ builtinScalars := fun hname => by simp_all
        have hchildren := ihc child (name_of_object? hobject).1
        simp [selectionFault?, Selection.name, hfield, hobject, hname, hchildren]

end

/-! ### Valid selections -/

/-- A selection that is allowed on an object of a type, with all that is below it. -/
inductive Valid (schema : Schema) : ObjectType → Selection → Prop
  | leaf {parent : ObjectType} {name : String} {type : TypeRef}
      (field : parent.field? name = some type) (scalar : schema.object? type.name = none) :
      Valid schema parent (.leaf name)
  | branch {parent child : ObjectType} {name : String} {type : TypeRef} {children : List Selection}
      (field : parent.field? name = some type) (object : schema.object? type.name = some child)
      (below : ∀ s ∈ children, Valid schema child s) : Valid schema parent (.branch name children)

section
variable {schema : Schema} {parent : ObjectType} {selections : List Selection}

/-- No faults are found just when all selections are valid. -/
theorem validate_eq_nil_iff :
    validate schema parent selections = [] ↔ ∀ s ∈ selections, Valid schema parent s := by
  fun_induction validate schema parent selections with
  | case1 => simp
  | case2 parent name rest ih =>
    rw [List.append_eq_nil_iff, ih, List.forall_mem_cons]
    refine and_congr_left fun _ => ⟨fun h => ?_, fun h => ?_⟩
    · cases hfield : parent.field? name with
      | none => simp [hfield] at h
      | some type =>
        rw [hfield] at h
        exact .leaf hfield (by simpa using h)
    · obtain ⟨hfield, hscalar⟩ := h
      simp [hfield, hscalar]
  | case3 parent name children rest ihc ih =>
    rw [List.append_eq_nil_iff, ih, List.forall_mem_cons]
    refine and_congr_left fun _ => ⟨fun h => ?_, fun h => ?_⟩
    · cases hfield : parent.field? name with
      | none => simp [hfield] at h
      | some type =>
        cases hobject : schema.object? type.name with
        | none => simp [hfield, hobject] at h
        | some child =>
          rw [hfield] at h
          simp only [hobject] at h
          exact .branch hfield hobject ((ihc child).mp h)
    · cases h with
      | branch hfield hobject hbelow =>
        rw [hfield]
        simp only [hobject]
        exact (ihc _).mpr hbelow

theorem Valid.exists_field {s : Selection} (h : Valid schema parent s) :
    ∃ type, parent.field? s.name = some type := by
  cases h with
  | leaf field => exact ⟨_, field⟩
  | branch field => exact ⟨_, field⟩

theorem Valid.children {s : Selection} (h : Valid schema parent s) {type : TypeRef}
    {child : ObjectType} (hfield : parent.field? s.name = some type)
    (hobject : schema.object? type.name = some child) : ∀ c ∈ s.children, Valid schema child c := by
  cases h with
  | leaf => simp [Selection.children]
  | branch field object below =>
    obtain rfl := Option.some.inj (field.symm.trans hfield)
    obtain rfl := Option.some.inj (object.symm.trans hobject)
    exact below

/-- Below a field the selections of all its occurrences are valid together. -/
theorem valid_childrenOf (h : ∀ s ∈ selections, Valid schema parent s) {name : String} {type : TypeRef}
    {child : ObjectType} (hfield : parent.field? name = some type)
    (hobject : schema.object? type.name = some child) :
    ∀ c ∈ childrenOf name selections, Valid schema child c := by
  intro c hc
  obtain ⟨s, hs, rfl, hmem⟩ := mem_childrenOf.mp hc
  exact (h s hs).children hfield hobject c hmem

end

/-! ### Answers to valid selections -/

/-- The value of a selected field and its faults. Unknown fields have none, but checking leaves none. -/
def fieldResult {α : Type} (schema : Schema) (resolver : Resolver α) (object : ObjectType) (source : α)
    (selections : List Selection) (name : String) : Json × List QueryFault :=
  match object.field? name with
  | none => (.null, [])
  | some type =>
    checkNull object.name name type (fieldAnswer schema resolver object source selections name type)

theorem weight_childrenOf_lt_of_mem {s : Selection} {selections : List Selection}
    (h : s ∈ selections) : weight (childrenOf s.name selections) < weight selections := by
  cases selections with
  | nil => cases h
  | cons t rest => exact weight_childrenOf_lt s.name t rest

/-- Induction on levels: from what holds below each name of a level to what holds on the level. -/
theorem levels_induct {motive : List Selection → Prop}
    (level : ∀ selections, (∀ s ∈ selections, motive (childrenOf s.name selections)) → motive selections)
    (selections : List Selection) : motive selections := by
  induction hn : weight selections using Nat.strongRecOn generalizing selections with
  | _ n ih =>
    subst hn
    exact level selections fun s hs => ih _ (weight_childrenOf_lt_of_mem hs) _ rfl

/-- For valid selections there is a result for each name. -/
theorem resolve_of_valid {α : Type} {schema : Schema} {resolver : Resolver α} {object : ObjectType}
    {source : α} {selections : List Selection} (h : ∀ s ∈ selections, Valid schema object s) :
    resolve schema resolver object source selections =
      ((fieldNames selections).map fun n =>
          (n, (fieldResult schema resolver object source selections n).1),
        (fieldNames selections).flatMap fun n =>
          (fieldResult schema resolver object source selections n).2) := by
  have hanswers : ((fieldNames selections).filterMap fun name =>
      (object.field? name).map fun type => (name, checkNull object.name name type
        (fieldAnswer schema resolver object source selections name type))) =
      (fieldNames selections).map fun name =>
        (name, fieldResult schema resolver object source selections name) := by
    rw [← List.filterMap_eq_map]
    apply List.filterMap_congr
    intro name hname
    obtain ⟨s, hs, rfl⟩ := Vocabulary.mem_fieldNames.mp hname
    obtain ⟨type, hfield⟩ := (h s hs).exists_field
    simp [fieldResult, hfield]
  rw [resolve_eq]
  simp [hanswers, Function.comp_def, List.flatMap_map]

end Execution

section
variable {α : Type} {schema : Schema} {query : List Char} {d : Document}

theorem execute_of_validate_eq_nil (hparse : Document.parse query = .ok d)
    (h : Execution.validate schema schema.query d.selections = []) (resolver : Resolver α) (source : α) :
    execute schema query resolver source =
      ⟨some (Execution.resolve schema resolver schema.query source d.selections).1,
        (Execution.resolve schema resolver schema.query source d.selections).2⟩ := by
  simp only [execute, hparse, h]

theorem execute_of_validate_ne_nil (hparse : Document.parse query = .ok d)
    (h : Execution.validate schema schema.query d.selections ≠ []) (resolver : Resolver α) (source : α) :
    execute schema query resolver source =
      ⟨none, Execution.validate schema schema.query d.selections⟩ := by
  simp only [execute, hparse]

end

end RouteQuery
