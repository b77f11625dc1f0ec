import RouteQuery.Proofs.ValidSelections

/-! What a query is answered with from a JSON value. The data have the shape of the selections, the faults
are those of the fields that are visited, and data without faults have the types of the schema. -/
namespace RouteQuery
open Schema

/-- A value that is neither null nor an object. -/
def Json.IsScalar (v : Json) : Prop := v ≠ .null ∧ ∀ members, v ≠ .obj members

theorem Json.kinds (found : Option Json) : found = none ∨ found = some .null ∨
    (∃ members, found = some (.obj members)) ∨ ∃ v : Json, found = some v ∧ v.IsScalar := by
  rcases found with _ | (_ | _ | _ | _ | _ | members)
  · exact .inl rfl
  · exact .inr (.inl rfl)
  · exact .inr (.inr (.inr ⟨_, rfl, by simp [IsScalar]⟩))
  · exact .inr (.inr (.inr ⟨_, rfl, by simp [IsScalar]⟩))
  · exact .inr (.inr (.inr ⟨_, rfl, by simp [IsScalar]⟩))
  · exact .inr (.inr (.inr ⟨_, rfl, by simp [IsScalar]⟩))
  · exact .inr (.inr (.inl ⟨members, rfl⟩))

namespace Execution

/-! ### The shape of an answer -/

section
variable (schema : Schema)

mutual
/-- The value of a field of a type, from what was found for it and the selections below it. -/
inductive ValueOf : TypeRef → Option Json → List Selection → Json → Prop
  | missing {type : TypeRef} {below : List Selection} : ValueOf type none below .null
  | null {type : TypeRef} {below : List Selection} : ValueOf type (some .null) below .null
  | object {type : TypeRef} {below : List Selection} {child : ObjectType}
      {members data : List (String × Json)} (object : schema.object? type.name = some child)
      (inside : DataOf child (.obj members) below data) :
      ValueOf type (some (.obj members)) below (.obj data)
  | scalar {type : TypeRef} {below : List Selection} {v : Json}
      (scalar : type.name ∈ builtinScalars) (plain : v.IsScalar) : ValueOf type (some v) below v
  | objectForScalar {type : TypeRef} {below : List Selection} {members : List (String × Json)}
      (scalar : type.name ∈ builtinScalars) : ValueOf type (some (.obj members)) below .null
  | scalarForObject {type : TypeRef} {below : List Selection} {v : Json}
      (object : type.name ∉ builtinScalars) (plain : v.IsScalar) : ValueOf type (some v) below .null

/-- The data of an object: its keys are the selected names, each where it stands first, and each value
is the one for all selections of that name. -/
inductive DataOf : ObjectType → Json → List Selection → List (String × Json) → Prop
  | intro {object : ObjectType} {source : Json} {selections : List Selection}
      {data : List (String × Json)}
      (keys : data.map (·.1) = (selections.map Selection.name).eraseDups)
      (known : ∀ member ∈ data, (object.field? member.1).isSome)
      (values : ∀ member ∈ data, ∀ type, object.field? member.1 = some type →
        ValueOf type (source.get? member.1) (childrenOf member.1 selections) member.2) :
      DataOf object source selections data
end

mutual
/-- A value that a type allows. Of what kind a scalar is makes no difference. -/
inductive HasType : TypeRef → Json → Prop
  | null {type : TypeRef} (nullable : type.nonNull = false) : HasType type .null
  | scalar {type : TypeRef} {v : Json} (scalar : type.name ∈ builtinScalars) (plain : v.IsScalar) :
      HasType type v
  | object {type : TypeRef} {child : ObjectType} {data : List (String × Json)}
      (object : schema.object? type.name = some child) (inside : HasTypes child data) :
      HasType type (.obj data)

/-- Data whose keys are fields of an object type, with values that these allow. -/
inductive HasTypes : ObjectType → List (String × Json) → Prop
  | intro {object : ObjectType} {data : List (String × Json)}
      (known : ∀ member ∈ data, (object.field? member.1).isSome)
      (values : ∀ member ∈ data, ∀ type, object.field? member.1 = some type →
        HasType type member.2) : HasTypes object data
end

end

/-! ### Visited fields -/

/-- A field that an answer comes by: where it stands, its type, and what was found for it. -/
structure Visit where
  parent : ObjectType
  field : String
  type : TypeRef
  found : Option Json

namespace Visit

/-- An object was found for a scalar, or something else for an object. -/
def WrongKind (v : Visit) : Prop :=
  (∃ members, v.found = some (.obj members)) ∧ v.type.name ∈ builtinScalars ∨
    (∃ w : Json, v.found = some w ∧ w.IsScalar) ∧ v.type.name ∉ builtinScalars

/-- The field has no value, or null, or none of its kind. -/
def IsNull (v : Visit) : Prop := v.found = none ∨ v.found = some .null ∨ v.WrongKind

/-- The faults of a field by itself. -/
inductive HasFault (v : Visit) : QueryFault → Prop
  | wrongShape (wrong : v.WrongKind) : HasFault v (.wrongShape v.parent.name v.field v.type)
  | forbiddenNull (null : v.IsNull) (nonNull : v.type.nonNull = true) :
      HasFault v (.forbiddenNull v.parent.name v.field)

/-- The field has a value of its kind, or null where its type allows that. -/
structure Sound (v : Visit) : Prop where
  kind : ¬v.WrongKind
  null : v.type.nonNull = true → ¬v.IsNull

theorem hasFault_iff {v : Visit} {f : QueryFault} : v.HasFault f ↔
    v.WrongKind ∧ f = .wrongShape v.parent.name v.field v.type ∨
      v.IsNull ∧ v.type.nonNull = true ∧ f = .forbiddenNull v.parent.name v.field := by
  constructor
  · rintro (wrong | ⟨null, nonNull⟩)
    · exact .inl ⟨wrong, rfl⟩
    · exact .inr ⟨null, nonNull, rfl⟩
  · rintro (⟨wrong, rfl⟩ | ⟨null, nonNull, rfl⟩)
    · exact .wrongShape wrong
    · exact .forbiddenNull null nonNull

theorem sound_iff {v : Visit} : v.Sound ↔ ∀ f, ¬v.HasFault f := by
  constructor
  · rintro ⟨hkind, hnull⟩ f (wrong | ⟨null, nonNull⟩)
    · exact hkind wrong
    · exact hnull nonNull null
  · intro h
    exact ⟨fun wrong => h _ (.wrongShape wrong), fun nonNull null => h _ (.forbiddenNull null nonNull)⟩

end Visit

/-- The fields that are visited for selections: those selected, and below an object that was found for an
object type those that are selected there. -/
inductive Visits (schema : Schema) : ObjectType → Json → List Selection → Visit → Prop
  | here {object : ObjectType} {source : Json} {selections : List Selection} {s : Selection}
      {type : TypeRef} (selected : s ∈ selections) (field : object.field? s.name = some type) :
      Visits schema object source selections ⟨object, s.name, type, source.get? s.name⟩
  | inside {object child : ObjectType} {source : Json} {selections : List Selection} {s : Selection}
      {type : TypeRef} {members : List (String × Json)} {v : Visit} (selected : s ∈ selections)
      (field : object.field? s.name = some type) (defined : schema.object? type.name = some child)
      (found : source.get? s.name = some (.obj members))
      (visits : Visits schema child (.obj members) (childrenOf s.name selections) v) :
      Visits schema object source selections v

/-! ### One field -/

@[simp] theorem checkNull_fst (parent field : String) (type : TypeRef)
    (answer : Json × List QueryFault) : (checkNull parent field type answer).1 = answer.1 := by
  unfold checkNull
  split <;> rfl

theorem mem_checkNull_snd {parent field : String} {type : TypeRef} {answer : Json × List QueryFault}
    {f : QueryFault} : f ∈ (checkNull parent field type answer).2 ↔
      f ∈ answer.2 ∨
        answer.1.isNull = true ∧ type.nonNull = true ∧ f = .forbiddenNull parent field := by
  unfold checkNull
  split
  · next h =>
    rw [Bool.and_eq_true] at h
    simp [h]
  · next h =>
    rw [Bool.and_eq_true, not_and] at h
    constructor
    · exact .inl
    · rintro (hf | ⟨hnull, hnonNull, -⟩)
      · exact hf
      · exact absurd hnonNull (h hnull)

section
variable {schema : Schema} {object : ObjectType} {source : Json} {selections : List Selection}
  {name : String} {type : TypeRef}

theorem fieldAnswer_of_missing (h : source.get? name = none ∨ source.get? name = some .null) :
    fieldAnswer schema Json.resolver object source selections name type = (.null, []) := by
  rcases h with h | h <;> simp [fieldAnswer, Json.resolver, h]

theorem fieldAnswer_of_object {child : ObjectType} {members : List (String × Json)}
    (hfound : source.get? name = some (.obj members))
    (hobject : schema.object? type.name = some child) :
    fieldAnswer schema Json.resolver object source selections name type =
      (.obj (resolve schema Json.resolver child (.obj members) (childrenOf name selections)).1,
        (resolve schema Json.resolver child (.obj members) (childrenOf name selections)).2) := by
  simp [fieldAnswer, Json.resolver, hfound, hobject]

theorem resolver_of_isScalar {v : Json} (hfound : source.get? name = some v) (hv : v.IsScalar) :
    Json.resolver source name = .scalar v := by
  obtain ⟨hnull, hobject⟩ := hv
  unfold Json.resolver
  rw [hfound]
  cases v with
  | null => exact absurd rfl hnull
  | obj members => exact absurd rfl (hobject members)
  | bool | num | str | arr => rfl

theorem fieldAnswer_of_scalar {v : Json} (hfound : source.get? name = some v) (hv : v.IsScalar)
    (hscalar : schema.object? type.name = none) :
    fieldAnswer schema Json.resolver object source selections name type = (v, []) := by
  simp [fieldAnswer, resolver_of_isScalar hfound hv, hscalar]

theorem fieldAnswer_of_wrongKind
    (hscalar : schema.object? type.name = none ↔ type.name ∈ builtinScalars)
    (h : (⟨object, name, type, source.get? name⟩ : Visit).WrongKind) :
    fieldAnswer schema Json.resolver object source selections name type =
      (.null, [.wrongShape object.name name type]) := by
  rcases h with ⟨⟨members, hfound⟩, hname⟩ | ⟨⟨v, hfound, hv⟩, hname⟩
  · simp only at hfound
    simp [fieldAnswer, Json.resolver, hfound, hscalar.mpr hname]
  · obtain ⟨child, hchild⟩ := Option.ne_none_iff_exists'.mp (mt hscalar.mp hname)
    simp [fieldAnswer, resolver_of_isScalar hfound hv, hchild]

/-- The four ways in which a field is answered. -/
theorem fieldAnswer_cases (object : ObjectType)
    (hscalar : schema.object? type.name = none ↔ type.name ∈ builtinScalars) :
    (source.get? name = none ∨ source.get? name = some .null) ∨
    (∃ child members, source.get? name = some (.obj members) ∧
      schema.object? type.name = some child) ∨
    (∃ v : Json, source.get? name = some v ∧ v.IsScalar ∧ type.name ∈ builtinScalars) ∨
    (⟨object, name, type, source.get? name⟩ : Visit).WrongKind := by
  rcases Json.kinds (source.get? name) with h | h | ⟨members, h⟩ | ⟨v, h, hv⟩
  · exact .inl (.inl h)
  · exact .inl (.inr h)
  · cases hobject : schema.object? type.name with
    | none => exact .inr (.inr (.inr (.inl ⟨⟨members, h⟩, hscalar.mp hobject⟩)))
    | some child => exact .inr (.inl ⟨child, members, h, rfl⟩)
  · by_cases hname : type.name ∈ builtinScalars
    · exact .inr (.inr (.inl ⟨v, h, hv, hname⟩))
    · exact .inr (.inr (.inr (.inr ⟨⟨v, h, hv⟩, hname⟩)))

theorem isNull_fieldAnswer
    (hscalar : schema.object? type.name = none ↔ type.name ∈ builtinScalars) :
    (fieldAnswer schema Json.resolver object source selections name type).1.isNull = true ↔
      (⟨object, name, type, source.get? name⟩ : Visit).IsNull := by
  rcases fieldAnswer_cases object hscalar with
    h | ⟨child, members, hfound, hchild⟩ | ⟨v, hfound, hv, hname⟩ | h
  · rw [fieldAnswer_of_missing h]
    exact iff_of_true rfl (h.imp_right .inl)
  · rw [fieldAnswer_of_object hfound hchild]
    have hname : type.name ∉ builtinScalars := fun hname => by simp_all
    simp [Visit.IsNull, Visit.WrongKind, hfound, hname, Json.isNull, Json.IsScalar]
  · rw [fieldAnswer_of_scalar hfound hv (hscalar.mpr hname)]
    obtain ⟨hnull, hobject⟩ := hv
    cases v <;> simp_all [Visit.IsNull, Visit.WrongKind, Json.isNull]
  · rw [fieldAnswer_of_wrongKind hscalar h]
    exact iff_of_true rfl (.inr (.inr h))

theorem mem_faults_fieldAnswer {f : QueryFault}
    (hscalar : schema.object? type.name = none ↔ type.name ∈ builtinScalars) :
    f ∈ (fieldAnswer schema Json.resolver object source selections name type).2 ↔
      (⟨object, name, type, source.get? name⟩ : Visit).WrongKind ∧
          f = .wrongShape object.name name type ∨
        ∃ child members, schema.object? type.name = some child ∧
          source.get? name = some (.obj members) ∧
          f ∈ (resolve schema Json.resolver child (.obj members) (childrenOf name selections)).2 := by
  rcases fieldAnswer_cases object hscalar with
    h | ⟨child, members, hfound, hchild⟩ | ⟨v, hfound, hv, hname⟩ | h
  · rw [fieldAnswer_of_missing h]
    rcases h with h | h <;> simp [Visit.WrongKind, h, Json.IsScalar]
  · rw [fieldAnswer_of_object hfound hchild]
    have hname : type.name ∉ builtinScalars := fun hname => by simp_all
    simp [Visit.WrongKind, hfound, hname, hchild, Json.IsScalar]
  · rw [fieldAnswer_of_scalar hfound hv (hscalar.mpr hname)]
    simp [Visit.WrongKind, hfound, hname, hv.2, hscalar.mpr hname]
  · have hnone : ¬∃ child members, schema.object? type.name = some child ∧
        source.get? name = some (.obj members) ∧
        f ∈ (resolve schema Json.resolver child (.obj members) (childrenOf name selections)).2 := by
      rintro ⟨child, members, hchild, hfound, -⟩
      rcases h with ⟨-, hname⟩ | ⟨⟨w, hw, hplain⟩, -⟩
      · rw [hscalar.mpr hname] at hchild
        cases hchild
      · exact hplain.2 members (Option.some.inj (hw.symm.trans hfound))
    rw [fieldAnswer_of_wrongKind hscalar h, List.mem_singleton, or_iff_left hnone, and_iff_right h]

/-- The faults of a field are its own and, if it is answered with an object, those inside. -/
theorem mem_faults_fieldResult {f : QueryFault} (hfield : object.field? name = some type)
    (hscalar : schema.object? type.name = none ↔ type.name ∈ builtinScalars) :
    f ∈ (fieldResult schema Json.resolver object source selections name).2 ↔
      (⟨object, name, type, source.get? name⟩ : Visit).HasFault f ∨
        ∃ child members, schema.object? type.name = some child ∧
          source.get? name = some (.obj members) ∧
          f ∈ (resolve schema Json.resolver child (.obj members) (childrenOf name selections)).2 := by
  rw [fieldResult, hfield]
  simp only
  rw [mem_checkNull_snd, isNull_fieldAnswer hscalar, mem_faults_fieldAnswer hscalar,
    Visit.hasFault_iff]
  exact or_right_comm

/-- A field is answered with the value that it is to have, if this is so for the objects below. -/
theorem valueOf_iff (hscalar : schema.object? type.name = none ↔ type.name ∈ builtinScalars)
    (hinside : ∀ child members data, schema.object? type.name = some child →
      (DataOf schema child (.obj members) (childrenOf name selections) data ↔ data =
        (resolve schema Json.resolver child (.obj members) (childrenOf name selections)).1))
    {v : Json} :
    ValueOf schema type (source.get? name) (childrenOf name selections) v ↔
      v = (fieldAnswer schema Json.resolver object source selections name type).1 := by
  constructor
  · intro h
    generalize hfound : source.get? name = found at h
    cases h with
    | missing => rw [fieldAnswer_of_missing (.inl hfound)]
    | null => rw [fieldAnswer_of_missing (.inr hfound)]
    | object hchild inside =>
      rw [fieldAnswer_of_object hfound hchild, (hinside _ _ _ hchild).mp inside]
    | scalar hname hv => rw [fieldAnswer_of_scalar hfound hv (hscalar.mpr hname)]
    | objectForScalar hname =>
      rw [fieldAnswer_of_wrongKind hscalar (.inl ⟨⟨_, hfound⟩, hname⟩)]
    | scalarForObject hname hv =>
      rw [fieldAnswer_of_wrongKind hscalar (.inr ⟨⟨_, hfound, hv⟩, hname⟩)]
  · rintro rfl
    rcases fieldAnswer_cases object hscalar with
      h | ⟨child, members, hfound, hchild⟩ | ⟨v, hfound, hv, hname⟩ | h
    · rw [fieldAnswer_of_missing h]
      rcases h with h | h
      · exact h ▸ .missing
      · exact h ▸ .null
    · rw [fieldAnswer_of_object hfound hchild, hfound]
      exact .object hchild ((hinside _ _ _ hchild).mpr rfl)
    · rw [fieldAnswer_of_scalar hfound hv (hscalar.mpr hname), hfound]
      exact .scalar hname hv
    · rw [fieldAnswer_of_wrongKind hscalar h]
      rcases h with ⟨⟨members, hfound⟩, hname⟩ | ⟨⟨v, hfound, hv⟩, hname⟩
      · rw [show source.get? name = some (.obj members) from hfound]
        exact .objectForScalar hname
      · rw [show source.get? name = some v from hfound]
        exact .scalarForObject hname hv

end

/-! ### All fields -/

section
variable {schema : Schema} {object : ObjectType} {source : Json} {selections : List Selection}
  {data : List (String × Json)}

/-- Valid selections are answered with the data of their shape, and with no others. -/
theorem dataOf_iff (h : Consistent schema.types) (hobject : object ∈ schema.types)
    (hvalid : ∀ s ∈ selections, Valid schema object s) :
    DataOf schema object source selections data ↔
      data = (resolve schema Json.resolver object source selections).1 := by
  induction selections using levels_induct generalizing object source data with
  | level selections ih =>
    have hvalue : ∀ name ∈ fieldNames selections, ∀ type, object.field? name = some type →
        ∀ v, ValueOf schema type (source.get? name) (childrenOf name selections) v ↔
          v = (fieldResult schema Json.resolver object source selections name).1 := by
      intro name hname type hfield v
      obtain ⟨s, hs, rfl⟩ := Vocabulary.mem_fieldNames.mp hname
      have hscalar := h.object?_eq_none_iff hobject (mem_fields_of_field? h hobject hfield)
      simp only [fieldResult, hfield, checkNull_fst]
      exact valueOf_iff hscalar fun child members data hchild =>
        ih s hs (name_of_object? hchild).1 (valid_childrenOf hvalid hfield hchild)
    have hfields : ∀ name ∈ fieldNames selections, ∃ type, object.field? name = some type := by
      intro name hname
      obtain ⟨s, hs, rfl⟩ := Vocabulary.mem_fieldNames.mp hname
      exact (hvalid s hs).exists_field
    rw [resolve_of_valid hvalid]
    constructor
    · rintro ⟨keys, -, values⟩
      rw [← fieldNames_eq_eraseDups] at keys
      have hmembers : data.map id = data.map fun m =>
          (m.1, (fieldResult schema Json.resolver object source selections m.1).1) := by
        refine List.map_congr_left fun m hm => ?_
        have hname : m.1 ∈ fieldNames selections := keys ▸ List.mem_map_of_mem hm
        obtain ⟨type, hfield⟩ := hfields m.1 hname
        exact Prod.ext rfl ((hvalue m.1 hname type hfield m.2).mp (values m hm type hfield))
      rw [← keys, List.map_map]
      exact (List.map_id data).symm.trans hmembers
    · rintro rfl
      refine .intro ?_ ?_ ?_
      · rw [← fieldNames_eq_eraseDups]
        simp [Function.comp_def]
      · intro m hm
        obtain ⟨name, hname, rfl⟩ := List.mem_map.mp hm
        exact Option.isSome_iff_exists.mpr (hfields name hname)
      · intro m hm type hfield
        obtain ⟨name, hname, rfl⟩ := List.mem_map.mp hm
        exact (hvalue name hname type hfield _).mpr rfl

/-- The faults met on the way to the data are those of the visited fields. -/
theorem mem_faults_iff (h : Consistent schema.types) (hobject : object ∈ schema.types)
    (hvalid : ∀ s ∈ selections, Valid schema object s) {f : QueryFault} :
    f ∈ (resolve schema Json.resolver object source selections).2 ↔
      ∃ v, Visits schema object source selections v ∧ v.HasFault f := by
  induction selections using levels_induct generalizing object source with
  | level selections ih =>
    have hinside : ∀ s ∈ selections, ∀ type, object.field? s.name = some type →
        ∀ child members, schema.object? type.name = some child →
          (f ∈ (resolve schema Json.resolver child (.obj members)
              (childrenOf s.name selections)).2 ↔
            ∃ v, Visits schema child (.obj members) (childrenOf s.name selections) v ∧
              v.HasFault f) := by
      intro s hs type hfield child members hchild
      exact ih s hs (name_of_object? hchild).1 (valid_childrenOf hvalid hfield hchild)
    have hscalar : ∀ name type, object.field? name = some type →
        (schema.object? type.name = none ↔ type.name ∈ builtinScalars) := fun _ _ hfield =>
      h.object?_eq_none_iff hobject (mem_fields_of_field? h hobject hfield)
    rw [resolve_of_valid hvalid, List.mem_flatMap]
    constructor
    · rintro ⟨name, hname, hf⟩
      obtain ⟨s, hs, rfl⟩ := Vocabulary.mem_fieldNames.mp hname
      obtain ⟨type, hfield⟩ := (hvalid s hs).exists_field
      rcases (mem_faults_fieldResult hfield (hscalar _ type hfield)).mp hf with
        hfault | ⟨child, members, hchild, hfound, hf⟩
      · exact ⟨_, .here hs hfield, hfault⟩
      · obtain ⟨v, hv, hfault⟩ := (hinside s hs type hfield child members hchild).mp hf
        exact ⟨v, .inside hs hfield hchild hfound hv, hfault⟩
    · rintro ⟨v, hv, hfault⟩
      cases hv with
      | @here _ _ _ s type hs hfield =>
        exact ⟨s.name, Vocabulary.mem_fieldNames.mpr ⟨s, hs, rfl⟩,
          (mem_faults_fieldResult hfield (hscalar _ type hfield)).mpr (.inl hfault)⟩
      | @inside _ child _ _ s type members _ hs hfield hchild hfound hv =>
        have hf := (hinside s hs type hfield child members hchild).mpr ⟨v, hv, hfault⟩
        exact ⟨s.name, Vocabulary.mem_fieldNames.mpr ⟨s, hs, rfl⟩,
          (mem_faults_fieldResult hfield (hscalar _ type hfield)).mpr
            (.inr ⟨child, members, hchild, hfound, hf⟩)⟩

theorem faults_eq_nil_iff (h : Consistent schema.types) (hobject : object ∈ schema.types)
    (hvalid : ∀ s ∈ selections, Valid schema object s) :
    (resolve schema Json.resolver object source selections).2 = [] ↔
      ∀ v, Visits schema object source selections v → v.Sound := by
  simp only [List.eq_nil_iff_forall_not_mem, mem_faults_iff h hobject hvalid, Visit.sound_iff]
  constructor
  · exact fun hnone v hv f hfault => hnone f ⟨v, hv, hfault⟩
  · rintro hall f ⟨v, hv, hfault⟩
    exact hall v hv f hfault

/-- Without faults a value is one that its type allows, if this is so inside. -/
theorem ValueOf.hasType {name : String} {type : TypeRef} {found : Option Json}
    {below : List Selection} {v : Json} (h : ValueOf schema type found below v)
    (hsound : (⟨object, name, type, found⟩ : Visit).Sound)
    (hinside : ∀ child members data, schema.object? type.name = some child →
      found = some (.obj members) → DataOf schema child (.obj members) below data →
      HasTypes schema child data) : HasType schema type v := by
  have nullable : (⟨object, name, type, found⟩ : Visit).IsNull → type.nonNull = false := fun hnull =>
    Bool.eq_false_iff.mpr fun hnonNull => hsound.null hnonNull hnull
  cases h with
  | missing => exact .null (nullable (.inl rfl))
  | null => exact .null (nullable (.inr (.inl rfl)))
  | object hchild inside => exact .object hchild (hinside _ _ _ hchild rfl inside)
  | scalar hname hv => exact .scalar hname hv
  | objectForScalar hname => exact absurd (.inl ⟨⟨_, rfl⟩, hname⟩) hsound.kind
  | scalarForObject hname hv => exact absurd (.inr ⟨⟨_, rfl, hv⟩, hname⟩) hsound.kind

/-- Data without faults have the types of the schema. -/
theorem DataOf.hasTypes (h : DataOf schema object source selections data)
    (hsound : ∀ v, Visits schema object source selections v → v.Sound) :
    HasTypes schema object data := by
  induction selections using levels_induct generalizing object source data with
  | level selections ih =>
    obtain ⟨keys, known, values⟩ := h
    refine .intro known fun m hm type hfield => ?_
    have hname : m.1 ∈ selections.map Selection.name := by
      rw [← List.mem_eraseDups, ← keys]
      exact List.mem_map_of_mem hm
    obtain ⟨s, hs, hname⟩ := List.mem_map.mp hname
    have hvalue := values m hm type hfield
    rw [← hname] at hfield hvalue
    refine hvalue.hasType (hsound _ (.here hs hfield)) fun child members data hchild hfound inside => ?_
    exact ih s hs inside fun v hv => hsound v (.inside hs hfield hchild hfound hv)

end

end Execution

open Execution

/-- A query is answered from a JSON value with data of one shape, unless there are selections at fault.
Then there are no data, and the faults are theirs, in order. With data the faults are those of the
visited fields, and where there are none the data have the types of the schema. -/
theorem execute_shaped_and_typed {text query : List Char} {schema : Schema} {d : Document}
    (hcompile : Schema.compile text = .ok schema) (hparse : Document.parse query = .ok d)
    (root : Json) :
    ((∃ v ∈ reached schema schema.query d.selections, selectionFault? v.1 v.2 ≠ none) →
      execute schema query Json.resolver root =
        ⟨none, faultsReached schema schema.query d.selections⟩) ∧
    ((∀ v ∈ reached schema schema.query d.selections, selectionFault? v.1 v.2 = none) →
      ∃ data faults, execute schema query Json.resolver root = ⟨some data, faults⟩ ∧
        (∀ other, DataOf schema schema.query root d.selections other ↔ other = data) ∧
        (∀ f, f ∈ faults ↔ ∃ v, Visits schema schema.query root d.selections v ∧ v.HasFault f) ∧
        (faults = [] ↔ ∀ v, Visits schema schema.query root d.selections v → v.Sound) ∧
        (faults = [] → HasTypes schema schema.query data)) := by
  have hconsistent := (compile_eq_ok_iff.mp hcompile).2
  have hquery : schema.query ∈ schema.types := List.mem_of_find?_eq_some schema.query_mem
  have hvalidate := validate_eq_faultsReached hconsistent hquery d.selections
  constructor
  · rintro ⟨v, hv, hfault⟩
    have hne : faultsReached schema schema.query d.selections ≠ [] := fun hnil =>
      hfault (List.filterMap_eq_nil_iff.mp hnil v hv)
    rw [← hvalidate] at hne ⊢
    exact execute_of_validate_ne_nil hparse hne Json.resolver root
  · intro hnone
    have hnil : validate schema schema.query d.selections = [] :=
      hvalidate.trans (List.filterMap_eq_nil_iff.mpr hnone)
    have hvalid := validate_eq_nil_iff.mp hnil
    have hdata : ∀ other, DataOf schema schema.query root d.selections other ↔
        other = (resolve schema Json.resolver schema.query root d.selections).1 := fun _ =>
      dataOf_iff hconsistent hquery hvalid
    have hfaults : (resolve schema Json.resolver schema.query root d.selections).2 = [] ↔
        ∀ v, Visits schema schema.query root d.selections v → v.Sound :=
      faults_eq_nil_iff hconsistent hquery hvalid
    exact ⟨_, _, execute_of_validate_eq_nil hparse hnil Json.resolver root, hdata,
      fun f => mem_faults_iff hconsistent hquery hvalid, hfaults,
      fun hempty => ((hdata _).mpr rfl).hasTypes (hfaults.mp hempty)⟩

/-- Both selections of `user` have selections of `boss` below them. -/
def staffQuery : List Char :=
  "\x7b user \x7b boss \x7b name \x7d name \x7d size user \x7b boss \x7b boss \x7b name \x7d \x7d \x7d \x7d".toList

def staffDocument : Document where
  operation := none
  selections :=
    [.branch "user" [.branch "boss" [.leaf "name"], .leaf "name"], .leaf "size",
      .branch "user" [.branch "boss" [.branch "boss" [.leaf "name"]]]]

theorem parse_staffQuery : Document.parse staffQuery = .ok staffDocument := by cbv

/-- A query for `staff` with all three kinds of selections at fault. -/
def misfitQuery : List Char :=
  "\x7b user \x7b name \x7b boss \x7d age \x7b name \x7d \x7d user \x7d".toList

def misfitDocument : Document where
  operation := none
  selections :=
    [.branch "user" [.branch "name" [.leaf "boss"], .branch "age" [.leaf "name"]], .leaf "user"]

/-- All is as the types of `staff` want it. -/
def plainRoot : Json := .obj [("user", .obj [("name", .str "Ann")])]

/-- The name of the boss is missing, and an object stands for a number. -/
def staffRoot : Json :=
  .obj [("user", .obj [("name", .str "Ann"), ("boss", .obj [("name", .null)])]), ("size", .obj [])]

theorem execute_staff :
    compile staffText = .ok staff ∧ Document.parse staffQuery = .ok staffDocument ∧
    (∃ data faults, execute staff staffQuery Json.resolver staffRoot = ⟨some data, faults⟩ ∧
      data = [("user", .obj [("boss", .obj [("name", .null), ("boss", .null)]), ("name", .str "Ann")]),
        ("size", .null)] ∧
      DataOf staff staff.query staffRoot staffDocument.selections data ∧
      faults = [.forbiddenNull "User" "name", .wrongShape "Query" "size" ⟨"Int", false⟩] ∧
      ∀ f ∈ faults, ∃ v, Visits staff staff.query staffRoot staffDocument.selections v ∧
        v.HasFault f) ∧
    (∃ data, execute staff staffQuery Json.resolver plainRoot = ⟨some data, []⟩ ∧
      HasTypes staff staff.query data) ∧
    Document.parse misfitQuery = .ok misfitDocument ∧
    execute staff misfitQuery Json.resolver .null = ⟨none, [.forbiddenSelection "name" ⟨"String", true⟩,
      .unknownField "age" "User", .missingSelection "user" ⟨"User", true⟩]⟩ := by
  have hmisfit : Document.parse misfitQuery = .ok misfitDocument := by cbv
  have hnone : ∀ v ∈ reached staff staff.query staffDocument.selections,
      selectionFault? v.1 v.2 = none := List.filterMap_eq_nil_iff.mp (by cbv)
  have hvalidate : validate staff staff.query staffDocument.selections = [] := by cbv
  refine ⟨compile_staffText, parse_staffQuery, ?_, ?_, hmisfit, ?_⟩
  · obtain ⟨data, faults, hexecute, hdata, hfaults, -⟩ :=
      (execute_shaped_and_typed compile_staffText parse_staffQuery staffRoot).2 hnone
    have hrun : execute staff staffQuery Json.resolver staffRoot =
        ⟨some [("user", .obj [("boss", .obj [("name", .null), ("boss", .null)]),
            ("name", .str "Ann")]), ("size", .null)],
          [.forbiddenNull "User" "name", .wrongShape "Query" "size" ⟨"Int", false⟩]⟩ :=
      (execute_of_validate_eq_nil parse_staffQuery hvalidate Json.resolver staffRoot).trans (by cbv)
    have heq := hexecute.symm.trans hrun
    rw [ExecutionResult.mk.injEq, Option.some.injEq] at heq
    exact ⟨data, faults, hexecute, heq.1, (hdata data).mpr rfl, heq.2, fun f => (hfaults f).mp⟩
  · obtain ⟨data, faults, hexecute, -, -, -, htypes⟩ :=
      (execute_shaped_and_typed compile_staffText parse_staffQuery plainRoot).2 hnone
    have hrun := execute_of_validate_eq_nil parse_staffQuery hvalidate Json.resolver plainRoot
    have hempty : faults = [] :=
      (congrArg ExecutionResult.faults (hexecute.symm.trans hrun)).trans (by cbv)
    exact ⟨data, hempty ▸ hexecute, htypes hempty⟩
  · have hfirst := (execute_shaped_and_typed compile_staffText hmisfit .null).1
    refine (hfirst ?_).trans (by cbv)
    refine ⟨(⟨"User", [("name", ⟨"String", true⟩), ("boss", ⟨"User", false⟩)]⟩,
      .branch "name" [.leaf "boss"]), ?_, ?_⟩
    · cbv
      exact .tail _ (.head _)
    · exact Option.some_ne_none _

end RouteQuery
