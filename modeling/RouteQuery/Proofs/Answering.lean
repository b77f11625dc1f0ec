import Mathlib.Data.List.Basic
import RouteQuery.Proofs.FirstOccurrence
import RouteQuery.Proofs.SchemaPrinting

/-! What a vocabulary answers: the merged query when each of its selections is allowed, otherwise the
number of those that are not. -/
namespace RouteQuery

/-- The faults of selections that do not fit a schema. -/
def QueryFault.OfSelection : QueryFault → Prop
  | unknownField .. | missingSelection .. | forbiddenSelection .. => True
  | syntaxFault _ | wrongShape .. | forbiddenNull .. => False

namespace Execution

theorem ofSelection_of_mem_validate {schema : Schema} {parent : ObjectType}
    {selections : List Selection} {f : QueryFault} (h : f ∈ validate schema parent selections) :
    f.OfSelection := by
  fun_induction validate schema parent selections with
  | case1 => simp at h
  | case2 parent name rest ih =>
    rcases List.mem_append.mp h with h | h
    · split at h
      · simp_all [QueryFault.OfSelection]
      · split at h <;> simp_all [QueryFault.OfSelection]
    · exact ih h
  | case3 parent name children rest ihc ih =>
    rcases List.mem_append.mp h with h | h
    · split at h
      · simp_all [QueryFault.OfSelection]
      · next type _ =>
        split at h
        · next object hobject => exact ihc object h
        · simp_all [QueryFault.OfSelection]
    · exact ih h

/-- The answer to all selections of one field, before nulls are looked at. -/
def fieldAnswer {α : Type} (schema : Schema) (resolver : Resolver α) (object : ObjectType)
    (source : α) (selections : List Selection) (name : String) (type : TypeRef) :
    Json × List QueryFault :=
  match resolver source name, schema.object? type.name with
  | .null, _ => (.null, [])
  | .object inner, some child =>
    let result := resolve schema resolver child inner (childrenOf name selections)
    (.obj result.1, result.2)
  | .scalar v, none => (v, [])
  | .object _, none | .scalar _, some _ => (.null, [.wrongShape object.name name type])

section
variable {α : Type} {schema : Schema} {resolver : Resolver α} {object : ObjectType} {source : α}
  {selections : List Selection}

theorem resolve_eq : resolve schema resolver object source selections =
    let answers := (fieldNames selections).filterMap fun name =>
      (object.field? name).map fun type => (name, checkNull object.name name type
        (fieldAnswer schema resolver object source selections name type))
    (answers.map fun (name, value, _) => (name, value), answers.flatMap (·.2.2)) := by
  cases selections with
  | nil => rw [resolve]; rfl
  | cons s rest => rw [resolve]; rfl

/-- Where every selected field has a value without faults, the values are the answer. -/
theorem resolve_of_forall {value : String → Json}
    (h : ∀ name ∈ fieldNames selections, ∃ type, object.field? name = some ⟨type, false⟩ ∧
      fieldAnswer schema resolver object source selections name ⟨type, false⟩ = (value name, [])) :
    resolve schema resolver object source selections =
      ((fieldNames selections).map fun name => (name, value name), []) := by
  have hanswers : ((fieldNames selections).filterMap fun name =>
      (object.field? name).map fun type => (name, checkNull object.name name type
        (fieldAnswer schema resolver object source selections name type))) =
      (fieldNames selections).map fun name => (name, value name, []) := by
    rw [← List.filterMap_eq_map]
    apply List.filterMap_congr
    intro name hname
    obtain ⟨type, hfield, hvalue⟩ := h name hname
    simp [hfield, hvalue, checkNull]
  rw [resolve_eq]
  simp [hanswers, Function.comp_def]

end

end Execution

namespace Selection

def total (f : Selection → Nat) : List Selection → Nat
  | [] => 0
  | s :: rest => f s + total f rest

@[simp] theorem total_nil {f : Selection → Nat} : total f [] = 0 := rfl

@[simp] theorem total_cons {f : Selection → Nat} {s : Selection} {rest : List Selection} :
    total f (s :: rest) = f s + total f rest := rfl

theorem total_eq_zero_iff {f : Selection → Nat} {selections : List Selection} :
    total f selections = 0 ↔ ∀ s ∈ selections, f s = 0 := by
  induction selections with
  | nil => simp
  | cons s rest ih => simp [ih]

theorem total_congr {f g : Selection → Nat} {selections : List Selection}
    (h : ∀ s ∈ selections, f s = g s) : total f selections = total g selections := by
  induction selections with
  | nil => rfl
  | cons s rest ih =>
    rw [List.forall_mem_cons] at h
    rw [total_cons, total_cons, h.1, ih h.2]

def taskFaults (tasks : List String) : Selection → Nat
  | leaf n => if n ∈ tasks then 0 else 1
  | branch _ _ => 1

/-- The faults of a selection below a path. Below an unknown verb none are counted. -/
def verbFaults (tasks : List String) : Selection → Nat
  | leaf _ => 1
  | branch n children =>
    if (Verb.ofName? n).isSome then total (taskFaults tasks) children else 1

def pathFaults (paths tasks : List String) : Selection → Nat
  | leaf _ => 1
  | branch n children => if n ∈ paths then total (verbFaults tasks) children else 1

theorem taskFaults_eq_zero_iff {tasks : List String} {s : Selection} :
    taskFaults tasks s = 0 ↔ ∃ n ∈ tasks, s = leaf n := by
  cases s <;> simp [taskFaults]

theorem verbFaults_eq_zero_iff {tasks : List String} {s : Selection} :
    verbFaults tasks s = 0 ↔ ∃ n children, s = branch n children ∧
      (Verb.ofName? n).isSome = true ∧ ∀ c ∈ children, taskFaults tasks c = 0 := by
  cases s with
  | leaf n => simp [verbFaults]
  | branch n children =>
    by_cases h : (Verb.ofName? n).isSome = true <;> simp [verbFaults, h, total_eq_zero_iff]

theorem pathFaults_eq_zero_iff {paths tasks : List String} {s : Selection} :
    pathFaults paths tasks s = 0 ↔ ∃ n children, s = branch n children ∧
      n ∈ paths ∧ ∀ c ∈ children, verbFaults tasks c = 0 := by
  cases s with
  | leaf n => simp [pathFaults]
  | branch n children =>
    by_cases h : n ∈ paths <;> simp [pathFaults, h, total_eq_zero_iff]

def taskAnswers (selections : List Selection) : List (String × Json) :=
  (Execution.fieldNames selections).map fun n => (n, .str n)

def verbAnswers (selections : List Selection) : List (String × Json) :=
  (Execution.fieldNames selections).map fun n =>
    (n, .obj (taskAnswers (Execution.childrenOf n selections)))

/-- The merged selections, from the paths down to the tasks. -/
def pathAnswers (selections : List Selection) : List (String × Json) :=
  (Execution.fieldNames selections).map fun n =>
    (n, .obj (verbAnswers (Execution.childrenOf n selections)))

end Selection

namespace Vocabulary
open Execution Selection

def faults (v : Vocabulary) (selections : List Selection) : Nat :=
  total (pathFaults v.paths v.tasks) selections

theorem field?_uniformType (name type : String) (fields : List String) (f : String) :
    (uniformType name fields type).field? f = if f ∈ fields then some ⟨type, false⟩ else none := by
  induction fields with
  | nil => rfl
  | cons g fields ih =>
    simp only [ObjectType.field?, uniformType, List.map_cons, List.lookup_cons] at ih ⊢
    by_cases h : f = g
    · simp [h]
    · simp [h, ih, beq_false_of_ne h]

theorem mem_verbNames {name : String} :
    name ∈ Verb.all.map (·.name) ↔ (Verb.ofName? name).isSome = true := by
  simp only [Verb.ofName?, List.find?_isSome, List.mem_map, beq_iff_eq]

@[simp] theorem field?_queryType (v : Vocabulary) (f : String) :
    v.queryType.field? f = if f ∈ v.paths then some ⟨pathType, false⟩ else none :=
  field?_uniformType ..

@[simp] theorem field?_verbsType (f : String) :
    verbsType.field? f = if (Verb.ofName? f).isSome then some ⟨taskType, false⟩ else none := by
  simp only [verbsType, field?_uniformType, mem_verbNames]

@[simp] theorem field?_tasksType (v : Vocabulary) (f : String) :
    v.tasksType.field? f = if f ∈ v.tasks then some ⟨"String", false⟩ else none :=
  field?_uniformType ..

@[simp] theorem object?_pathType (v : Vocabulary) : v.schema.object? pathType = some verbsType := rfl

@[simp] theorem object?_taskType (v : Vocabulary) :
    v.schema.object? taskType = some v.tasksType := rfl

@[simp] theorem object?_string (v : Vocabulary) : v.schema.object? "String" = none := rfl

theorem length_validate_tasks (v : Vocabulary) (selections : List Selection) :
    (validate v.schema v.tasksType selections).length =
      total (taskFaults v.tasks) selections := by
  induction selections with
  | nil => simp [validate]
  | cons s rest ih =>
    rw [total_cons, ← ih]
    cases s with
    | leaf n =>
      by_cases h : n ∈ v.tasks <;> simp [validate, taskFaults, h, Nat.add_comm]
    | branch n children =>
      by_cases h : n ∈ v.tasks <;> simp [validate, taskFaults, h, Nat.add_comm]

theorem length_validate_verbs (v : Vocabulary) (selections : List Selection) :
    (validate v.schema verbsType selections).length =
      total (verbFaults v.tasks) selections := by
  induction selections with
  | nil => simp [validate]
  | cons s rest ih =>
    rw [total_cons, ← ih]
    cases s with
    | leaf n =>
      by_cases h : (Verb.ofName? n).isSome = true <;>
        simp [validate, verbFaults, h, Nat.add_comm]
    | branch n children =>
      by_cases h : (Verb.ofName? n).isSome = true <;>
        simp [validate, verbFaults, h, Nat.add_comm, length_validate_tasks]

theorem length_validate_paths (v : Vocabulary) (selections : List Selection) :
    (validate v.schema v.schema.query selections).length = v.faults selections := by
  rw [faults, show v.schema.query = v.queryType from rfl]
  induction selections with
  | nil => simp [validate]
  | cons s rest ih =>
    rw [total_cons, ← ih]
    cases s with
    | leaf n =>
      by_cases h : n ∈ v.paths <;> simp [validate, pathFaults, h, Nat.add_comm]
    | branch n children =>
      by_cases h : n ∈ v.paths <;>
        simp [validate, pathFaults, h, Nat.add_comm, length_validate_verbs]

theorem mem_fieldNames {name : String} {selections : List Selection} :
    name ∈ fieldNames selections ↔ ∃ s ∈ selections, s.name = name := by
  simp [fieldNames_eq_eraseDups]

theorem resolve_tasks {v : Vocabulary} {selections : List Selection}
    (h : ∀ s ∈ selections, taskFaults v.tasks s = 0) :
    resolve v.schema (resolver v.paths v.tasks) v.tasksType .tasks selections =
      (taskAnswers selections, []) := by
  apply resolve_of_forall
  intro name hname
  obtain ⟨s, hs, rfl⟩ := mem_fieldNames.mp hname
  obtain ⟨n, hn, rfl⟩ := taskFaults_eq_zero_iff.mp (h s hs)
  exact ⟨"String", by simp [Selection.name, hn], by simp [fieldAnswer, resolver, Selection.name, hn]⟩

theorem resolve_verbs {v : Vocabulary} {selections : List Selection}
    (h : ∀ s ∈ selections, verbFaults v.tasks s = 0) :
    resolve v.schema (resolver v.paths v.tasks) verbsType .verbs selections =
      (verbAnswers selections, []) := by
  apply resolve_of_forall
  intro name hname
  have hbelow : resolve v.schema (resolver v.paths v.tasks) v.tasksType .tasks
      (childrenOf name selections) = (taskAnswers (childrenOf name selections), []) := by
    apply resolve_tasks
    intro c hc
    obtain ⟨s, hs, -, hc⟩ := mem_childrenOf.mp hc
    obtain ⟨n, children, rfl, -, hchildren⟩ := verbFaults_eq_zero_iff.mp (h s hs)
    exact hchildren c hc
  obtain ⟨s, hs, rfl⟩ := mem_fieldNames.mp hname
  obtain ⟨n, children, rfl, hn, -⟩ := verbFaults_eq_zero_iff.mp (h s hs)
  exact ⟨taskType, by simp [Selection.name, hn], by
    rw [Selection.name] at hbelow ⊢
    simp [fieldAnswer, resolver, hn, hbelow]⟩

theorem resolve_paths {v : Vocabulary} {selections : List Selection}
    (h : ∀ s ∈ selections, pathFaults v.paths v.tasks s = 0) :
    resolve v.schema (resolver v.paths v.tasks) v.schema.query .paths selections =
      (pathAnswers selections, []) := by
  apply resolve_of_forall
  intro name hname
  have hbelow : resolve v.schema (resolver v.paths v.tasks) verbsType .verbs
      (childrenOf name selections) = (verbAnswers (childrenOf name selections), []) := by
    apply resolve_verbs
    intro c hc
    obtain ⟨s, hs, -, hc⟩ := mem_childrenOf.mp hc
    obtain ⟨n, children, rfl, -, hchildren⟩ := pathFaults_eq_zero_iff.mp (h s hs)
    exact hchildren c hc
  obtain ⟨s, hs, rfl⟩ := mem_fieldNames.mp hname
  obtain ⟨n, children, rfl, hn, -⟩ := pathFaults_eq_zero_iff.mp (h s hs)
  refine ⟨pathType, (field?_queryType v n).trans (if_pos hn), ?_⟩
  rw [Selection.name] at hbelow ⊢
  simp [fieldAnswer, resolver, hn, hbelow]

section
variable {v : Vocabulary} {query : List Char} {d : Document}

theorem execute_of_allowed (hparse : Document.parse query = .ok d)
    (hzero : v.faults d.selections = 0) :
    execute v.schema query (resolver v.paths v.tasks) .paths =
      ⟨some (pathAnswers d.selections), []⟩ := by
  have hcount := length_validate_paths v d.selections
  have hvalid := List.length_eq_zero_iff.mp (hcount.trans hzero)
  rw [execute, hparse]
  simp only [hvalid, resolve_paths (total_eq_zero_iff.mp hzero)]

theorem execute_of_faults (hparse : Document.parse query = .ok d)
    (hfaults : v.faults d.selections ≠ 0) :
    execute v.schema query (resolver v.paths v.tasks) .paths =
      ⟨none, validate v.schema v.schema.query d.selections⟩ := by
  have hcount := length_validate_paths v d.selections
  rw [execute, hparse]
  cases hvalid : validate v.schema v.schema.query d.selections with
  | nil =>
    rw [hvalid] at hcount
    exact absurd hcount.symm hfaults
  | cons f faults => simp only [hvalid]

end

/-- A vocabulary answers a query that it allows with the merged selections. Of any other it tells
where the text is malformed or how many selections are at fault. -/
theorem answer_eq {v : Vocabulary} (h : v.WellFormed) (query : List Char) :
    v.answer query v.paths v.tasks =
      match Document.parse query with
      | .error fault => .error (.malformedQuery (Escape.decode fault.message))
      | .ok d =>
        if v.faults d.selections = 0 then .ok (pathAnswers d.selections)
        else .error (.failedQuery (v.faults d.selections)) := by
  rw [answer, compile_schemaText h]
  simp only
  cases hparse : Document.parse query with
  | error fault =>
    have hrun : execute v.schema query (resolver v.paths v.tasks) .paths =
        ⟨none, [.syntaxFault fault]⟩ := by rw [execute, hparse]
    simp only [hrun, List.find?_cons_of_pos]
    rfl
  | ok d =>
    by_cases hzero : v.faults d.selections = 0
    · simp [execute_of_allowed hparse hzero, hzero]
    · have hcount := length_validate_paths v d.selections
      have hne : validate v.schema v.schema.query d.selections ≠ [] := by
        rintro hnil
        rw [hnil] at hcount
        exact hzero hcount.symm
      simp only [execute_of_faults hparse hzero, if_neg hzero]
      split
      -- None of the faults is one of the text, so their number is told.
      · next f hfind =>
        have hfits := ofSelection_of_mem_validate (List.mem_of_find?_eq_some hfind)
        have hsome := List.find?_some hfind
        cases f <;> simp_all [QueryFault.OfSelection]
      · rw [List.isEmpty_eq_false_iff.mpr hne, hcount]
        rfl

end Vocabulary
end RouteQuery
