import RouteQuery.Proofs.QueryPrinting
import RouteQuery.Proofs.Reachable

/-! What is registered and the schema of queries do not come apart, whatever a program does and
whichever of it fails. -/
namespace RouteQuery

/-- Names that a schema can have as the fields of one type. -/
structure FieldNames (names : List String) : Prop where
  nodup : names.Nodup
  isIdentifier : ∀ name ∈ names, isIdentifier name = true

/-- The types of the schema of a registry: a field for each path, for each verb and for each task,
in the order of registration. All of them are nullable. -/
def Registry.schemaTypes (r : Registry) : List ObjectType :=
  [⟨"Query", r.pathIdentifiers.map fun id => (id, ⟨"path", false⟩)⟩,
    ⟨"path", ["GET", "POST", "DELETE", "PUT", "PATCH"].map fun verb => (verb, ⟨"task", false⟩)⟩,
    ⟨"task", r.taskNames.map fun name => (name, ⟨"String", false⟩)⟩]

theorem Registry.Consistent.fieldNames_hooks {r : Registry} (h : r.Consistent) :
    FieldNames (r.hooks.map (·.1)) := by
  refine ⟨h.hooks, ?_⟩
  rw [List.forall_mem_map]
  exact h.hookNames

namespace Site

structure InStep (s : Site) : Prop where
  tasks : FieldNames s.registry.taskNames
  paths : FieldNames s.registry.pathIdentifiers
  hooks : FieldNames (s.registry.hooks.map (·.1))
  decoded : ∀ p ∈ s.registry.paths, p.2 = RoutePath.ofIdentifier p.1
  vocabulary : s.vocabulary = s.registry.vocabulary
  compiles : ∃ schema, Schema.compile s.vocabulary.schemaText.toList = .ok schema ∧
    schema.types = s.registry.schemaTypes

/-- A site knows the names of all that is registered with it, and they make a schema. Registering
that is refused leaves a site as it is, so it takes no step. -/
theorem Reachable.inStep {s : Site} (h : s.Reachable) : s.InStep := by
  have hs := h.consistent
  have hnames := hs.registry.vocabulary_wellFormed
  have hcompiled := Vocabulary.compile_schemaText hnames
  rw [← hs.vocabulary] at hcompiled
  have htypes : s.vocabulary.schema.types = s.registry.schemaTypes := by
    rw [hs.vocabulary]
    rfl
  exact
    { tasks := ⟨hs.registry.tasks, hnames.isIdentifier_task⟩
      paths := ⟨hs.registry.paths, hnames.isIdentifier_path⟩
      hooks := hs.registry.fieldNames_hooks
      decoded := fun p hp => (hs.registry.extracted p hp).2
      vocabulary := hs.vocabulary
      compiles := ⟨_, hcompiled, htypes⟩ }

def typeTask : Task := ⟨"type", fun _ _ => pure .notFound, by decide⟩

def stringTask : Task := ⟨"String", fun _ _ => pure .notFound, by decide⟩

theorem load_get : PreparedQuery.load ⟨"/", []⟩ "\x7b /GET \x7d" =
    .ok ⟨[], "\x7b _slash_GET \x7d".toList, ["_slash_GET"]⟩ := by
  have hencode : Escape.encodeChars "\x7b /GET \x7d".toList = "\x7b _slash_GET \x7d".toList := by decide
  have hfound : QueryText.pathIdentifiers "\x7b _slash_GET \x7d".toList = ["_slash_GET"] := by
    decide +kernel
  rw [PreparedQuery.load_of_plain (by simp) (by simp) (by simp), hencode, hfound]
  rfl

theorem inStep_keywordTasks : ∃ s : Site, s.Reachable ∧ s.registry.taskNames = ["type", "String"] ∧
    s.registry.pathIdentifiers = ["_slash_GET"] ∧ s.InStep := by
  have hempty : Reachable {} := .new .empty
  have hfirst : addTask {} typeTask = .ok { registry := { tasks := [typeTask] } } := rfl
  have hsecond : addTask { registry := { tasks := [typeTask] } } stringTask =
      .ok { registry := { tasks := [typeTask, stringTask] } } := rfl
  have htasks := Reachable.step (.step hempty (.addTask hfirst)) (.addTask hsecond)
  obtain ⟨s, hs, htask, added, hnodup, hadded, hpaths⟩ := htasks.exists_withPaths load_get
  have hadded := added_eq_singleton hnodup List.not_mem_nil hadded
  rw [hadded] at hpaths
  refine ⟨s, hs, ?_, hpaths, hs.inStep⟩
  rw [Registry.taskNames, htask]
  rfl

end Site
end RouteQuery
