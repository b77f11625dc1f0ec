import Mathlib.Data.List.Nodup
import RouteQuery.Proofs.Outcomes
import RouteQuery.Proofs.PathExtraction
import RouteQuery.Site

/-! What is registered, kept consistent by every way of registering more. -/
namespace RouteQuery

namespace Change

variable {σ α : Type}

theorem bind_apply (change : Change σ α) (f : α → Change σ Unit) (s : σ) :
    (change >>= f) s = match change s with
      | (.ok a, s') => f a s'
      | (.error fault, s') => (.error fault, s') := by
  change ExceptT.bindCont f (change s).1 (change s).2 = _
  obtain ⟨_ | _, _⟩ := change s <;> rfl

/-- What a change comes to that changes a state only when it succeeds. -/
def attempt (s : σ) : Except Fault σ → Except Fault Unit × σ
  | .ok s' => (.ok (), s')
  | .error fault => (.error fault, s)

theorem attempt_eq_error_iff {s : σ} {result : Except Fault σ} {fault : Fault} :
    (attempt s result).1 = .error fault ↔ result = .error fault := by
  cases result <;> simp [attempt]

end Change

namespace Registry

/-- Names are distinct, every path is the one that its identifier stands for, and the hooks that come
with the library are still there, before all others. -/
structure Consistent (r : Registry) : Prop where
  tasks : r.taskNames.Nodup
  paths : r.pathIdentifiers.Nodup
  extracted : ∀ p ∈ r.paths, QueryText.isPathIdentifier p.1 = true ∧ p.2 = RoutePath.ofIdentifier p.1
  hooks : (r.hooks.map (·.1)).Nodup
  hookNames : ∀ h ∈ r.hooks, isIdentifier h.1 = true
  builtin : Hook.builtin <+: r.hooks

theorem consistent_new : Consistent {} where
  tasks := List.nodup_nil
  paths := List.nodup_nil
  extracted := by simp
  hooks := by decide
  hookNames := by decide
  builtin := List.prefix_refl _

theorem task?_eq_none_iff {r : Registry} {name : String} :
    r.task? name = none ↔ name ∉ r.taskNames := by
  simp [task?, taskNames]

theorem exists_task?_iff {r : Registry} {name : String} :
    (∃ task, r.task? name = some task) ↔ name ∈ r.taskNames := by
  rw [← Option.isSome_iff_exists, ← Option.ne_none_iff_isSome, ne_eq, task?_eq_none_iff, not_not]

theorem lookup_eq_none_iff {α : Type} {entries : List (String × α)} {key : String} :
    entries.lookup key = none ↔ key ∉ entries.map (·.1) := by
  rw [List.lookup_eq_none_iff, List.mem_map]
  constructor
  · rintro h ⟨entry, hentry, rfl⟩
    simpa using h entry hentry
  · intro h entry hentry
    exact bne_iff_ne.mpr fun heq => h ⟨entry, hentry, heq.symm⟩

theorem path?_eq_none_iff {r : Registry} {identifier : String} :
    r.path? identifier = none ↔ identifier ∉ r.pathIdentifiers := lookup_eq_none_iff

theorem hook?_eq_none_iff {r : Registry} {name : String} :
    r.hook? name = none ↔ name ∉ r.hooks.map (·.1) := lookup_eq_none_iff

namespace Consistent

variable {r : Registry}

theorem isPathIdentifier (h : r.Consistent) {identifier : String}
    (hid : identifier ∈ r.pathIdentifiers) : QueryText.isPathIdentifier identifier = true := by
  obtain ⟨p, hp, rfl⟩ := List.mem_map.mp hid
  exact (h.extracted p hp).1

theorem path?_eq (h : r.Consistent) {identifier : String} (hid : identifier ∈ r.pathIdentifiers) :
    r.path? identifier = some (RoutePath.ofIdentifier identifier) := by
  cases hpath : r.path? identifier with
  | none => exact absurd hid (path?_eq_none_iff.mp hpath)
  | some path =>
    obtain ⟨before, after, hsplit, -⟩ := List.lookup_eq_some_iff.mp hpath
    have hmem : (identifier, path) ∈ r.paths := by
      rw [hsplit]
      simp
    exact congrArg some (h.extracted _ hmem).2

theorem ofIdentifier_of_path? (h : r.Consistent) {identifier : String} {path : RoutePath}
    (hpath : r.path? identifier = some path) : path = RoutePath.ofIdentifier identifier := by
  by_cases hid : identifier ∈ r.pathIdentifiers
  · exact Option.some.inj (hpath.symm.trans (h.path?_eq hid))
  · rw [path?_eq_none_iff.mpr hid] at hpath
    cases hpath

theorem hook?_builtin (h : r.Consistent) {name : String} {hook : Hook}
    (hbuiltin : Hook.builtin.lookup name = some hook) : r.hook? name = some hook :=
  h.builtin.lookup_eq_some hbuiltin

end Consistent

/-! ### Tasks, options and hooks -/

theorem addTask_eq (r : Registry) (task : Task) : r.addTask task =
    if (r.task? task.name).isSome then .error (.duplicateTask task.name)
    else .ok { r with tasks := r.tasks ++ [task] } :=
  apply_ite (Change.apply · r) ..

theorem addOptions_eq (r : Registry) (name : String) (options : Json) : r.addOptions name options =
    if name.toList.all Text.isBlank then .error (.invalidName .options name)
    else if options.isNull then .error (.missingOptions name)
    else .ok { r with options := Json.put r.options name options } := by
  change Change.apply (if _ then _ else if _ then _ else _) r = _
  rw [apply_ite (Change.apply · r), apply_ite (Change.apply · r)]
  rfl

theorem addHook_eq (r : Registry) (name : String) (hook : Hook) : r.addHook name hook =
    if !isIdentifier name then .error (.invalidName .descriptor name)
    else if (r.hook? name).isSome then .error (.duplicateDescriptor name)
    else .ok { r with hooks := r.hooks ++ [(name, hook)] } := by
  change Change.apply (if _ then _ else _) r = _
  rw [apply_ite (Change.apply · r)]
  congr 1
  -- The hooks are looked up only when the name is valid.
  change Change.apply (if _ then _ else _) r = _
  rw [apply_ite (Change.apply · r)]
  rfl

theorem addTask_eq_ok {r r' : Registry} {task : Task} (h : r.addTask task = .ok r') :
    task.name ∉ r.taskNames ∧ r' = { r with tasks := r.tasks ++ [task] } := by
  rw [addTask_eq] at h
  split at h
  · cases h
  · next hnone =>
    exact ⟨task?_eq_none_iff.mp (by simpa using hnone), (Except.ok.inj h).symm⟩

theorem addOptions_eq_ok {r r' : Registry} {name : String} {options : Json}
    (h : r.addOptions name options = .ok r') :
    name.toList.all Text.isBlank = false ∧ options.isNull = false ∧
      r' = { r with options := Json.put r.options name options } := by
  rw [addOptions_eq] at h
  split at h
  · cases h
  split at h
  · cases h
  · next hname hnull =>
    exact ⟨by simpa using hname, by simpa using hnull, (Except.ok.inj h).symm⟩

theorem addHook_eq_ok {r r' : Registry} {name : String} {hook : Hook}
    (h : r.addHook name hook = .ok r') :
    isIdentifier name = true ∧ name ∉ r.hooks.map (·.1) ∧
      r' = { r with hooks := r.hooks ++ [(name, hook)] } := by
  rw [addHook_eq] at h
  split at h
  · cases h
  split at h
  · cases h
  · next hname hnone =>
    exact ⟨by simpa using hname, hook?_eq_none_iff.mp (by simpa using hnone),
      (Except.ok.inj h).symm⟩

theorem Consistent.addTask {r r' : Registry} {task : Task} (h : r.Consistent)
    (hadd : r.addTask task = .ok r') : r'.Consistent := by
  obtain ⟨hnew, rfl⟩ := addTask_eq_ok hadd
  refine { h with tasks := ?_ }
  rw [taskNames, List.map_append, List.nodup_append']
  exact ⟨h.tasks, by simp, by simpa [taskNames] using hnew⟩

theorem Consistent.addOptions {r r' : Registry} {name : String} {options : Json} (h : r.Consistent)
    (hadd : r.addOptions name options = .ok r') : r'.Consistent := by
  obtain ⟨-, -, rfl⟩ := addOptions_eq_ok hadd
  exact { h with }

theorem Consistent.addHook {r r' : Registry} {name : String} {hook : Hook} (h : r.Consistent)
    (hadd : r.addHook name hook = .ok r') : r'.Consistent := by
  obtain ⟨hname, hnew, rfl⟩ := addHook_eq_ok hadd
  refine { h with hooks := ?_, hookNames := ?_, builtin := h.builtin.trans (List.prefix_append ..) }
  · rw [List.map_append, List.nodup_append']
    exact ⟨h.hooks, by simp, by simpa using hnew⟩
  · intro hook hhook
    rcases List.mem_append.mp hhook with hhook | hhook
    · exact h.hookNames hook hhook
    · obtain rfl := List.mem_singleton.mp hhook
      exact hname

/-! ### Paths -/

def withPaths (r : Registry) (identifiers : List String) : Registry :=
  { r with paths := r.paths ++ identifiers.map fun id => (id, RoutePath.ofIdentifier id) }

@[simp] theorem withPaths_nil (r : Registry) : r.withPaths [] = r := by simp [withPaths]

@[simp] theorem withPaths_withPaths (r : Registry) (ids more : List String) :
    (r.withPaths ids).withPaths more = r.withPaths (ids ++ more) := by simp [withPaths]

@[simp] theorem task?_withPaths (r : Registry) (ids : List String) :
    (r.withPaths ids).task? = r.task? := rfl

@[simp] theorem pathIdentifiers_withPaths (r : Registry) (ids : List String) :
    (r.withPaths ids).pathIdentifiers = r.pathIdentifiers ++ ids := by
  simp [withPaths, pathIdentifiers, Function.comp_def]

theorem addPath_eq {r : Registry} {identifier : String} (h : isIdentifier identifier = true) :
    r.addPath identifier =
      .ok (if identifier ∈ r.pathIdentifiers then r else r.withPaths [identifier]) := by
  simp only [addPath, h, Bool.not_true, Bool.false_eq_true, if_false]
  by_cases hmem : identifier ∈ r.pathIdentifiers
  · have hsome : (r.path? identifier).isSome = true := by
      rw [← Option.ne_none_iff_isSome, ne_eq, path?_eq_none_iff, not_not]
      exact hmem
    rw [if_pos hsome, if_pos hmem]
  · rw [path?_eq_none_iff.mpr hmem, if_neg hmem]
    rfl

/-- Identifiers are all registered, each once, behind those that were registered before. -/
theorem addPaths_eq (r : Registry) {ids : List String} (h : ∀ id ∈ ids, isIdentifier id = true) :
    ∃ added, r.addPaths ids = (.ok (), r.withPaths added) ∧ added.Nodup ∧
      ∀ id, id ∈ added ↔ id ∈ ids ∧ id ∉ r.pathIdentifiers := by
  induction ids generalizing r with
  | nil => exact ⟨[], by simp [addPaths]⟩
  | cons id ids ih =>
    simp only [List.mem_cons, forall_eq_or_imp] at h
    rw [addPaths, addPath_eq h.1]
    by_cases hmem : id ∈ r.pathIdentifiers
    · obtain ⟨added, hadd, hnodup, hiff⟩ := ih r h.2
      refine ⟨added, by simp only [if_pos hmem, hadd], hnodup, fun other => ?_⟩
      rw [hiff, List.mem_cons]
      constructor
      · exact fun ⟨hin, hout⟩ => ⟨.inr hin, hout⟩
      · rintro ⟨rfl | hin, hout⟩
        · exact absurd hmem hout
        · exact ⟨hin, hout⟩
    -- Further occurrences of `id` find it registered, so it is added only here.
    · obtain ⟨added, hadd, hnodup, hiff⟩ := ih (r.withPaths [id]) h.2
      simp only [pathIdentifiers_withPaths, List.mem_append, List.mem_singleton, not_or] at hiff
      refine ⟨id :: added, by simp [hmem, hadd], ?_, fun other => ?_⟩
      · exact List.nodup_cons.mpr ⟨fun hin => ((hiff id).mp hin).2.2 rfl, hnodup⟩
      · simp only [List.mem_cons, hiff]
        constructor
        · rintro (rfl | ⟨hin, hout, -⟩)
          · exact ⟨.inl rfl, hmem⟩
          · exact ⟨.inr hin, hout⟩
        · rintro ⟨rfl | hin, hout⟩
          · exact .inl rfl
          · by_cases heq : other = id
            · exact .inl heq
            · exact .inr ⟨hin, hout, heq⟩

theorem Consistent.withPaths {r : Registry} {ids : List String} (h : r.Consistent)
    (hnodup : ids.Nodup) (hids : ∀ id ∈ ids, QueryText.isPathIdentifier id = true)
    (hnew : ∀ id ∈ ids, id ∉ r.pathIdentifiers) : (r.withPaths ids).Consistent := by
  refine { h with paths := ?_, extracted := ?_ }
  · rw [pathIdentifiers_withPaths, List.nodup_append']
    exact ⟨h.paths, hnodup, fun id hid hin => hnew id hin hid⟩
  · intro p hp
    rcases List.mem_append.mp hp with hp | hp
    · exact h.extracted p hp
    · obtain ⟨id, hid, rfl⟩ := List.mem_map.mp hp
      exact ⟨hids id hid, rfl⟩

end Registry

/-! ### Changes of a site -/

namespace Registering

open Change

theorem task_eq (task : Task) (r : Registry) : Registering.task task r = attempt r (r.addTask task) := by
  rw [Registry.addTask_eq]
  change (if _ then _ else _ : Change Registry Unit) r = attempt r (if _ then _ else _)
  split <;> rfl

theorem options_eq (name : String) (options : Json) (r : Registry) :
    Registering.options name options r = attempt r (r.addOptions name options) := by
  rw [Registry.addOptions_eq]
  change (if _ then _ else if _ then _ else _ : Change Registry Unit) r = attempt r (if _ then _ else _)
  split
  · rfl
  · split <;> rfl

theorem hook_eq (name : String) (hook : Hook) (r : Registry) :
    Registering.hook name hook r = attempt r (r.addHook name hook) := by
  rw [Registry.addHook_eq]
  change (if _ then _ else _ : Change Registry Unit) r = attempt r (if _ then _ else _)
  split
  · rfl
  · change (if _ then _ else _ : Change Registry Unit) r = _
    split <;> rfl

end Registering

namespace Site

open Change

variable {s s' : Site}

theorem registering_eq {change : Change Registry Unit} {result : Except Fault Registry}
    (h : change s.registry = attempt s.registry result) :
    registering change s = attempt s (result.map fun registry => { s with registry }) := by
  rw [registering, h]
  cases result <;> rfl

theorem addingTask_eq (task : Task) (s : Site) :
    addingTask task s = attempt s ((s.registry.addTask task).map s.setRegistry) := by
  rw [addingTask, bind_apply, registering_eq (Registering.task_eq task s.registry)]
  cases s.registry.addTask task <;> rfl

theorem apply_of_eq_attempt {change : Change Site Unit} {result : Except Fault Site}
    (h : change s = attempt s result) : change.apply s = result := by
  rw [apply, h]
  cases result <;> rfl

theorem addTask_eq (s : Site) (task : Task) : s.addTask task = (s.registry.addTask task).map s.setRegistry :=
  apply_of_eq_attempt (addingTask_eq task s)

theorem addOptions_eq (s : Site) (name : String) (options : Json) :
    s.addOptions name options = (s.registry.addOptions name options).map fun registry => { s with registry } :=
  apply_of_eq_attempt (registering_eq (Registering.options_eq name options s.registry))

theorem addHook_eq (s : Site) (name : String) (hook : Hook) :
    s.addHook name hook = (s.registry.addHook name hook).map fun registry => { s with registry } :=
  apply_of_eq_attempt (registering_eq (Registering.hook_eq name hook s.registry))

theorem of_addTask {task : Task} (h : s.addTask task = .ok s') :
    ∃ registry, s.registry.addTask task = .ok registry ∧ s.setRegistry registry = s' := by
  rw [addTask_eq] at h
  exact exists_of_map_eq_ok h

theorem of_addOptions {name : String} {options : Json} (h : s.addOptions name options = .ok s') :
    ∃ registry, s.registry.addOptions name options = .ok registry ∧ { s with registry } = s' := by
  rw [addOptions_eq] at h
  exact exists_of_map_eq_ok h

theorem of_addHook {name : String} {hook : Hook} (h : s.addHook name hook = .ok s') :
    ∃ registry, s.registry.addHook name hook = .ok registry ∧ { s with registry } = s' := by
  rw [addHook_eq] at h
  exact exists_of_map_eq_ok h

@[simp] theorem addTasks_nil (s : Site) : s.addTasks [] = (.ok (), s) := rfl

theorem addTasks_cons (s : Site) (task : Task) (rest : List Task) :
    s.addTasks (task :: rest) = match s.addTask task with
      | .ok s' => s'.addTasks rest
      | .error fault => (.error fault, s) := by
  change (addingTask task >>= fun _ => rest.forM addingTask) s = _
  rw [bind_apply, addingTask_eq, addTask_eq]
  cases s.registry.addTask task <;> rfl

end Site
end RouteQuery
