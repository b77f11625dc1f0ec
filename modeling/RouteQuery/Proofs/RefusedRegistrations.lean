import RouteQuery.Proofs.Accepting
import RouteQuery.Registration

/-! What a registration that is refused leaves behind: nothing, or the stock tasks in front of the one that
was refused. One that succeeds takes nothing away. -/
namespace RouteQuery

open Change

namespace Registry

def withTasks (r : Registry) (tasks : List Task) : Registry := { r with tasks := r.tasks ++ tasks }

@[simp] theorem withTasks_nil (r : Registry) : r.withTasks [] = r := by simp [withTasks]

@[simp] theorem withTasks_withTasks (r : Registry) (tasks more : List Task) :
    (r.withTasks tasks).withTasks more = r.withTasks (tasks ++ more) := by simp [withTasks]

@[simp] theorem taskNames_withTasks (r : Registry) (tasks : List Task) :
    (r.withTasks tasks).taskNames = r.taskNames ++ tasks.map (·.name) := by simp [withTasks, taskNames]

end Registry

namespace Site

theorem setRegistry_self {s : Site} (h : s.vocabulary = s.registry.vocabulary) : s.setRegistry s.registry = s := by
  rw [setRegistry, ← h]

@[simp] theorem setRegistry_setRegistry (s : Site) (r r' : Registry) :
    (s.setRegistry r).setRegistry r' = s.setRegistry r' := rfl

@[simp] theorem registry_setRegistry (s : Site) (r : Registry) : (s.setRegistry r).registry = r := rfl

theorem of_bind_addingTask (result : Except Fault Task) (s : Site) :
    (Change.of result >>= addingTask) s = attempt s (result >>= s.addTask) := by
  cases result with
  | error fault => rfl
  | ok task =>
    change addingTask task s = attempt s (s.addTask task)
    rw [addingTask_eq, addTask_eq]

theorem addTask_of_new {s : Site} {task : Task} (h : task.name ∉ s.registry.taskNames) :
    s.addTask task = .ok (s.setRegistry (s.registry.withTasks [task])) := by
  rw [addTask_eq, Registry.addTask_eq, Registry.task?_eq_none_iff.mpr h]
  rfl

theorem addTask_eq_error_iff {s : Site} {task : Task} {fault : Fault} :
    s.addTask task = .error fault ↔ task.name ∈ s.registry.taskNames ∧ fault = .duplicateTask task.name := by
  by_cases h : task.name ∈ s.registry.taskNames
  · obtain ⟨other, hother⟩ := Registry.exists_task?_iff.mpr h
    rw [addTask_eq, Registry.addTask_eq, hother]
    simp [h, Except.map, eq_comm]
  · rw [addTask_of_new h]
    simp [h]

/-- The tasks in front of the first one whose name is taken. -/
def untaken (s : Site) (tasks : List Task) : List Task :=
  tasks.takeWhile fun task => task.name ∉ s.registry.taskNames

/-- Of tasks with different names those in front of the first taken name are added, and that name is
refused. Some of them may have been added before. -/
theorem addTasks_behind (s : Site) (added tasks : List Task)
    (hnodup : ((added ++ tasks).map (·.name)).Nodup) :
    (s.setRegistry (s.registry.withTasks added)).addTasks tasks =
      ((tasks.find? (·.name ∈ s.registry.taskNames)).elim (.ok ()) fun task =>
          .error (.duplicateTask task.name),
        s.setRegistry (s.registry.withTasks (added ++ s.untaken tasks))) := by
  induction tasks generalizing added with
  | nil => simp [untaken]
  | cons task rest ih =>
    have hnew : task.name ∉ added.map (·.name) := by
      rw [List.map_append, List.nodup_append] at hnodup
      exact fun hadded => hnodup.2.2 _ hadded _ (by simp) rfl
    have hnames : task.name ∈ (s.registry.withTasks added).taskNames ↔ task.name ∈ s.registry.taskNames := by
      rw [Registry.taskNames_withTasks, List.mem_append, or_iff_left hnew]
    rw [addTasks_cons, untaken]
    by_cases htaken : task.name ∈ s.registry.taskNames
    · rw [addTask_eq_error_iff.mpr ⟨hnames.mpr htaken, rfl⟩]
      simp [htaken]
    · have hrest := ih (added ++ [task]) (by simpa using hnodup)
      rw [addTask_of_new (mt hnames.mp htaken)]
      simp only [registry_setRegistry, setRegistry_setRegistry, Registry.withTasks_withTasks, hrest]
      simp [htaken, untaken]

/-- The stock tasks in front of the first one whose name is taken have been added to a site, and nothing
else has changed. -/
def StockedUpToTaken (newId : StockTasks.IdSource) (s s' : Site) : Prop :=
  s' = s.setRegistry (s.registry.withTasks (s.untaken (StockTasks.all newId)))

/-- What was registered is still there, under its name and in its place. -/
structure Keeps (s s' : Site) : Prop where
  tasks : s.registry.tasks <+: s'.registry.tasks
  hooks : s.registry.hooks <+: s'.registry.hooks
  paths : s.registry.paths <+: s'.registry.paths
  task? : ∀ name task, s.registry.task? name = some task → s'.registry.task? name = some task
  hook? : ∀ name hook, s.registry.hook? name = some hook → s'.registry.hook? name = some hook
  path? : ∀ id path, s.registry.path? id = some path → s'.registry.path? id = some path

theorem Keeps.of_initial {s s' : Site} (tasks : s.registry.tasks <+: s'.registry.tasks)
    (hooks : s.registry.hooks <+: s'.registry.hooks) (paths : s.registry.paths <+: s'.registry.paths) :
    s.Keeps s' where
  tasks := tasks
  hooks := hooks
  paths := paths
  task? _ _ := tasks.find?_eq_some
  hook? _ _ := hooks.lookup_eq_some
  path? _ _ := paths.lookup_eq_some

theorem keeps_setRegistry_withTasks (s : Site) (tasks : List Task) :
    s.Keeps (s.setRegistry (s.registry.withTasks tasks)) :=
  .of_initial (List.prefix_append _ tasks) (List.prefix_refl _) (List.prefix_refl _)

theorem keeps_addTask {s s' : Site} {task : Task} (h : s.addTask task = .ok s') : s.Keeps s' := by
  have hnew : task.name ∉ s.registry.taskNames := fun htaken => by
    rw [addTask_eq_error_iff.mpr ⟨htaken, rfl⟩] at h
    cases h
  rw [addTask_of_new hnew] at h
  obtain rfl := Except.ok.inj h
  exact s.keeps_setRegistry_withTasks [task]

theorem keeps_addOptions {s s' : Site} {name : String} {options : Json}
    (h : s.addOptions name options = .ok s') : s.Keeps s' := by
  obtain ⟨registry, hadd, rfl⟩ := Site.of_addOptions h
  obtain ⟨-, -, rfl⟩ := Registry.addOptions_eq_ok hadd
  exact .of_initial (List.prefix_refl _) (List.prefix_refl _) (List.prefix_refl _)

theorem keeps_addHook {s s' : Site} {name : String} {hook : Hook} (h : s.addHook name hook = .ok s') :
    s.Keeps s' := by
  obtain ⟨registry, hadd, rfl⟩ := Site.of_addHook h
  obtain ⟨-, -, rfl⟩ := Registry.addHook_eq_ok hadd
  exact .of_initial (List.prefix_refl _) (List.prefix_append _ _) (List.prefix_refl _)

theorem addNamedTask_eq_error_iff {s : Site} {name : String}
    {handler : Http.Request → Next → Action Http.Response} {fault : Fault} :
    (Task.make name handler >>= s.addTask) = .error fault ↔
      isIdentifier name = false ∧ fault = .invalidName .task name ∨
      name ∈ s.registry.taskNames ∧ fault = .duplicateTask name := by
  rw [Task.make]
  split
  · next hname =>
    refine addTask_eq_error_iff.trans ?_
    simp [hname]
  · next hname =>
    have hnew : name ∉ s.registry.taskNames := fun htaken => by
      obtain ⟨task, -, rfl⟩ := List.mem_map.mp htaken
      exact hname task.isIdentifier_name
    change Except.error _ = Except.error fault ↔ _
    simp [hname, hnew, eq_comm]

theorem isIdentifier_of_functionName? {typeName name : String} (h : Task.functionName? typeName = some name) :
    isIdentifier name = true := by
  unfold Task.functionName? at h
  simp only at h
  split at h
  · cases h
  · split at h
    · next hname =>
      obtain rfl := Option.some.inj h
      exact hname
    · cases h

theorem addFunction_eq_error_iff {s : Site} {typeName : String}
    {handler : Http.Request → Next → Action Http.Response} {fault : Fault} :
    (Task.ofFunction typeName handler >>= s.addTask) = .error fault ↔
      Task.functionName? typeName = none ∧ fault = .anonymousTask typeName ∨
      ∃ name, Task.functionName? typeName = some name ∧ name ∈ s.registry.taskNames ∧
        fault = .duplicateTask name := by
  rw [Task.ofFunction]
  cases hname : Task.functionName? typeName with
  | some name =>
    refine addNamedTask_eq_error_iff.trans ?_
    simp [isIdentifier_of_functionName? hname]
  | none =>
    change Except.error _ = Except.error fault ↔ _
    simp [eq_comm]

theorem addOptions_eq_error_iff {s : Site} {name : String} {options : Json} {fault : Fault} :
    s.addOptions name options = .error fault ↔
      name.toList.all Text.isBlank = true ∧ fault = .invalidName .options name ∨
      name.toList.all Text.isBlank = false ∧ options.isNull = true ∧ fault = .missingOptions name := by
  rw [addOptions_eq, Registry.addOptions_eq]
  cases name.toList.all Text.isBlank <;> cases options.isNull <;> simp [Except.map, eq_comm]

theorem addHook_eq_error_iff {s : Site} {name : String} {hook : Hook} {fault : Fault} :
    s.addHook name hook = .error fault ↔
      isIdentifier name = false ∧ fault = .invalidName .descriptor name ∨
      isIdentifier name = true ∧ name ∈ s.registry.hooks.map (·.1) ∧ fault = .duplicateDescriptor name := by
  have htaken : (s.registry.hook? name).isSome = true ↔ name ∈ s.registry.hooks.map (·.1) := by
    rw [← Option.ne_none_iff_isSome, ne_eq, Registry.hook?_eq_none_iff, not_not]
  rw [addHook_eq, Registry.addHook_eq, ← htaken]
  cases isIdentifier name <;> cases (s.registry.hook? name).isSome <;> simp [Except.map, eq_comm]

end Site

namespace Registration

/-- What a registry refuses, and why. -/
inductive Refused (r : Registry) : Registration → Fault → Prop
  | nameless {typeName : String} {handler : Http.Request → Next → Action Http.Response}
      (h : Task.functionName? typeName = none) : Refused r (.function typeName handler) (.anonymousTask typeName)
  | takenFunction {typeName name : String} {handler : Http.Request → Next → Action Http.Response}
      (h : Task.functionName? typeName = some name) (taken : name ∈ r.taskNames) :
      Refused r (.function typeName handler) (.duplicateTask name)
  | invalidTask {name : String} {handler : Http.Request → Next → Action Http.Response}
      (h : isIdentifier name = false) : Refused r (.task name handler) (.invalidName .task name)
  | takenTask {name : String} {handler : Http.Request → Next → Action Http.Response}
      (taken : name ∈ r.taskNames) : Refused r (.task name handler) (.duplicateTask name)
  | unserializable {name reason : String} :
      Refused r (.options name (.error reason)) (.invalidOptions name (.unserializable reason))
  | blankOptions {name : String} {options : Json} (h : name.toList.all Text.isBlank = true) :
      Refused r (.options name (.ok options)) (.invalidName .options name)
  | nullOptions {name : String} {options : Json} (h : name.toList.all Text.isBlank = false)
      (null : options.isNull = true) : Refused r (.options name (.ok options)) (.missingOptions name)
  | invalidHook {name : String} {hook : Hook} (h : isIdentifier name = false) :
      Refused r (.hook name hook) (.invalidName .descriptor name)
  | takenHook {name : String} {hook : Hook} (taken : name ∈ r.hooks.map (·.1)) :
      Refused r (.hook name hook) (.duplicateDescriptor name)
  | takenStock {newId : StockTasks.IdSource} {task : Task}
      (first : (StockTasks.all newId).find? (·.name ∈ r.taskNames) = some task) :
      Refused r (.stockTasks newId) (.duplicateTask task.name)

/-- A call for anything but the stock tasks changes the site only when it is not refused. -/
theorem exists_attempt {s : Site} (h : s.registry.Consistent) {call : Registration}
    (hcall : ∀ newId, call ≠ .stockTasks newId) : ∃ result, call.perform s = attempt s result ∧
      (∀ fault, result = .error fault ↔ call.Refused s.registry fault) ∧
      ∀ s', result = .ok s' → s.Keeps s' := by
  cases call with
  | function typeName handler =>
    refine ⟨_, Site.of_bind_addingTask _ s, fun fault => ?_, fun s' hs' => ?_⟩
    · rw [Site.addFunction_eq_error_iff]
      constructor
      · rintro (⟨hnone, rfl⟩ | ⟨name, hname, htaken, rfl⟩)
        · exact .nameless hnone
        · exact .takenFunction hname htaken
      · intro hrefused
        cases hrefused with
        | nameless hnone => exact .inl ⟨hnone, rfl⟩
        | takenFunction hname htaken => exact .inr ⟨_, hname, htaken, rfl⟩
    · obtain ⟨task, -, hadd⟩ := exists_of_bind_eq_ok hs'
      exact Site.keeps_addTask hadd
  | task name handler =>
    refine ⟨_, Site.of_bind_addingTask _ s, fun fault => ?_, fun s' hs' => ?_⟩
    · rw [Site.addNamedTask_eq_error_iff]
      constructor
      · rintro (⟨hinvalid, rfl⟩ | ⟨htaken, rfl⟩)
        · exact .invalidTask hinvalid
        · exact .takenTask htaken
      · intro hrefused
        cases hrefused with
        | invalidTask hinvalid => exact .inl ⟨hinvalid, rfl⟩
        | takenTask htaken => exact .inr ⟨htaken, rfl⟩
    · obtain ⟨task, -, hadd⟩ := exists_of_bind_eq_ok hs'
      exact Site.keeps_addTask hadd
  | options name serialized =>
    cases serialized with
    | error reason =>
      refine ⟨.error (.invalidOptions name (.unserializable reason)), rfl,
        fun fault => ⟨fun hfault => ?_, ?_⟩, by simp⟩
      · obtain rfl := Except.error.inj hfault
        exact .unserializable
      · rintro ⟨⟩
        rfl
    | ok options =>
      refine ⟨_, Site.registering_eq (Registering.options_eq name options s.registry), fun fault => ?_,
        fun s' => Site.addOptions_eq s name options ▸ Site.keeps_addOptions⟩
      rw [← Site.addOptions_eq, Site.addOptions_eq_error_iff]
      constructor
      · rintro (⟨hblank, rfl⟩ | ⟨hname, hnull, rfl⟩)
        · exact .blankOptions hblank
        · exact .nullOptions hname hnull
      · intro hrefused
        cases hrefused with
        | blankOptions hblank => exact .inl ⟨hblank, rfl⟩
        | nullOptions hname hnull => exact .inr ⟨hname, hnull, rfl⟩
  | hook name effect =>
    refine ⟨_, Site.registering_eq (Registering.hook_eq name effect s.registry), fun fault => ?_,
      fun s' => Site.addHook_eq s name effect ▸ Site.keeps_addHook⟩
    rw [← Site.addHook_eq, Site.addHook_eq_error_iff]
    constructor
    · rintro (⟨hinvalid, rfl⟩ | ⟨-, htaken, rfl⟩)
      · exact .invalidHook hinvalid
      · exact .takenHook htaken
    · intro hrefused
      cases hrefused with
      | invalidHook hinvalid => exact .inl ⟨hinvalid, rfl⟩
      | takenHook htaken =>
        obtain ⟨hook, hhook, rfl⟩ := List.mem_map.mp htaken
        exact .inr ⟨h.hookNames hook hhook, htaken, rfl⟩
  | stockTasks newId => exact absurd rfl (hcall newId)

theorem perform_stockTasks {s : Site} (h : s.Consistent) (newId : StockTasks.IdSource) :
    (stockTasks newId).perform s =
      (((StockTasks.all newId).find? (·.name ∈ s.registry.taskNames)).elim (.ok ()) fun task =>
          .error (.duplicateTask task.name),
        s.setRegistry (s.registry.withTasks (s.untaken (StockTasks.all newId)))) := by
  have hadd := s.addTasks_behind [] (StockTasks.all newId) (by simp [StockTasks.all])
  rwa [Registry.withTasks_nil, Site.setRegistry_self h.vocabulary] at hadd

/-- A call fails just when it is refused. Then the site is as it was before, but for stock tasks in front
of one whose name is taken. When a call succeeds, everything registered before is still there. -/
theorem perform_refused_or_keeps {s : Site} (h : s.Reachable) (call : Registration) :
    (∀ fault, (call.perform s).1 = .error fault ↔ call.Refused s.registry fault) ∧
    (∀ fault s', call.perform s = (.error fault, s') →
      ((∀ newId, call ≠ .stockTasks newId) → s' = s) ∧
        ∀ newId, call = .stockTasks newId → s.StockedUpToTaken newId s') ∧
    ∀ s', call.perform s = (.ok (), s') → s.Keeps s' := by
  have hs := h.consistent
  by_cases hcall : ∃ newId, call = .stockTasks newId
  · obtain ⟨newId, rfl⟩ := hcall
    rw [perform_stockTasks hs]
    refine ⟨fun fault => ⟨fun hfault => ?_, fun hrefused => ?_⟩, ?_, ?_⟩
    · cases hfirst : (StockTasks.all newId).find? (·.name ∈ s.registry.taskNames) with
      | none => simp [hfirst] at hfault
      | some task =>
        rw [hfirst] at hfault
        obtain rfl := Except.error.inj hfault
        exact .takenStock hfirst
    · cases hrefused with
      | takenStock hfirst => rw [hfirst]; rfl
    · intro fault s' hperform
      refine ⟨fun hother => absurd rfl (hother newId), ?_⟩
      rintro _ ⟨⟩
      exact (Prod.mk.inj hperform).2.symm
    · intro s' hperform
      rw [← (Prod.mk.inj hperform).2]
      exact s.keeps_setRegistry_withTasks _
  · rw [not_exists] at hcall
    obtain ⟨result, hperform, hrefused, hkept⟩ := exists_attempt hs.registry hcall
    rw [hperform]
    refine ⟨fun fault => attempt_eq_error_iff.trans (hrefused fault), ?_, ?_⟩
    · intro fault s' hattempt
      obtain rfl := attempt_eq_error_iff.mp (congrArg Prod.fst hattempt)
      exact ⟨fun _ => (Prod.mk.inj hattempt).2.symm, fun newId hstock => absurd hstock (hcall newId)⟩
    · intro s' hattempt
      cases result with
      | error fault => cases (Prod.mk.inj hattempt).1
      | ok after => exact (Prod.mk.inj hattempt).2 ▸ hkept after rfl

/-- Where there is a task `hello`, another one is refused without a trace, and of the stock tasks those in
front of it are added. -/
theorem greeting_refuses : Site.greeting.Reachable ∧
    (task "hello" StockTasks.hello).perform Site.greeting = (.error (.duplicateTask "hello"), Site.greeting) ∧
    ((stockTasks (.constant "0")).perform Site.greeting).1 = .error (.duplicateTask "hello") ∧
    Site.greeting.StockedUpToTaken (.constant "0") ((stockTasks (.constant "0")).perform Site.greeting).2 := by
  obtain ⟨htask, hafter, -⟩ := perform_refused_or_keeps Site.reachable_greeting (task "hello" StockTasks.hello)
  obtain ⟨hstock, hstocked, -⟩ :=
    perform_refused_or_keeps Site.reachable_greeting (stockTasks (.constant "0"))
  have htaken : "hello" ∈ Site.greeting.registry.taskNames := List.mem_singleton.mpr rfl
  have hrefused := (htask _).mpr (.takenTask htaken)
  have hfirst : (StockTasks.all (.constant "0")).find? (·.name ∈ Site.greeting.registry.taskNames) =
      some ⟨"hello", StockTasks.hello, by decide⟩ := rfl
  have hstocks := (hstock _).mpr (.takenStock hfirst)
  have hsame := (hafter _ _ (Prod.ext hrefused rfl)).1 (by simp)
  exact ⟨Site.reachable_greeting, Prod.ext hrefused hsame, hstocks, (hstocked _ _ (Prod.ext hstocks rfl)).2 _ rfl⟩

/-- Stock tasks that are refused can leave tasks behind. -/
theorem stockTasks_left_behind : ∃ s s' : Site, s.Reachable ∧
    (stockTasks (.constant "0")).perform s = (.error (.duplicateTask "hello"), s') ∧
    s.registry.taskNames = ["hello"] ∧ s'.registry.taskNames = ["hello", "log_request", "request_id"] :=
  ⟨Site.greeting, _, Site.reachable_greeting, perform_stockTasks Site.reachable_greeting.consistent _, rfl, rfl⟩

end Registration
end RouteQuery
