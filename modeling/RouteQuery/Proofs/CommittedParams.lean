import Mathlib.Logic.Relation
import RouteQuery.Proofs.UnreachableFaults

/-! Parameter descriptors in the table, call after call. Their tasks are looked up when a path needs
them, and what was found once is found for good. -/
namespace RouteQuery
open Execution

namespace Descriptor

theorem mem_commit {params : List (String × Descriptor)} {descriptors : List Descriptor}
    {p : String × Descriptor} (h : p ∈ commit params descriptors) :
    p ∈ params ∨ ∃ own ∈ descriptors, own.name = param ∧ p = (own.paramKey, own) := by
  induction descriptors generalizing params with
  | nil => exact .inl h
  | cons d ds ih =>
    have later (h : ∃ own ∈ ds, own.name = param ∧ p = (own.paramKey, own)) :
        ∃ own ∈ d :: ds, own.name = param ∧ p = (own.paramKey, own) := by
      obtain ⟨own, hown, hcause⟩ := h
      exact ⟨own, List.mem_cons_of_mem _ hown, hcause⟩
    rw [commit, List.filter_cons] at h
    split at h
    · next hname =>
      have hrest : p ∈ commit (Json.put params d.paramKey d) ds := h
      rcases ih hrest with hput | hown
      · rcases Json.eq_or_mem_of_mem_put hput with rfl | hold
        · exact .inr ⟨d, List.mem_cons_self, by simpa using hname, rfl⟩
        · exact .inl hold
      · exact .inr (later hown)
    · have hrest : p ∈ commit params ds := h
      exact (ih hrest).imp_right later

end Descriptor

namespace Site

variable {s s' t : Site} {w : Workspace} {app app' : App} {source : String}

/-! ### Tasks stay -/

theorem taskNames_of_addTask {task : Task} (h : s.addTask task = .ok s') :
    s.registry.taskNames ⊆ s'.registry.taskNames := by
  obtain ⟨registry, hregistry, rfl⟩ := Site.of_addTask h
  obtain ⟨-, rfl⟩ := Registry.addTask_eq_ok hregistry
  exact List.map_subset _ (List.subset_append_left ..)

theorem taskNames_of_addTasks (s : Site) (tasks : List Task) :
    s.registry.taskNames ⊆ (s.addTasks tasks).2.registry.taskNames := by
  obtain ⟨added, vocabulary, hadd⟩ := s.addTasks_eq tasks
  rw [hadd]
  exact List.map_subset _ (List.subset_append_left ..)

theorem taskNames_of_step (h : Step s s') : s.registry.taskNames ⊆ s'.registry.taskNames := by
  cases h with
  | addTask hadd => exact taskNames_of_addTask hadd
  | addNamedTask hadd =>
    obtain ⟨task, -, hadd⟩ := exists_of_bind_eq_ok hadd
    exact taskNames_of_addTask hadd
  | addStockTasks => exact taskNames_of_addTasks s _
  | addOptions hadd =>
    obtain ⟨registry, hregistry, rfl⟩ := Site.of_addOptions hadd
    obtain ⟨-, -, rfl⟩ := Registry.addOptions_eq_ok hregistry
    exact List.Subset.refl _
  | addHook hadd =>
    obtain ⟨registry, hregistry, rfl⟩ := Site.of_addHook hadd
    obtain ⟨-, -, rfl⟩ := Registry.addHook_eq_ok hregistry
    exact List.Subset.refl _
  | set w app source =>
    rw [Registry.taskNames, Registry.taskNames, (set_cases s w app source).1]
    exact List.Subset.refl _
  | share context => exact List.Subset.refl _

theorem taskNames_of_steps (h : Relation.ReflTransGen Step s t) :
    s.registry.taskNames ⊆ t.registry.taskNames := by
  induction h with
  | refl => exact List.Subset.refl _
  | tail _ hstep ih => exact List.Subset.trans ih (taskNames_of_step hstep)

theorem Reachable.steps (h : s.Reachable) (hsteps : Relation.ReflTransGen Step s t) : t.Reachable := by
  induction hsteps with
  | refl => exact h
  | tail _ hstep ih => exact ih.step hstep

/-! ### Parameters that a call has used -/

/-- The identifier of a path of the document contains the parameter. -/
def Uses (d : Document) (p : String × Descriptor) : Prop :=
  ∃ id ∈ fieldNames d.selections, Text.occursIn p.1.toList id.toList = true

/-- A parameter of the table is usable from the first call on that uses it. -/
theorem Applies.usable {query : PreparedQuery} {d : Document} {hooked : App}
    {routed : List RouteEntry} (h : s.Applies w source s' query d hooked routed)
    (hlater : Relation.ReflTransGen Step s' t) {p : String × Descriptor}
    (hp : p ∈ s'.registry.params) (huses : Uses d p) : ∀ n ∈ p.2.args, n ∈ t.registry.taskNames := by
  obtain ⟨id, hid, hoccurs⟩ := huses
  exact fun n hn => taskNames_of_steps hlater ((h.mounts id hid).bound p hp hoccurs n hn)

/-- The descriptors of a query that name tasks name only registered ones. -/
def NamesTasks (s : Site) (query : PreparedQuery) : Prop :=
  ∀ own ∈ query.descriptors, own.name = Descriptor.param ∨ own.name = Descriptor.all →
    ∀ n ∈ own.args, n ∈ s.registry.taskNames

/-- A query that names only registered tasks can miss one for a parameter committed before. -/
theorem missing_of_set (hs : s.Consistent) {n : String}
    (h : s.set w app source = (.error (.unknownTask n), s', app')) {query : PreparedQuery}
    (hload : PreparedQuery.load w source = .ok query) (hnames : s.NamesTasks query)
    (hother : ¬s.registry.RefusedByOther w query.descriptors (.unknownTask n)) :
    ∃ d, Document.parse query.text = .ok d ∧ ∃ p ∈ s.registry.params,
      Uses d p ∧ n ∈ p.2.args ∧ n ∉ s.registry.taskNames := by
  rcases (refusal_of_set hs h).cause with
    hplain | ⟨m, hm, hnew, query', d, haccepts, hcause⟩ | ⟨query', hload', hother'⟩
  · exact absurd rfl (hplain.not_task n)
  · obtain rfl := Fault.unknownTask.inj hm
    obtain rfl := Except.ok.inj (hload.symm.trans haccepts.load)
    rcases hcause with ⟨own, hown, hall, harg⟩ | ⟨p, hmissing⟩
    · exact absurd (hnames own hown (.inr hall) n harg) hnew
    rcases Descriptor.mem_commit hmissing.committed with hold | ⟨own, hown, hparam, rfl⟩
    · exact ⟨d, haccepts.parse, p, hold, hmissing.occurs, hmissing.arg, hnew⟩
    · exact absurd (hnames own hown (.inl hparam) n hmissing.arg) hnew
  · obtain rfl := Except.ok.inj (hload.symm.trans hload')
    exact absurd hother' hother

/-- A parameter of the table stands for registered tasks from the first call on that uses it. Later
on, a query that names only registered tasks misses one for no other reason than a parameter that was
committed before and that this call has not used, unless a hook that is not of the library refuses. -/
theorem params_usable_of_set (hs : s.Reachable) (h : s.set w app source = (.ok (), s', app'))
    (hlater : Relation.ReflTransGen Step s' t) :
    ∃ query d, s.Accepts w source query d ∧
      (∀ p ∈ s'.registry.params, Uses d p → ∀ n ∈ p.2.args, n ∈ t.registry.taskNames) ∧
      ∀ (w₁ : Workspace) (app₁ : App) (source₁ n : String) (t' : Site) (app₂ : App)
        (query₁ : PreparedQuery), t.set w₁ app₁ source₁ = (.error (.unknownTask n), t', app₂) →
        PreparedQuery.load w₁ source₁ = .ok query₁ → t.NamesTasks query₁ →
        ¬t.registry.RefusedByOther w₁ query₁.descriptors (.unknownTask n) →
        ∃ d₁, Document.parse query₁.text = .ok d₁ ∧ ∃ p ∈ t.registry.params, Uses d₁ p ∧
          n ∈ p.2.args ∧ n ∉ t.registry.taskNames ∧ (p ∈ s'.registry.params → ¬Uses d p) := by
  obtain ⟨query, d, hooked, routed, happlies, -⟩ := applies_of_set hs.consistent h
  have ht := ((hs.of_set h).steps hlater).consistent
  refine ⟨query, d, happlies.accepts, fun p hp huses => happlies.usable hlater hp huses, ?_⟩
  intro w₁ app₁ source₁ n t' app₂ query₁ hset hload hnames hother
  obtain ⟨d₁, hparse, p, hp, huses, harg, hnew⟩ := missing_of_set ht hset hload hnames hother
  refine ⟨d₁, hparse, p, hp, huses, harg, hnew, fun hold hused => ?_⟩
  exact hnew (happlies.usable hlater hold hused n harg)

/-! ### A parameter that waits for its path -/

section
open RouteBlock

/-- A descriptor for a parameter that the path does not have and a task that the site does not have. -/
def unusedParam : String := "@" ++ "param id: log_request" ++ "\n" ++ queryText (greetAt "/a")

example : unusedParam = "@param id: log_request\n\x7b /a \x7b GET \x7b hello \x7d \x7d \x7d" := by cbv

def unusedParamQuery : PreparedQuery :=
  { prepared (greetAt "/a") with
    descriptors := [userDescriptor]
    text := '\n' :: (prepared (greetAt "/a")).text }

theorem accepts_unusedParam :
    greeting.Accepts ⟨"/", []⟩ unusedParam unusedParamQuery (greetDocument "/a") := by
  have hvalid : ∀ b ∈ greetAt "/a", Valid greeting.registry.taskNames b :=
    valid_greetAt ⟨by decide, List.all_eq_true.mp (by decide)⟩
  have hparse : Descriptor.parseLine ('@' :: "param id: log_request".toList) =
      .ok userDescriptor := rfl
  exact accepts_annotated reachable_greeting.consistent _ (greetAt_ne_nil _) hvalid (by simp)
    (by simp) hparse

theorem not_uses_unusedParam : ¬Uses (greetDocument "/a") ("_colon_id", userDescriptor) := by
  rintro ⟨id, hid, hoccurs⟩
  rw [fieldNames_greetDocument] at hid
  obtain rfl := List.mem_singleton.mp hid
  have hunused : Text.occursIn "_colon_id".toList (Escape.encode "/a").toList = false := by decide
  rw [hunused] at hoccurs
  cases hoccurs

/-- The descriptor is committed with its query, since no path asks for the task. -/
theorem set_unusedParam (app : App) : ∃ s' app', greeting.set ⟨"/", []⟩ app unusedParam = (.ok (), s', app') ∧
    s'.Reachable ∧ s'.registry.params = [("_colon_id", userDescriptor)] ∧
    s'.registry.taskNames = ["hello"] := by
  have hs := reachable_greeting.consistent
  have hmounts : ∀ id ∈ fieldNames (greetDocument "/a").selections,
      greeting.registry.Mounts [("_colon_id", userDescriptor)] id := fun id hid =>
    ⟨compiles_greetDocument (by decide +kernel) id hid,
      List.forall_mem_singleton.mpr fun hoccurs => absurd ⟨id, hid, hoccurs⟩ not_uses_unusedParam⟩
  obtain ⟨s', app', hset⟩ := (set_eq_ok_iff hs app accepts_unusedParam.load
    (List.forall_mem_singleton.mpr rfl) accepts_unusedParam.parse).mpr
      ⟨accepts_unusedParam.paths, hmounts⟩
  obtain ⟨query, d, hooked, routed, happlies, -⟩ := applies_of_set hs hset
  obtain ⟨rfl, rfl⟩ := accepts_unusedParam.unique happlies.accepts
  exact ⟨s', app', hset, reachable_greeting.of_set hset, happlies.params, congrArg (List.map Task.name) happlies.tasks⟩

/-- The next query with the parameter is refused, without a descriptor of its own. -/
theorem set_after_unusedParam {s : Site} (hs : s.Consistent)
    (hparams : s.registry.params = [("_colon_id", userDescriptor)])
    (htasks : s.registry.taskNames = ["hello"]) (app : App) :
    s.Accepts ⟨"/", []⟩ (queryText (greetAt "/:id")) (prepared (greetAt "/:id"))
        (greetDocument "/:id") ∧
      ∃ s' app', s.set ⟨"/", []⟩ app (queryText (greetAt "/:id")) =
        (.error (.unknownTask "log_request"), s', app') := by
  have hvalid : ∀ b ∈ greetAt "/:id", Valid s.registry.taskNames b := by
    rw [htasks]
    exact valid_greetAt ⟨by decide, List.all_eq_true.mp (by decide)⟩
  have haccepts : s.Accepts ⟨"/", []⟩ (queryText (greetAt "/:id")) (prepared (greetAt "/:id"))
      (greetDocument "/:id") := accepts_queryText hs _ (greetAt_ne_nil _) hvalid
  have hmissing : s.Missing (prepared (greetAt "/:id")) (greetDocument "/:id")
      ("_colon_id", userDescriptor) "log_request" :=
    { committed := by
        rw [hparams]
        exact List.mem_singleton_self _
      occurs := ⟨Escape.encode "/:id", by simp, by decide⟩
      arg := by simp [userDescriptor]
      unregistered := by simp [htasks] }
  obtain ⟨n, s', app', hset, p, hp⟩ := set_of_missing hs app haccepts
    (fun _ hown => absurd hown List.not_mem_nil) (compiles_greetDocument (by decide +kernel)) hmissing
  have hcommitted := hp.committed
  rw [hparams] at hcommitted
  obtain rfl := List.mem_singleton.mp hcommitted
  obtain rfl : n = "log_request" := List.mem_singleton.mp hp.arg
  exact ⟨haccepts, s', app', hset⟩

/-- The task is missed for the descriptor of the first call, which has not used it. -/
theorem params_usable_unusedParam : ∃ s' app',
    greeting.set ⟨"/", []⟩ {} unusedParam = (.ok (), s', app') ∧
    (∃ s'' app'', s'.set ⟨"/", []⟩ {} (queryText (greetAt "/:id")) =
      (.error (.unknownTask "log_request"), s'', app'')) ∧
    ∃ p ∈ s'.registry.params, "log_request" ∈ p.2.args ∧ ¬Uses (greetDocument "/a") p := by
  obtain ⟨s', app', hset, hs', hparams, htasks⟩ := set_unusedParam {}
  obtain ⟨haccepts, s'', app'', hset'⟩ := set_after_unusedParam hs'.consistent hparams htasks {}
  obtain ⟨query, d, hfirst, -, hlater⟩ := params_usable_of_set reachable_greeting hset .refl
  obtain ⟨rfl, rfl⟩ := accepts_unusedParam.unique hfirst
  have hnames : s'.NamesTasks (prepared (greetAt "/:id")) := fun own hown => absurd hown List.not_mem_nil
  have hother : ¬s'.registry.RefusedByOther ⟨"/", []⟩ (prepared (greetAt "/:id")).descriptors
      (.unknownTask "log_request") := by
    rintro ⟨own, hown, -⟩
    exact absurd hown List.not_mem_nil
  obtain ⟨d₁, -, p, hp, -, harg, -, hunused⟩ :=
    hlater _ _ _ _ _ _ _ hset' haccepts.load hnames hother
  exact ⟨s', app', hset, ⟨s'', app'', hset'⟩, p, hp, harg, hunused hp⟩

/-- A call can leave a descriptor in the table that names no registered task. A later query whose tasks
are all registered, and which has no descriptors, then fails for it. -/
theorem unregistered_after_unusedParam : ∃ s' app',
    greeting.set ⟨"/", []⟩ {} unusedParam = (.ok (), s', app') ∧ s'.Reachable ∧
    (∃ p ∈ s'.registry.params, ∃ n ∈ p.2.args, n ∉ s'.registry.taskNames) ∧
    ∃ query d s'' app'', s'.Accepts ⟨"/", []⟩ (queryText (greetAt "/:id")) query d ∧
      query.descriptors = [] ∧
      s'.set ⟨"/", []⟩ {} (queryText (greetAt "/:id")) =
        (.error (.unknownTask "log_request"), s'', app'') := by
  obtain ⟨s', app', hset, hs', hparams, htasks⟩ := set_unusedParam {}
  obtain ⟨haccepts, s'', app'', hset'⟩ := set_after_unusedParam hs'.consistent hparams htasks {}
  refine ⟨s', app', hset, hs', ?_, _, _, s'', app'', haccepts, rfl, hset'⟩
  rw [hparams, htasks]
  exact ⟨_, List.mem_singleton_self _, "log_request", by simp [userDescriptor], by simp⟩

end

end Site
end RouteQuery
