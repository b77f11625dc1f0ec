import RouteQuery.Proofs.Materializing

/-! The table of parameter descriptors: one for each parameter, under the key of its name. -/
namespace RouteQuery

namespace Json

variable {α : Type}

theorem keys_put (members : List (String × α)) (key : String) (value : α) :
    (put members key value).map (·.1) =
      if key ∈ members.map (·.1) then members.map (·.1) else members.map (·.1) ++ [key] := by
  induction members with
  | nil => rfl
  | cons member members ih =>
    obtain ⟨k, v⟩ := member
    rw [put]
    by_cases hk : k = key
    · simp [hk]
    · rw [if_neg hk, List.map_cons, ih]
      by_cases hmem : key ∈ members.map (·.1) <;> simp [hmem, Ne.symm hk]

theorem eq_or_mem_of_mem_put {members : List (String × α)} {key : String} {value : α}
    {member : String × α} (h : member ∈ put members key value) :
    member = (key, value) ∨ member ∈ members := by
  induction members with
  | nil => exact .inl (List.mem_singleton.mp h)
  | cons other members ih =>
    obtain ⟨k, v⟩ := other
    rw [put] at h
    split at h
    · rcases List.mem_cons.mp h with rfl | h
      · exact .inl rfl
      · exact .inr (List.mem_cons_of_mem _ h)
    · rcases List.mem_cons.mp h with rfl | h
      · exact .inr List.mem_cons_self
      · exact (ih h).imp_right (List.mem_cons_of_mem _)

/-- What is put under a key replaces what was there. -/
theorem mem_put_iff {members : List (String × α)} (h : (members.map (·.1)).Nodup) {key : String} {value : α}
    {member : String × α} :
    member ∈ put members key value ↔ member = (key, value) ∨ member ∈ members ∧ member.1 ≠ key := by
  induction members with
  | nil => simp [put]
  | cons other members ih =>
    obtain ⟨k, v⟩ := other
    obtain ⟨hk, hnodup⟩ := List.nodup_cons.mp h
    rw [put]
    split
    · next hkey =>
      subst hkey
      have hother : ∀ member ∈ members, member.1 ≠ k := fun member hmem =>
        ne_of_mem_of_not_mem (List.mem_map_of_mem hmem) hk
      simp only [List.mem_cons]
      constructor
      · rintro (rfl | hmem)
        · exact .inl rfl
        · exact .inr ⟨.inr hmem, hother member hmem⟩
      · rintro (rfl | ⟨rfl | hmem, hne⟩)
        · exact .inl rfl
        · exact absurd rfl hne
        · exact .inr hmem
    · next hkey =>
      rw [List.mem_cons, ih hnodup, List.mem_cons]
      constructor
      · rintro (rfl | rfl | ⟨hmem, hne⟩)
        · exact .inr ⟨.inl rfl, hkey⟩
        · exact .inl rfl
        · exact .inr ⟨.inr hmem, hne⟩
      · rintro (rfl | ⟨rfl | hmem, hne⟩)
        · exact .inr (.inl rfl)
        · exact .inl rfl
        · exact .inr (.inr ⟨hmem, hne⟩)

/-- Where keys are distinct, a key has at most one entry, the one that is looked up. -/
theorem filter_key {members : List (String × α)} (h : (members.map (·.1)).Nodup) (key : String) :
    members.filter (·.1 == key) = (members.lookup key).toList.map (key, ·) := by
  induction members with
  | nil => rfl
  | cons member members ih =>
    obtain ⟨k, v⟩ := member
    obtain ⟨hk, hnodup⟩ := List.nodup_cons.mp h
    have hrest := ih hnodup
    by_cases hkey : k = key
    · subst hkey
      rw [Registry.lookup_eq_none_iff.mpr hk] at hrest
      simp [hrest]
    · simp [hkey, hrest, List.lookup_cons, beq_false_of_ne (Ne.symm hkey)]

end Json

namespace Descriptor

/-- A table of parameter descriptors in which no parameter has two, and each can be found. -/
structure Keyed (params : List (String × Descriptor)) : Prop where
  nodup : (params.map (·.1)).Nodup
  key : ∀ p ∈ params, p.1 = p.2.paramKey

/-- The table with the parameter descriptors among those of a query. -/
def commit (params : List (String × Descriptor)) (descriptors : List Descriptor) :
    List (String × Descriptor) :=
  (descriptors.filter (·.name = param)).foldl (fun params d => Json.put params d.paramKey d) params

theorem keyed_nil : Keyed [] := ⟨List.nodup_nil, by simp⟩

theorem Keyed.put {params : List (String × Descriptor)} (h : Keyed params) (d : Descriptor) :
    Keyed (Json.put params d.paramKey d) where
  nodup := by
    rw [Json.keys_put]
    split
    · exact h.nodup
    · next hnew =>
      rw [List.nodup_append']
      exact ⟨h.nodup, List.nodup_singleton _, by simpa using hnew⟩
  key := by
    intro p hp
    rcases Json.eq_or_mem_of_mem_put hp with rfl | hp
    · rfl
    · exact h.key p hp

theorem Keyed.commit {params : List (String × Descriptor)} (h : Keyed params)
    (descriptors : List Descriptor) : Keyed (commit params descriptors) := by
  unfold Descriptor.commit
  induction descriptors.filter (·.name = param) generalizing params with
  | nil => exact h
  | cons d rest ih => exact ih (h.put d)

theorem paramKey_eq_iff {d : Descriptor} {name : String} :
    d.paramKey = Escape.colonToken ++ name ↔ d.value = name := by
  rw [paramKey, ← String.toList_inj, String.toList_append, String.toList_append,
    List.append_cancel_left_eq, String.toList_inj]

/-- The descriptors for one parameter: the one under its key, if any. -/
theorem Keyed.filter_value {params : List (String × Descriptor)} (h : Keyed params)
    (name : String) : params.filter (·.2.value == name) =
      (params.lookup (Escape.colonToken ++ name)).toList.map (Escape.colonToken ++ name, ·) := by
  rw [← Json.filter_key h.nodup]
  refine List.filter_congr fun p hp => ?_
  rw [Bool.eq_iff_iff, beq_iff_eq, beq_iff_eq, h.key p hp, paramKey_eq_iff]

end Descriptor

namespace Registry

variable {r : Registry} {w : Workspace}

theorem params_of_applyDescriptors {descriptors : List Descriptor} {app app' : App}
    {params params' : List (String × Descriptor)} {c c' : Context}
    (h : r.applyDescriptors w descriptors app params c = (.ok (app', params'), c')) :
    params' = Descriptor.commit params descriptors := by
  induction descriptors generalizing app params c with
  | nil =>
    obtain ⟨hpair, -⟩ := Effect.eq_of_pure h
    exact (Prod.mk.inj hpair).2.symm
  | cons d rest ih =>
    rw [applyDescriptors] at h
    split at h
    · next hname =>
      rw [ih h, Descriptor.commit, Descriptor.commit, List.filter_cons_of_pos (by simpa using hname)]
      rfl
    · next hname =>
      rw [Descriptor.commit, List.filter_cons_of_neg (by simpa using hname), ← Descriptor.commit]
      cases hhook : r.hook? d.name with
      | none =>
        rw [hhook] at h
        cases h
      | some hook =>
        rw [hhook] at h
        obtain ⟨app₁, c₁, -, h₁⟩ := Effect.exists_of_bind h
        exact ih h₁

/-- Parameter descriptors do nothing to an application. -/
theorem app_of_applyDescriptors {descriptors : List Descriptor} {app app' : App}
    {params params' : List (String × Descriptor)} {c c' : Context}
    (hparams : ∀ own ∈ descriptors, own.name = Descriptor.param)
    (h : r.applyDescriptors w descriptors app params c = (.ok (app', params'), c')) : app' = app := by
  induction descriptors generalizing params with
  | nil =>
    obtain ⟨hpair, -⟩ := Effect.eq_of_pure h
    exact (Prod.mk.inj hpair).1.symm
  | cons d rest ih =>
    rw [List.forall_mem_cons] at hparams
    rw [applyDescriptors, if_pos hparams.1] at h
    exact ih hparams.2 h

end Registry

namespace Site

theorem hook?_param {s : Site} (h : s.Consistent) :
    s.registry.hook? Descriptor.param = some Hook.param := h.registry.hook?_builtin rfl

/-- The entries of a query that is applied: those of its hooks, then one for each route that its
answer asks for. -/
theorem AppliesAs.entries {s s' : Site} {w : Workspace} {app app' : App} {source : String}
    {query : PreparedQuery} {data : List (String × Json)} {routes : Materialized}
    (h : s.AppliesAs w app source s' app' query data routes) (hs' : s'.Consistent) :
    s'.registry.params = Descriptor.commit s.registry.params query.descriptors ∧
    ∃ hooked routed, app'.entries = app.entries ++ hooked ++ routed ∧
      List.Forall₂ (s'.registry.EntryFor s'.registry.params) (routesOf data) routed := by
  obtain ⟨added, -, -, hregistry⟩ := h.registry
  have hparams : s'.registry.params = routes.params := by rw [hregistry]
  obtain ⟨hooked, routed, c₁, happlied, happ, hrouted⟩ :=
    Registry.of_materialize_eq_ok (r := { s'.registry with params := s.registry.params })
      (hook?_param hs') h.made
  refine ⟨hparams.trans (Registry.params_of_applyDescriptors happlied), hooked.entries, routed, ?_, ?_⟩
  · rw [h.app_eq, happ]
    exact (List.append_assoc ..).symm
  · rw [hparams]
    exact hrouted.imp fun _ _ hentry =>
      ⟨hentry.matcher, hentry.method, hentry.handler, hentry.tasks, hentry.bound⟩

/-- A query that fails leaves the table and the application as they are. -/
theorem kept_of_set {s s' : Site} {w : Workspace} {app app' : App} {source : String} {fault : Fault}
    (h : s.set w app source = (.error fault, s', app')) :
    s'.registry.params = s.registry.params ∧ app' = app := by
  cases hload : PreparedQuery.load w source with
  | error fault =>
    rw [set_of_load_error hload] at h
    cases h
    exact ⟨rfl, rfl⟩
  | ok query =>
    obtain ⟨added, -, -, happly⟩ := set_of_load hload s app
    rw [happly] at h
    rcases applyQuery_cases (s.setRegistry (s.registry.withPaths added)) w query app with
      ⟨_, _, hs⟩ | ⟨_, _, hs⟩
    · rw [hs] at h
      cases h
      exact ⟨rfl, rfl⟩
    · rw [hs] at h
      cases h

/-- A query commits its parameter descriptors or leaves the table as it is. -/
theorem params_of_set {s : Site} (h : s.Consistent) (w : Workspace) (app : App) (source : String) :
    (s.set w app source).2.1.registry.params = s.registry.params ∨
      ∃ descriptors, (s.set w app source).2.1.registry.params =
        Descriptor.commit s.registry.params descriptors := by
  cases hset : s.set w app source with
  | mk result after =>
    obtain ⟨s', app'⟩ := after
    cases result with
    | ok =>
      obtain ⟨query, data, routes, happlies⟩ := of_set_eq_ok hset
      exact .inr ⟨query.descriptors, (happlies.entries (h.of_set hset)).1⟩
    | error fault => exact .inl (kept_of_set hset).1

theorem params_of_addTask {s s' : Site} {task : Task} (h : s.addTask task = .ok s') :
    s'.registry.params = s.registry.params := by
  obtain ⟨registry, hregistry, rfl⟩ := Site.of_addTask h
  obtain ⟨-, rfl⟩ := Registry.addTask_eq_ok hregistry
  rfl

theorem params_of_addTasks (s : Site) (tasks : List Task) :
    (s.addTasks tasks).2.registry.params = s.registry.params := by
  induction tasks generalizing s with
  | nil => rfl
  | cons task rest ih =>
    rw [addTasks_cons]
    split
    · next s' hadd => exact (ih s').trans (params_of_addTask hadd)
    · rfl

/-- What a program can do with a site but for its queries. -/
inductive Registers : Site → Site → Prop
  | addTask {s s' : Site} {task : Task} (h : s.addTask task = .ok s') : Registers s s'
  | addNamedTask {s s' : Site} {name : String}
      {handler : Http.Request → Next → Action Http.Response}
      (h : s.addNamedTask name handler = .ok s') : Registers s s'
  | addStockTasks (s : Site) (newId : StockTasks.IdSource) : Registers s (s.addStockTasks newId).2
  | addOptions {s s' : Site} {name : String} {options : Json} (h : s.addOptions name options = .ok s') :
      Registers s s'
  | addHook {s s' : Site} {name : String} {hook : Hook} (h : s.addHook name hook = .ok s') :
      Registers s s'
  | share (s : Site) (context : Context) : Registers s { s with context }

theorem Registers.step {s s' : Site} (h : Registers s s') : Step s s' := by
  cases h with
  | addTask h => exact .addTask h
  | addNamedTask h => exact .addNamedTask h
  | addStockTasks newId => exact .addStockTasks s newId
  | addOptions h => exact .addOptions h
  | addHook h => exact .addHook h
  | share context => exact .share s context

theorem registers_or_set_of_step {s s' : Site} (h : Step s s') :
    Registers s s' ∨ ∃ w app source, s' = (s.set w app source).2.1 := by
  cases h with
  | addTask h => exact .inl (.addTask h)
  | addNamedTask h => exact .inl (.addNamedTask h)
  | addStockTasks newId => exact .inl (.addStockTasks s newId)
  | addOptions h => exact .inl (.addOptions h)
  | addHook h => exact .inl (.addHook h)
  | set w app source => exact .inr ⟨w, app, source, rfl⟩
  | share context => exact .inl (.share s context)

/-- Only queries write to the table of parameters. -/
theorem Registers.params {s s' : Site} (h : Registers s s') : s'.registry.params = s.registry.params := by
  cases h with
  | addTask hadd => exact params_of_addTask hadd
  | addNamedTask hadd =>
    obtain ⟨task, -, hadd⟩ := exists_of_bind_eq_ok hadd
    exact params_of_addTask hadd
  | addStockTasks => exact params_of_addTasks s _
  | addOptions hadd =>
    obtain ⟨registry, hregistry, rfl⟩ := Site.of_addOptions hadd
    obtain ⟨-, -, rfl⟩ := Registry.addOptions_eq_ok hregistry
    rfl
  | addHook hadd =>
    obtain ⟨registry, hregistry, rfl⟩ := Site.of_addHook hadd
    obtain ⟨-, -, rfl⟩ := Registry.addHook_eq_ok hregistry
    rfl
  | share context => rfl

theorem params_of_step {s s' : Site} (h : s.Consistent) (hstep : Step s s') :
    s'.registry.params = s.registry.params ∨
      ∃ descriptors, s'.registry.params = Descriptor.commit s.registry.params descriptors := by
  rcases registers_or_set_of_step hstep with hregisters | ⟨w, app, source, rfl⟩
  · exact .inl hregisters.params
  · exact params_of_set h w app source

theorem Reachable.keyed {s : Site} (h : s.Reachable) : Descriptor.Keyed s.registry.params := by
  induction h with
  | new context => exact Descriptor.keyed_nil
  | step hs hstep ih =>
    rcases params_of_step hs.consistent hstep with hparams | ⟨descriptors, hparams⟩
    · rw [hparams]
      exact ih
    · rw [hparams]
      exact ih.commit descriptors

end Site
end RouteQuery
