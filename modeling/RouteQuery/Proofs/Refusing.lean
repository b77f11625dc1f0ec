import RouteQuery.Proofs.HistoryIndependence
import RouteQuery.Proofs.ParamTable

/-! Why a query is refused. Each stage has its causes, and with the hooks of the library alone many
faults have none. -/
namespace RouteQuery

namespace Registry

variable {r : Registry} {w : Workspace}

theorem of_chain_eq_error {names : List String} {fault : Fault}
    (h : (r.scope w).chain names = .error fault) :
    ∃ n ∈ names, n ∉ r.taskNames ∧ fault = .unknownTask n := by
  obtain ⟨n, hn, hfault⟩ := error_of_mapM h
  rw [task_scope] at hfault
  split at hfault
  · cases hfault
  · next hnone => exact ⟨n, hn, task?_eq_none_iff.mp hnone, (Except.error.inj hfault).symm⟩

/-! ### Paths that are not mounted -/

/-- What keeps the paths of an answer from being mounted. -/
inductive MountRefusal (r : Registry) (params : List (String × Descriptor))
    (data : List (String × Json)) : Fault → Prop
  | unknownPath {identifier : String} (hmem : identifier ∈ data.map (·.1))
      (hpath : r.path? identifier = none) : MountRefusal r params data (.invalidName .path identifier)
  /-- A parameter of a path stands for a task that there is not. -/
  | unboundTask {identifier n : String} {p : String × Descriptor} (hmem : identifier ∈ data.map (·.1))
      (hp : p ∈ params) (hoccurs : Text.occursIn p.1.toList identifier.toList = true)
      (hn : n ∈ p.2.args) (hnew : n ∉ r.taskNames) : MountRefusal r params data (.unknownTask n)
  | unknownTask {route : PathRoute} {n : String} (hroute : route ∈ routesOf data)
      (hn : n ∈ route.tasks) (hnew : n ∉ r.taskNames) : MountRefusal r params data (.unknownTask n)
  | badPath {identifier : String} {path : RoutePath} {fault : Fault}
      (hmem : identifier ∈ data.map (·.1)) (hpath : r.path? identifier = some path)
      (hcompile : PathMatcher.compile path .route = .error fault) : MountRefusal r params data fault

theorem MountRefusal.cons {params : List (String × Descriptor)} {data : List (String × Json)}
    {fault : Fault} (h : r.MountRefusal params data fault) (entry : String × Json) :
    r.MountRefusal params (entry :: data) fault := by
  cases h with
  | unknownPath hmem hpath => exact .unknownPath (List.mem_cons_of_mem _ hmem) hpath
  | unboundTask hmem hp hoccurs hn hnew =>
    exact .unboundTask (List.mem_cons_of_mem _ hmem) hp hoccurs hn hnew
  | unknownTask hroute hn hnew =>
    refine .unknownTask ?_ hn hnew
    rw [routesOf, List.flatMap_cons]
    exact List.mem_append_right _ hroute
  | badPath hmem hpath hcompile => exact .badPath (List.mem_cons_of_mem _ hmem) hpath hcompile

theorem of_bindParams_eq_error {identifier : String} {params : List (String × Descriptor)}
    {router : PathRouter} {c c' : Context} {fault : Fault}
    (h : r.bindParams w Hook.param identifier params router c = (.error fault, c')) :
    ∃ p ∈ params, Text.occursIn p.1.toList identifier.toList = true ∧
      ∃ n ∈ p.2.args, n ∉ r.taskNames ∧ fault = .unknownTask n := by
  induction params generalizing router c with
  | nil => cases (Prod.mk.inj h).1
  | cons p params ih =>
    obtain ⟨key, d⟩ := p
    rw [bindParams] at h
    by_cases hkey : Text.occursIn key.toList identifier.toList = true
    · rw [if_pos hkey] at h
      rcases Effect.error_of_bind h with hbind | ⟨router₁, c₁, -, hrest⟩
      · have hchain := eq_error_of_map (Effect.eq_error_of_of hbind)
        exact ⟨(key, d), List.mem_cons_self, hkey, of_chain_eq_error hchain⟩
      · obtain ⟨p, hp, hcause⟩ := ih hrest
        exact ⟨p, List.mem_cons_of_mem _ hp, hcause⟩
    · rw [if_neg hkey] at h
      obtain ⟨p, hp, hcause⟩ := ih h
      exact ⟨p, List.mem_cons_of_mem _ hp, hcause⟩

theorem of_addRoutes_eq_error {verbs : List (String × Json)} {router : PathRouter} {fault : Fault}
    (h : r.addRoutes w verbs router = .error fault) :
    ∃ v ∈ verbRoutes verbs, ∃ n ∈ v.2, n ∉ r.taskNames ∧ fault = .unknownTask n := by
  induction verbs generalizing router with
  | nil => cases h
  | cons v verbs ih =>
    obtain ⟨name, tasks⟩ := v
    rw [addRoutes_cons] at h
    rw [verbRoutes_cons]
    cases hroute : verbRoute? name tasks with
    | none =>
      rw [hroute] at h
      exact ih h
    | some v =>
      rw [hroute] at h
      rcases error_of_bind h with hchain | ⟨chain, -, hrest⟩
      · exact ⟨v, List.mem_cons_self, of_chain_eq_error hchain⟩
      · obtain ⟨v', hv', hcause⟩ := ih hrest
        exact ⟨v', List.mem_cons_of_mem _ hv', hcause⟩

/-- Paths that are not mounted have one of these causes. -/
theorem of_mountPaths_eq_error {params : List (String × Descriptor)} {data : List (String × Json)}
    {app : App} {c c' : Context} {fault : Fault}
    (h : r.mountPaths w Hook.param params data app c = (.error fault, c')) :
    r.MountRefusal params data fault := by
  induction data generalizing app c with
  | nil => cases (Prod.mk.inj h).1
  | cons entry rest ih =>
    obtain ⟨identifier, verbs⟩ := entry
    have hmem : identifier ∈ ((identifier, verbs) :: rest).map (·.1) := List.mem_cons_self
    cases hpath : r.path? identifier with
    | none =>
      rw [mountPaths, hpath] at h
      obtain rfl := Effect.eq_of_throw h
      exact .unknownPath hmem hpath
    | some path =>
      rw [mountPaths, hpath] at h
      rcases Effect.error_of_bind h with hbind | ⟨router, c₁, hrouter, h₁⟩
      · obtain ⟨p, hp, hoccurs, n, hn, hnew, rfl⟩ := of_bindParams_eq_error hbind
        exact .unboundTask hmem hp hoccurs hn hnew
      obtain ⟨rfl, -⟩ := of_bindParams_eq_ok hrouter
      cases verbs with
      | obj verbs =>
        rcases Effect.error_of_bind h₁ with hmount | ⟨app₁, c₂, -, h₂⟩
        · rcases error_of_bind (Effect.eq_error_of_of hmount) with hroutes | ⟨router, hrouter, happ⟩
          · obtain ⟨v, hv, n, hn, hnew, rfl⟩ := of_addRoutes_eq_error hroutes
            have hroute : PathRoute.mk identifier v.1 v.2 ∈
                routesOf ((identifier, .obj verbs) :: rest) := by
              rw [routesOf, List.flatMap_cons]
              exact List.mem_append_left _ (List.mem_map_of_mem hv)
            exact .unknownTask hroute hn hnew
          · obtain ⟨rfl, -⟩ := of_addRoutes_eq_ok hrouter
            rcases error_of_bind happ with hcompile | ⟨matcher, -, hpure⟩
            · exact .badPath hmem hpath hcompile
            · cases hpure
        · rcases Effect.error_of_bind h₂ with hrest | ⟨routes, c₃, -, hpure⟩
          · exact (ih hrest).cons _
          · cases (Prod.mk.inj hpure).1
      | _ => exact (ih h₁).cons _

/-! ### Descriptors that are refused -/

/-- What keeps the descriptors of a query from being applied: one of them has no hook, or its hook
refuses it. -/
inductive DescriptorRefusal (r : Registry) (w : Workspace) (descriptors : List Descriptor) :
    Fault → Prop
  | unknown {d : Descriptor} (hd : d ∈ descriptors) (hhook : r.hook? d.name = none) :
      DescriptorRefusal r w descriptors (.unknownDescriptor d.name)
  | refused {d : Descriptor} {hook : Hook} {app : App} {c c' : Context} {fault : Fault}
      (hd : d ∈ descriptors) (hname : d.name ≠ Descriptor.param) (hhook : r.hook? d.name = some hook)
      (happ : hook.onApp (r.scope w) d app c = (.error fault, c')) :
      DescriptorRefusal r w descriptors fault

theorem of_applyDescriptors_eq_error {descriptors : List Descriptor} {app : App}
    {params : List (String × Descriptor)} {c c' : Context} {fault : Fault}
    (h : r.applyDescriptors w descriptors app params c = (.error fault, c')) :
    r.DescriptorRefusal w descriptors fault := by
  have later {d : Descriptor} {rest : List Descriptor} (hrest : r.DescriptorRefusal w rest fault) :
      r.DescriptorRefusal w (d :: rest) fault := by
    cases hrest with
    | unknown hd hhook => exact .unknown (List.mem_cons_of_mem _ hd) hhook
    | refused hd hname hhook happ => exact .refused (List.mem_cons_of_mem _ hd) hname hhook happ
  induction descriptors generalizing app params c with
  | nil => cases (Prod.mk.inj h).1
  | cons d rest ih =>
    rw [applyDescriptors] at h
    split at h
    · exact later (ih h)
    next hname =>
    cases hhook : r.hook? d.name with
    | none =>
      rw [hhook] at h
      obtain rfl := Effect.eq_of_throw h
      exact .unknown List.mem_cons_self hhook
    | some hook =>
      rw [hhook] at h
      rcases Effect.error_of_bind h with happ | ⟨app₁, c₁, -, hrest⟩
      · exact .refused List.mem_cons_self hname hhook happ
      · exact later (ih hrest)

theorem of_materialize_eq_error {data : List (String × Json)} {descriptors : List Descriptor}
    {c c' : Context} {fault : Fault} (hparam : r.hook? Descriptor.param = some Hook.param)
    (h : r.materialize w data descriptors c = (.error fault, c')) :
    r.DescriptorRefusal w descriptors fault ∨
      r.MountRefusal (Descriptor.commit r.params descriptors) data fault := by
  rw [materialize] at h
  rcases Effect.error_of_bind h with happlied | ⟨⟨hooked, params⟩, c₁, happlied, h₁⟩
  · exact .inl (of_applyDescriptors_eq_error happlied)
  · rw [hparam] at h₁
    obtain rfl := params_of_applyDescriptors happlied
    rcases Effect.error_of_bind h₁ with hmount | ⟨routes, c₂, -, hpure⟩
    · exact .inr (of_mountPaths_eq_error hmount)
    · cases (Prod.mk.inj hpure).1

end Registry
end RouteQuery
