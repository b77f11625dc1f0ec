import Mathlib.Data.List.Infix
import Mathlib.Logic.Function.Basic
import RouteQuery.Proofs.BuiltinHooks
import RouteQuery.Proofs.CommittedParams

/-! The table of parameters over any history of calls, and the chains that each call has bound to the
entries of its paths. -/
namespace RouteQuery
open Execution

namespace Descriptor

variable {given : List Descriptor} {params params' : List (String × Descriptor)}

/-- The parameters that descriptors name, in order. -/
def paramNames (given : List Descriptor) : List String := (given.filter (·.name = param)).map (·.value)

/-- The table of all parameter descriptors given so far: one for each parameter, the last one given, in
the place where the parameter came up first. -/
structure IsTable (given : List Descriptor) (params : List (String × Descriptor)) : Prop where
  names : params.map (·.2.value) = (paramNames given).eraseDups
  key : ∀ p ∈ params, p.1 = Escape.colonToken ++ p.2.value
  last : ∀ p ∈ params, p.2.name = param ∧
    ∃ before after, given = before ++ p.2 :: after ∧ p.2.value ∉ paramNames after

theorem paramNames_append_singleton (given : List Descriptor) (d : Descriptor) :
    paramNames (given ++ [d]) = paramNames given ++ if d.name = param then [d.value] else [] := by
  rw [paramNames, List.filter_append, List.map_append, ← paramNames]
  split
  · next hname => rw [List.filter_cons_of_pos (by simpa using hname)]; rfl
  · next hname => rw [List.filter_cons_of_neg (by simpa using hname)]; rfl

theorem isTable_nil : IsTable [] [] := ⟨rfl, by simp, by simp⟩

theorem keys_of_key (h : ∀ p ∈ params, p.1 = Escape.colonToken ++ p.2.value) :
    params.map (·.1) = (params.map (·.2.value)).map (Escape.colonToken ++ ·) := by
  rw [List.map_map]
  exact List.map_congr_left h

theorem colonToken_append_injective : Function.Injective (Escape.colonToken ++ ·) :=
  fun _ _ h => (String.append_right_inj _).mp h

theorem IsTable.keyed (h : IsTable given params) : Keyed params where
  nodup := by
    rw [keys_of_key h.key, h.names]
    exact (nodup_eraseDups _).map colonToken_append_injective
  key := h.key

theorem IsTable.append_param (h : IsTable given params) {d : Descriptor} (hname : d.name = param) :
    IsTable (given ++ [d]) (Json.put params d.paramKey d) where
  names := by
    have hkey : d.paramKey ∈ (paramNames given).eraseDups.map (Escape.colonToken ++ ·) ↔
        d.value ∈ paramNames given :=
      (List.mem_map_of_injective colonToken_append_injective).trans List.mem_eraseDups
    -- The table is looked up by keys, so that the names are compared through them.
    refine List.map_injective_iff.mpr colonToken_append_injective ?_
    rw [← keys_of_key (h.keyed.put d).key, Json.keys_put, keys_of_key h.key, h.names,
      paramNames_append_singleton, if_pos hname, List.eraseDups_append, List.map_append]
    by_cases hseen : d.value ∈ paramNames given
    · rw [if_pos (hkey.mpr hseen)]
      simp [List.removeAll, hseen]
    · rw [if_neg (mt hkey.mp hseen)]
      simp [List.removeAll, hseen, paramKey, List.eraseDups_cons]
  key := (h.keyed.put d).key
  last := by
    intro p hp
    rcases (Json.mem_put_iff h.keyed.nodup).mp hp with rfl | ⟨hp, hne⟩
    · exact ⟨hname, given, [], rfl, by simp [paramNames]⟩
    · obtain ⟨hparam, before, after, rfl, hafter⟩ := h.last p hp
      refine ⟨hparam, before, after ++ [d], by simp, ?_⟩
      rw [paramNames_append_singleton, if_pos hname]
      rw [h.key p hp] at hne
      simpa [hafter] using fun heq => hne (congrArg (Escape.colonToken ++ ·) heq)

theorem IsTable.append_other (h : IsTable given params) {d : Descriptor} (hname : d.name ≠ param) :
    IsTable (given ++ [d]) params where
  names := by rw [paramNames_append_singleton, if_neg hname, List.append_nil, h.names]
  key := h.key
  last := by
    intro p hp
    obtain ⟨hparam, before, after, rfl, hafter⟩ := h.last p hp
    refine ⟨hparam, before, after ++ [d], by simp, ?_⟩
    rwa [paramNames_append_singleton, if_neg hname, List.append_nil]

theorem IsTable.commit (h : IsTable given params) (descriptors : List Descriptor) :
    IsTable (given ++ descriptors) (commit params descriptors) := by
  induction descriptors generalizing given params with
  | nil => rwa [List.append_nil]
  | cons d rest ih =>
    rw [← List.singleton_append, ← List.append_assoc, Descriptor.commit]
    by_cases hname : d.name = param
    · rw [List.singleton_append, List.filter_cons_of_pos (by simpa using hname)]
      exact ih (h.append_param hname)
    · rw [List.singleton_append, List.filter_cons_of_neg (by simpa using hname)]
      exact ih (h.append_other hname)

theorem mem_paramNames {d : Descriptor} (h : d ∈ given) (hname : d.name = param) : d.value ∈ paramNames given :=
  List.mem_map_of_mem (List.mem_filter.mpr ⟨h, by simpa using hname⟩)

/-- There is only one descriptor that is the last one for its parameter. -/
theorem eq_of_last {d d' : Descriptor} {before after before' after' : List Descriptor}
    (h : before ++ d :: after = before' ++ d' :: after') (hname : d.name = param) (hname' : d'.name = param)
    (hvalue : d.value = d'.value) (hlast : d.value ∉ paramNames after) (hlast' : d'.value ∉ paramNames after') :
    d = d' := by
  rcases List.append_eq_append_iff.mp h with ⟨between, -, hrest⟩ | ⟨between, -, hrest⟩
  · cases between with
    | nil => exact (List.cons.inj hrest).1
    | cons d'' between =>
      obtain ⟨-, rfl⟩ := List.cons.inj hrest
      exact absurd (hvalue ▸ mem_paramNames (List.mem_append_right _ List.mem_cons_self) hname') hlast
  · cases between with
    | nil => exact (List.cons.inj hrest).1.symm
    | cons d'' between =>
      obtain ⟨-, rfl⟩ := List.cons.inj hrest
      exact absurd (hvalue ▸ mem_paramNames (List.mem_append_right _ List.mem_cons_self) hname) hlast'

/-- There is only one such table. -/
theorem IsTable.unique (h : IsTable given params) (h' : IsTable given params') : params = params' := by
  have hvalues : params.map (·.2.value) = params'.map (·.2.value) := h.names.trans h'.names.symm
  refine List.ext_getElem (by simpa using congrArg List.length hvalues) fun i hi hi' => ?_
  have hvalue : params[i].2.value = params'[i].2.value := by
    have hat := congrArg (·[i]?) hvalues
    simpa [hi, hi'] using hat
  obtain ⟨hname, before, after, hgiven, hlast⟩ := h.last _ (List.getElem_mem hi)
  obtain ⟨hname', before', after', hgiven', hlast'⟩ := h'.last _ (List.getElem_mem hi')
  have hdescriptor := eq_of_last (hgiven.symm.trans hgiven') hname hname' hvalue hlast hlast'
  exact Prod.ext ((h.key _ (List.getElem_mem hi)).trans (hvalue ▸ (h'.key _ (List.getElem_mem hi')).symm)) hdescriptor

end Descriptor

namespace Registry

variable {r : Registry}

/-- The tasks of these names, in order. -/
def ChainOf (r : Registry) (names : List String) (chain : TaskChain) : Prop :=
  List.Forall₂ (fun name task => r.task? name = some task) names chain

/-- The parameter of a descriptor with the chain of its arguments. -/
structure Binds (r : Registry) (p : String × Descriptor) (binding : ParamBinding) : Prop where
  name : binding.name = p.2.value
  chain : r.ChainOf p.2.args binding.chain

/-- The entry of a verb of a path. It has the chain of its tasks, and a chain for each descriptor in the
table whose key is part of the identifier, in the order of the table. -/
structure RoutesWithParams (r : Registry) (route : PathRoute) (entry : RouteEntry) : Prop where
  matcher : ∃ path, r.path? route.identifier = some path ∧
    PathMatcher.compile path .route = .ok entry.matcher
  method : entry.method = .verb route.verb
  handler : ∃ chain bindings, entry.handler = .tasks chain bindings ∧ r.ChainOf route.tasks chain ∧
    List.Forall₂ r.Binds (r.params.filter fun p => p.1.toList <:+: route.identifier.toList) bindings

theorem chainOf_filterMap {names : List String} (h : ∀ n ∈ names, n ∈ r.taskNames) :
    r.ChainOf names (names.filterMap r.task?) := by
  unfold ChainOf
  induction names with
  | nil => exact .nil
  | cons n names ih =>
    obtain ⟨hn, hnames⟩ := List.forall_mem_cons.mp h
    obtain ⟨task, htask⟩ := exists_task?_iff.mpr hn
    rw [List.filterMap_cons_some htask]
    exact .cons htask (ih hnames)

theorem EntryFor.routesWithParams {route : PathRoute} {entry : RouteEntry}
    (h : r.EntryFor r.params route entry) : r.RoutesWithParams route entry where
  matcher := h.matcher
  method := h.method
  handler := by
    refine ⟨_, _, h.handler, chainOf_filterMap h.tasks, ?_⟩
    have hkeys : (r.params.filter fun p => p.1.toList <:+: route.identifier.toList) =
        r.params.filter fun p => Text.occursIn p.1.toList route.identifier.toList :=
      List.filter_congr fun p _ => by rw [Bool.eq_iff_iff, decide_eq_true_iff, Text.occursIn_iff]
    rw [hkeys, bindings, List.forall₂_map_right_iff, List.forall₂_same]
    intro p hp
    obtain ⟨hmem, hoccurs⟩ := List.mem_filter.mp hp
    exact ⟨rfl, chainOf_filterMap (h.bound p hmem hoccurs)⟩

/-- With one parameter in the table, a route that has its key is bound to that one. -/
theorem RoutesWithParams.binds_only {route : PathRoute} {entry : RouteEntry} (h : r.RoutesWithParams route entry)
    {p : String × Descriptor} (hparams : r.params = [p]) (hpart : p.1.toList <:+: route.identifier.toList) :
    ∃ chain binding, entry.handler = .tasks chain [binding] ∧ r.Binds p binding := by
  obtain ⟨chain, bindings, hhandler, -, hbound⟩ := h.handler
  have hkept : (r.params.filter fun p => p.1.toList <:+: route.identifier.toList) = [p] := by
    rw [hparams]
    exact List.filter_eq_self.mpr (List.forall_mem_singleton.mpr (decide_eq_true hpart))
  rw [hkept] at hbound
  obtain ⟨binding, _, hbinding, hnil, rfl⟩ := List.forall₂_cons_left_iff.mp hbound
  obtain rfl := List.forall₂_nil_left_iff.mp hnil
  exact ⟨chain, binding, hhandler, hbinding⟩

theorem any_of_applyDescriptors {w : Workspace} {descriptors : List Descriptor}
    (hhooks : ∀ own ∈ descriptors, ∀ hook, r.hook? own.name = some hook → hook.AddsAny) {app app' : App}
    {params params' : List (String × Descriptor)} {c c' : Context}
    (h : r.applyDescriptors w descriptors app params c = (.ok (app', params'), c')) :
    ∀ entry ∈ app'.entries, entry ∈ app.entries ∨ entry.method = .any := by
  induction descriptors generalizing app params c with
  | nil =>
    obtain ⟨hpair, -⟩ := Effect.eq_of_pure h
    obtain ⟨rfl, -⟩ := Prod.mk.inj hpair
    exact fun entry hentry => .inl hentry
  | cons d rest ih =>
    obtain ⟨hd, hrest⟩ := List.forall_mem_cons.mp hhooks
    rw [applyDescriptors] at h
    split at h
    · exact ih hrest h
    · cases hhook : r.hook? d.name with
      | none =>
        rw [hhook] at h
        cases h
      | some hook =>
        rw [hhook] at h
        obtain ⟨app₁, c₁, happlied, h₁⟩ := Effect.exists_of_bind h
        intro entry hentry
        rcases ih hrest h₁ entry hentry with hmid | hany
        · exact hd hook hhook _ _ _ _ _ _ happlied entry hmid
        · exact .inr hany

theorem Consistent.addsAny (h : r.Consistent) {name : String} (hname : name ∈ Hook.builtin.map (·.1))
    {hook : Hook} (hhook : r.hook? name = some hook) : hook.AddsAny := by
  cases hbuiltin : Hook.builtin.lookup name with
  | none => exact absurd hname (lookup_eq_none_iff.mp hbuiltin)
  | some own =>
    obtain rfl := Option.some.inj (hhook.symm.trans (h.hook?_builtin hbuiltin))
    obtain ⟨before, after, hsplit, -⟩ := List.lookup_eq_some_iff.mp hbuiltin
    have hmem : (name, hook) ∈ Hook.builtin := hsplit ▸ List.mem_append_right before List.mem_cons_self
    exact Hook.addsAny_of_mem_builtin hmem

end Registry

namespace Site

variable {s s' : Site} {w : Workspace} {app app' : App} {source : String} {query : PreparedQuery}
  {start apps : Nat → App}

/-- A successful call. -/
structure AppliedCall where
  /-- The application that it was for, among those of the program. -/
  target : Nat
  query : PreparedQuery
  /-- The site behind it. -/
  site : Site
  added : List RouteEntry

/-- What a call adds: the entries of its hooks, and one for each route that its document asks for. -/
structure AppliedCall.Adds (call : AppliedCall) (d : Document) (hooked routed : List RouteEntry) : Prop where
  parse : Document.parse call.query.text = .ok d
  added : call.added = hooked ++ routed
  hooked : (∀ own ∈ call.query.descriptors, own.name ∈ Hook.builtin.map (·.1)) →
    ∀ entry ∈ hooked, entry.method = .any
  routed : List.Forall₂ call.site.registry.RoutesWithParams
    (routesOf (Selection.pathAnswers d.selections)) routed

/-- The descriptors of all successful calls, in order. -/
def given (calls : List AppliedCall) : List Descriptor := calls.flatMap (·.query.descriptors)

theorem given_eq (calls : List AppliedCall) :
    given calls = (calls.map AppliedCall.query).flatMap PreparedQuery.descriptors := by
  rw [given, List.flatMap_map]

/-- The calls on one site, each for one of the applications of a program, with anything else that can be
done with the site between them. The successful ones are told in order. -/
inductive History (start : Nat → App) : List AppliedCall → Site → (Nat → App) → Prop
  | new (context : Context) : History start [] { context } start
  | registers {calls : List AppliedCall} {s s' : Site} {apps : Nat → App} (h : History start calls s apps)
      (hregisters : Registers s s') : History start calls s' apps
  | failed {calls : List AppliedCall} {s s' : Site} {apps : Nat → App} (h : History start calls s apps)
      {w : Workspace} (target : Nat) {source : String} {fault : Fault} {app' : App}
      (hset : s.set w (apps target) source = (.error fault, s', app')) :
      History start calls s' (Function.update apps target app')
  | applied {calls : List AppliedCall} {s s' : Site} {apps : Nat → App} (h : History start calls s apps)
      {w : Workspace} (target : Nat) {source : String} {query : PreparedQuery} {app' : App}
      (hload : PreparedQuery.load w source = .ok query)
      (hset : s.set w (apps target) source = (.ok (), s', app')) :
      History start (calls ++ [⟨target, query, s', app'.entries.drop (apps target).entries.length⟩]) s'
        (Function.update apps target app')

theorem History.reachable {calls : List AppliedCall} (h : History start calls s apps) : s.Reachable := by
  induction h with
  | new context => exact .new context
  | registers _ hregisters ih => exact ih.step hregisters.step
  | failed _ target hset ih => exact ih.of_set hset
  | applied _ target _ hset ih => exact ih.of_set hset

/-- What one successful call does. -/
theorem adds_of_set (hs : s.Reachable) (hload : PreparedQuery.load w source = .ok query)
    (hset : s.set w app source = (.ok (), s', app')) (target : Nat) :
    s'.registry.params = Descriptor.commit s.registry.params query.descriptors ∧
    ∃ d hooked routed, app'.entries = app.entries ++ (hooked ++ routed) ∧
      (AppliedCall.mk target query s' (hooked ++ routed)).Adds d hooked routed := by
  have hs' := (hs.of_set hset).consistent
  obtain ⟨_, data, routes, happlies⟩ := of_set_eq_ok hset
  obtain rfl := Except.ok.inj (hload.symm.trans happlies.load)
  obtain ⟨d, hparse, -, rfl⟩ := of_answer_eq_ok hs' happlies.answer
  obtain ⟨added, -, -, hregistry⟩ := happlies.registry
  have hparams : s'.registry.params = routes.params := by rw [hregistry]
  obtain ⟨hooked, routed, c₁, happlied, happ, hrouted⟩ :=
    Registry.of_materialize_eq_ok (r := { s'.registry with params := s.registry.params })
      (hook?_param hs') happlies.made
  refine ⟨hparams.trans (Registry.params_of_applyDescriptors happlied), d, hooked.entries, routed, ?_, ?_⟩
  · rw [happlies.app_eq, happ]
    rfl
  · refine ⟨hparse, rfl, fun hbuiltin entry hentry => ?_, ?_⟩
    · have hhooks : ∀ own ∈ query.descriptors, ∀ hook,
          Registry.hook? { s'.registry with params := s.registry.params } own.name = some hook → hook.AddsAny :=
        fun own hown hook hhook => hs'.registry.addsAny (hbuiltin own hown) hhook
      exact (Registry.any_of_applyDescriptors hhooks happlied entry hentry).resolve_left List.not_mem_nil
    · refine hrouted.imp fun route entry hentry => Registry.EntryFor.routesWithParams ?_
      rw [hparams]
      exact ⟨hentry.matcher, hentry.method, hentry.handler, hentry.tasks, hentry.bound⟩

theorem forall_split_append_singleton {P : List AppliedCall → AppliedCall → Prop} {calls : List AppliedCall}
    {latest : AppliedCall}
    (h : ∀ before call after, calls = before ++ call :: after → P before call) (hlatest : P calls latest) :
    ∀ before call after, calls ++ [latest] = before ++ call :: after → P before call := by
  intro before call after hsplit
  rcases List.eq_nil_or_concat after with rfl | ⟨after, last, rfl⟩
  · obtain ⟨rfl, hcall⟩ := List.append_inj' hsplit rfl
    obtain rfl := List.singleton_inj.mp hcall
    exact hlatest
  · rw [List.concat_eq_append, ← List.cons_append, ← List.append_assoc] at hsplit
    exact h before call after (List.append_inj' hsplit rfl).1

/-- The entries of a call stand behind those of the earlier calls for the same application. -/
theorem entries_update {calls : List AppliedCall} (call : AppliedCall) (hentries : ∀ i, (apps i).entries =
      (start i).entries ++ (calls.filter (·.target = i)).flatMap (·.added))
    (happ : app'.entries = (apps call.target).entries ++ call.added) (i : Nat) :
    (Function.update apps call.target app' i).entries =
      (start i).entries ++ ((calls ++ [call]).filter (·.target = i)).flatMap (·.added) := by
  rw [List.filter_append, List.flatMap_append, ← List.append_assoc, ← hentries]
  by_cases hi : call.target = i
  · subst hi
    rw [Function.update_self, happ, List.filter_cons_of_pos (by simp), List.filter_nil, List.flatMap_singleton]
  · rw [Function.update_of_ne (Ne.symm hi), List.filter_cons_of_neg (by simpa using hi), List.filter_nil,
      List.flatMap_nil, List.append_nil]

/-- After any history the table holds the parameter descriptors of the successful calls, one for each
parameter and the last one given, where the parameter came up first. Each call has bound what the table
held with it, and the entries of a call stay as they are. -/
theorem History.binds_table {calls : List AppliedCall} (h : History start calls s apps) :
    Descriptor.IsTable (given calls) s.registry.params ∧
    (∀ before call after, calls = before ++ call :: after →
      Descriptor.IsTable (given (before ++ [call])) call.site.registry.params ∧
      ∃ d hooked routed, call.Adds d hooked routed) ∧
    ∀ i, (apps i).entries = (start i).entries ++ (calls.filter (·.target = i)).flatMap (·.added) := by
  induction h with
  | new context => exact ⟨Descriptor.isTable_nil, by simp, by simp⟩
  | registers _ hregisters ih =>
    obtain ⟨htable, hcalls, hentries⟩ := ih
    exact ⟨hregisters.params ▸ htable, hcalls, hentries⟩
  | failed _ target hset ih =>
    obtain ⟨htable, hcalls, hentries⟩ := ih
    obtain ⟨hparams, rfl⟩ := kept_of_set hset
    rw [Function.update_eq_self]
    exact ⟨hparams ▸ htable, hcalls, hentries⟩
  | @applied calls s s' apps hhistory w target source query app' hload hset ih =>
    obtain ⟨htable, hcalls, hentries⟩ := ih
    obtain ⟨hparams, d, hooked, routed, happ, hadds⟩ := adds_of_set hhistory.reachable hload hset target
    have hadded : app'.entries.drop (apps target).entries.length = hooked ++ routed := by
      rw [happ, List.drop_left]
    have htable' : Descriptor.IsTable (given calls ++ query.descriptors) s'.registry.params :=
      hparams ▸ htable.commit query.descriptors
    have hgiven : given (calls ++ [⟨target, query, s', hooked ++ routed⟩]) = given calls ++ query.descriptors := by
      rw [given, List.flatMap_append, List.flatMap_singleton, ← given]
    rw [hadded]
    refine ⟨hgiven ▸ htable', forall_split_append_singleton hcalls ⟨hgiven ▸ htable', ?_⟩, ?_⟩
    · exact ⟨d, hooked, routed, hadds⟩
    · exact entries_update ⟨target, query, s', hooked ++ routed⟩ hentries happ

/-! ### A parameter that is redefined -/

section
open RouteBlock

/-- A new descriptor for the parameter, with a path that has it. -/
def redefinedParam : String := "@" ++ "param id: hello -> hello" ++ "\n" ++ queryText (greetAt "/:id")

def greetedTwice : Descriptor := ⟨"param", "id", ["hello", "hello"]⟩

def redefinedParamQuery : PreparedQuery :=
  { prepared (greetAt "/:id") with
    descriptors := [greetedTwice]
    text := '\n' :: (prepared (greetAt "/:id")).text }

/-- The parameter is given anew where the site still has the descriptor of an earlier call. -/
theorem set_redefinedParam {s : Site} (hs : s.Consistent)
    (hparams : s.registry.params = [("_colon_id", userDescriptor)])
    (htasks : s.registry.taskNames = ["hello"]) (app : App) :
    s.Accepts ⟨"/", []⟩ redefinedParam redefinedParamQuery (greetDocument "/:id") ∧
      ∃ s' app', s.set ⟨"/", []⟩ app redefinedParam = (.ok (), s', app') := by
  have hvalid : ∀ b ∈ greetAt "/:id", Valid s.registry.taskNames b := by
    rw [htasks]
    exact valid_greetAt ⟨by decide, List.all_eq_true.mp (by decide)⟩
  have hparse : Descriptor.parseLine ('@' :: "param id: hello -> hello".toList) = .ok greetedTwice := rfl
  have haccepts : s.Accepts ⟨"/", []⟩ redefinedParam redefinedParamQuery (greetDocument "/:id") :=
    accepts_annotated hs _ (greetAt_ne_nil _) hvalid (by simp) (by simp) hparse
  have htable : Descriptor.commit s.registry.params [greetedTwice] = [("_colon_id", greetedTwice)] := by
    rw [hparams]
    rfl
  have hmounts : ∀ id ∈ fieldNames (greetDocument "/:id").selections,
      s.registry.Mounts (Descriptor.commit s.registry.params redefinedParamQuery.descriptors) id := by
    refine fun id hid => ⟨compiles_greetDocument (by decide +kernel) id hid, ?_⟩
    rw [redefinedParamQuery, htable]
    refine List.forall_mem_singleton.mpr fun _ n hn => ?_
    rw [htasks]
    simpa [greetedTwice] using hn
  exact ⟨haccepts, (set_eq_ok_iff hs app haccepts.load (List.forall_mem_singleton.mpr rfl) haccepts.parse).mpr
    ⟨haccepts.paths, hmounts⟩⟩

/-- A call that is refused for the first descriptor stands between the two. -/
theorem exists_redefining : ∃ calls s apps, History (fun _ => {}) calls s apps ∧
    s.registry.taskNames = ["hello"] ∧ s.registry.params = [("_colon_id", userDescriptor)] ∧
    calls.map (·.query) = [unusedParamQuery] := by
  have hadd : addTask {} { name := "hello", handler := StockTasks.hello } = .ok greeting := rfl
  have hgreeting : History (fun _ => {}) [] greeting fun _ => {} := .registers (.new .empty) (.addTask hadd)
  obtain ⟨s', app', hset, hs', hparams, htasks⟩ := set_unusedParam {}
  obtain ⟨-, s'', app'', hset'⟩ := set_after_unusedParam hs'.consistent hparams htasks {}
  have hcalled := hgreeting.applied 0 accepts_unusedParam.load hset
  have hfailed := hcalled.failed 1 hset'
  have hkept := (set_cases s' ⟨"/", []⟩ {} (queryText (greetAt "/:id"))).1
  rw [hset'] at hkept
  exact ⟨_, s'', _, hfailed, (congrArg (List.map Task.name) hkept).trans htasks,
    (kept_of_set hset').1.trans hparams, rfl⟩

/-- The later descriptor has taken the place of the first one, and its chain runs the task twice. -/
theorem binds_redefined : ∃ calls s apps, History (fun _ => {}) calls s apps ∧
    calls.map (·.query) = [unusedParamQuery, redefinedParamQuery] ∧
    s.registry.params = [("_colon_id", greetedTwice)] ∧
    ∃ entry ∈ (apps 0).entries, ∃ chain binding, entry.handler = .tasks chain [binding] ∧
      binding.name = "id" ∧ s.registry.ChainOf ["hello", "hello"] binding.chain := by
  obtain ⟨calls, s, apps, hhistory, htasks, hparams, hcalls⟩ := exists_redefining
  obtain ⟨haccepts, s', app', hset⟩ :=
    set_redefinedParam hhistory.reachable.consistent hparams htasks (apps 0)
  have hhistory' := hhistory.applied 0 haccepts.load hset
  obtain ⟨htable, hbinds, hentries⟩ := hhistory'.binds_table
  let call : AppliedCall := ⟨0, redefinedParamQuery, s', app'.entries.drop (apps 0).entries.length⟩
  have hqueries : (calls ++ [call]).map (·.query) = [unusedParamQuery, redefinedParamQuery] := by
    rw [List.map_append, hcalls]
    rfl
  rw [given_eq, hqueries] at htable
  have hlast : Descriptor.IsTable [userDescriptor, greetedTwice] [("_colon_id", greetedTwice)] :=
    ⟨by decide, List.forall_mem_singleton.mpr (by decide),
      List.forall_mem_singleton.mpr ⟨rfl, [userDescriptor], [], rfl, by decide⟩⟩
  have hnow : s'.registry.params = [("_colon_id", greetedTwice)] := htable.unique hlast
  obtain ⟨-, d, hooked, routed, hadds⟩ := hbinds calls _ [] rfl
  obtain rfl := Except.ok.inj (haccepts.parse.symm.trans hadds.parse)
  have hrouted := hadds.routed
  rw [routesOf_greetDocument ⟨by decide, List.all_eq_true.mp (by decide)⟩] at hrouted
  obtain ⟨entry, rest, hentry, -, rfl⟩ := List.forall₂_cons_left_iff.mp hrouted
  have hpart : "_colon_id".toList <:+: (Escape.encode "/:id").toList := Text.occursIn_iff.mp (by decide)
  obtain ⟨chain, binding, hhandler, hbinding⟩ := hentry.binds_only hnow hpart
  have hmem : entry ∈ (Function.update apps 0 app' 0).entries := by
    rw [hentries 0]
    refine List.mem_append_right _ (List.mem_flatMap.mpr ⟨_, List.mem_filter.mpr
      ⟨List.mem_append_right _ List.mem_cons_self, by simp⟩, ?_⟩)
    rw [hadds.added]
    exact List.mem_append_right _ List.mem_cons_self
  exact ⟨_, s', _, hhistory', hqueries, hnow, entry, hmem, chain, binding, hhandler, hbinding.name, hbinding.chain⟩

end

end Site
end RouteQuery
