import RouteQuery.Proofs.Accepting
import RouteQuery.Proofs.ParamChains

/-! Faults that no query meets where the hooks of the library are the only ones, and the queries that
can miss a task. -/
namespace RouteQuery
open Execution

namespace Fault

/-- Faults of registering things, of things registered that do not fit each other, and of an invalid
query without an error. -/
def Internal : Fault → Prop
  | inconsistentSchema _ | invalidName _ _ | wrongTarget _ _ | missingOptions _ | anonymousTask _
  | duplicateTask _ | duplicateDescriptor _ | failedQuery 0 => True
  | _ => False

/-- A fault that is not internal, and not of a task either. -/
structure Plain (fault : Fault) : Prop where
  not_internal : ¬fault.Internal
  not_task : ∀ n, fault ≠ .unknownTask n

end Fault

theorem PathMatcher.plain_of_compile {path : RoutePath} {mode : MatchMode} {fault : Fault}
    (h : compile path mode = .error fault) : fault.Plain := by
  have hpath : ∃ f, fault = .invalidPath path f := by
    unfold compile at h
    split at h
    · split at h
      · cases h
      · exact ⟨_, (Except.error.inj h).symm⟩
    · split at h
      · cases h
      · exact ⟨_, (Except.error.inj h).symm⟩
  obtain ⟨f, rfl⟩ := hpath
  exact ⟨id, by simp⟩

/-! ### Reading a query -/

namespace Descriptor

theorem plain_of_parseLine {line : List Char} {fault : Fault} (h : parseLine line = .error fault) :
    fault.Plain := by
  have hcases : (∃ l, fault = .namelessDescriptor l) ∨ ∃ n, fault = .valuelessDescriptor n := by
    unfold parseLine at h
    extract_lets name tail text at h
    split at h
    · exact .inl ⟨_, (Except.error.inj h).symm⟩
    split at h
    · split at h
      · exact .inr ⟨_, (Except.error.inj h).symm⟩
      · extract_lets value at h
        split at h
        · exact .inr ⟨_, (Except.error.inj h).symm⟩
        · cases h
    · split at h
      · exact .inr ⟨_, (Except.error.inj h).symm⟩
      · cases h
  rcases hcases with ⟨_, rfl⟩ | ⟨_, rfl⟩ <;> exact ⟨id, by simp⟩

end Descriptor

namespace QueryText

theorem plain_of_validate {text : List Char} {fault : Fault} (h : validate text = .error fault) :
    fault.Plain := by
  unfold validate at h
  split at h
  · obtain rfl := Except.error.inj h
    exact ⟨id, by simp⟩
  · cases h

theorem plain_of_extractPaths {text : List Char} {fault : Fault}
    (h : extractPaths text = .error fault) : fault.Plain := by
  rcases error_of_bind h with hvalidate | ⟨_, -, hpaths⟩
  · exact plain_of_validate hvalidate
  · split at hpaths
    · obtain rfl := Except.error.inj hpaths
      exact ⟨id, by simp⟩
    · cases hpaths

end QueryText

theorem Workspace.plain_of_loadQuery {w : Workspace} {source : String} {fault : Fault}
    (h : w.loadQuery source = .error fault) : fault.Plain := by
  have hread : ∀ {path : String}, w.readText path = .error fault → ∃ cause, fault = .unreadableFile cause := by
    intro path hpath
    unfold readText at hpath
    split at hpath
    · split at hpath
      · cases hpath
      · exact ⟨_, (Except.error.inj hpath).symm⟩
    · exact ⟨_, (Except.error.inj hpath).symm⟩
    · exact ⟨_, (Except.error.inj hpath).symm⟩
  unfold loadQuery at h
  split at h
  · cases h
  split at h
  · cases h
  · obtain ⟨cause, rfl⟩ := hread h
    exact ⟨id, by simp⟩

theorem PreparedQuery.plain_of_load {w : Workspace} {source : String} {fault : Fault}
    (h : load w source = .error fault) : fault.Plain := by
  rcases error_of_bind h with hfile | ⟨text, -, h₁⟩
  · exact Workspace.plain_of_loadQuery hfile
  rcases error_of_bind h₁ with hdescriptors | ⟨descriptors, -, h₂⟩
  · obtain ⟨line, -, hline⟩ := error_of_mapM hdescriptors
    exact Descriptor.plain_of_parseLine hline
  rcases error_of_bind h₂ with hnormalize | ⟨normalized, -, h₃⟩
  · rcases error_of_bind hnormalize with hvalidate | ⟨_, -, hok⟩
    · exact QueryText.plain_of_validate hvalidate
    · cases hok
  rcases error_of_bind h₃ with hpaths | ⟨_, -, hok⟩
  · exact QueryText.plain_of_extractPaths hpaths
  · cases hok

/-! ### Hooks of the library -/

namespace Hook

variable {r : Registry} {w : Workspace} {d : Descriptor} {app : App} {c c' : Context} {fault : Fault}

theorem plain_of_options? {α : Type} {scope : HookScope} {name : String} {target : OptionsTarget}
    {default : α} {read? : Json → Option α} (h : scope.options? name target default read? = .error fault) :
    fault.Plain := by
  unfold HookScope.options? at h
  split at h
  · cases h
  split at h
  · cases h
  · obtain rfl := Except.error.inj h
    exact ⟨id, by simp⟩

/-- On an application a hook of the library other than that of parameters has only plain faults, but
for the tasks that the one for all methods looks up. -/
theorem of_onApp_eq_error {name : String} {hook : Hook} (hmem : (name, hook) ∈ builtin)
    (hparam : name ≠ Descriptor.param) (h : hook.onApp (r.scope w) d app c = (.error fault, c')) :
    fault.Plain ∨ name = Descriptor.all ∧ ∃ n ∈ d.args, n ∉ r.taskNames ∧ fault = .unknownTask n := by
  have parser {kind : Http.BodyKind}
      (h : (bodyParser kind).onApp (r.scope w) d app c = (.error fault, c')) : fault.Plain := by
    rcases error_of_bind (Effect.eq_error_of_of h) with hoptions | ⟨options, -, hok⟩
    · exact plain_of_options? hoptions
    · cases hok
  simp only [builtin, List.mem_cons, Prod.mk.injEq, List.not_mem_nil, or_false] at hmem
  rcases hmem with ⟨rfl, rfl⟩ | ⟨rfl, rfl⟩ | ⟨rfl, rfl⟩ | ⟨rfl, rfl⟩ | ⟨rfl, rfl⟩ | ⟨rfl, rfl⟩ | ⟨rfl, rfl⟩
  · exact absurd rfl hparam
  · left
    rcases error_of_bind (Effect.eq_error_of_of h) with hprepare | ⟨⟨mount, directory⟩, -, hserve⟩
    · rcases error_of_bind hprepare with hoptions | ⟨options, -, hargs⟩
      · exact plain_of_options? hoptions
      · split at hargs
        · obtain rfl := Except.error.inj hargs
          exact ⟨id, by simp⟩
        · obtain rfl := Except.error.inj hargs
          exact ⟨id, by simp⟩
        · cases hargs
    · rcases error_of_bind hserve with hcompile | ⟨_, -, hok⟩
      · exact PathMatcher.plain_of_compile hcompile
      · cases hok
  · rcases error_of_bind (Effect.eq_error_of_of h) with hprepare | ⟨⟨path, chain⟩, -, hall⟩
    · rcases error_of_bind hprepare with hchain | ⟨_, -, hok⟩
      · exact .inr ⟨rfl, Registry.of_chain_eq_error hchain⟩
      · cases hok
    · rcases error_of_bind hall with hcompile | ⟨_, -, hok⟩
      · exact .inl (PathMatcher.plain_of_compile hcompile)
      · cases hok
  all_goals exact .inl (parser h)

end Hook

namespace Registry

variable {r : Registry} {w : Workspace} {descriptors : List Descriptor} {fault : Fault}

/-- A hook that is not of the library refuses a descriptor. -/
def RefusedByOther (r : Registry) (w : Workspace) (descriptors : List Descriptor) (fault : Fault) : Prop :=
  ∃ own ∈ descriptors, ∃ hook, r.hook? own.name = some hook ∧ (own.name, hook) ∉ Hook.builtin ∧
    ∃ app c c', hook.onApp (r.scope w) own app c = (.error fault, c')

theorem not_refusedByOther (hbuiltin : r.hooks = Hook.builtin) :
    ¬r.RefusedByOther w descriptors fault := by
  rintro ⟨own, hown, hook, hhook, hother, -⟩
  rw [hook?, hbuiltin] at hhook
  obtain ⟨before, after, hsplit, -⟩ := List.lookup_eq_some_iff.mp hhook
  refine hother ?_
  rw [hsplit]
  simp

theorem DescriptorRefusal.cause (h : r.DescriptorRefusal w descriptors fault) :
    fault.Plain ∨
      (∃ n, fault = .unknownTask n ∧ n ∉ r.taskNames ∧
        ∃ own ∈ descriptors, own.name = Descriptor.all ∧ n ∈ own.args) ∨
      r.RefusedByOther w descriptors fault := by
  cases h with
  | unknown hown hhook => exact .inl ⟨id, by simp⟩
  | @refused own hook app c c' _ hown hname hhook happ =>
    by_cases hbuiltin : (own.name, hook) ∈ Hook.builtin
    · rcases Hook.of_onApp_eq_error hbuiltin hname happ with hplain | ⟨hall, n, hn, hnew, hfault⟩
      · exact .inl hplain
      · exact .inr (.inl ⟨n, hfault, hnew, own, hown, hall, hn⟩)
    · exact .inr (.inr ⟨own, hown, hook, hhook, hbuiltin, app, c, c', happ⟩)

end Registry

namespace Site

variable {s s' : Site} {w : Workspace} {app app' : App} {source : String} {fault : Fault}

/-- An unregistered task for which an accepted query is refused: an argument of a descriptor. -/
structure TaskMissing (s : Site) (w : Workspace) (source : String) (n : String) : Prop where
  unregistered : n ∉ s.registry.taskNames
  named : ∃ query d, s.Accepts w source query d ∧
    ((∃ own ∈ query.descriptors, own.name = Descriptor.all ∧ n ∈ own.args) ∨
      ∃ p, s.Missing query d p n)

/-- Refusals are plain, or for a task that is missing, but for those by hooks that are not of the
library. -/
theorem Refusal.cause (h : s.Refusal w source fault) :
    fault.Plain ∨ (∃ n, fault = .unknownTask n ∧ s.TaskMissing w source n) ∨
      ∃ query, PreparedQuery.load w source = .ok query ∧
        s.registry.RefusedByOther w query.descriptors fault := by
  cases h with
  | unloaded h => exact .inl (PreparedQuery.plain_of_load h)
  | malformed hload hparse => exact .inl ⟨id, by simp⟩
  | unroutable hload hparse hsel hpath more => exact .inl ⟨id, by simp⟩
  | descriptor haccepts h =>
    rcases h.cause with hplain | ⟨n, hfault, hnew, hall⟩ | hother
    · exact .inl hplain
    · exact .inr (.inl ⟨n, hfault, hnew, _, _, haccepts, .inl hall⟩)
    · exact .inr (.inr ⟨_, haccepts.load, hother⟩)
  | unbound haccepts h =>
    exact .inr (.inl ⟨_, rfl, h.unregistered, _, _, haccepts, .inr ⟨_, h⟩⟩)
  | badPath haccepts hid hcompile => exact .inl (PathMatcher.plain_of_compile hcompile)

/-- A query that has no descriptors but those of parameters, and only paths that compile, is refused
for a task if one is missing. -/
theorem set_of_missing {query : PreparedQuery} {d : Document} (hs : s.Consistent) (app : App)
    (haccepts : s.Accepts w source query d)
    (hparams : ∀ own ∈ query.descriptors, own.name = Descriptor.param)
    (hcompiles : ∀ id ∈ fieldNames d.selections, ∃ matcher,
      PathMatcher.compile (RoutePath.ofIdentifier id) .route = .ok matcher)
    {p : String × Descriptor} {n : String} (h : s.Missing query d p n) :
    ∃ n s' app', s.set w app source = (.error (.unknownTask n), s', app') ∧
      ∃ p, s.Missing query d p n := by
  have hrefused : ¬∃ s' app', s.set w app source = (.ok (), s', app') := by
    rw [set_eq_ok_iff hs app haccepts.load hparams haccepts.parse]
    rintro ⟨-, hmounts⟩
    obtain ⟨id, hid, hoccurs⟩ := h.occurs
    exact h.unregistered ((hmounts id hid).bound p h.committed hoccurs n h.arg)
  cases hset : s.set w app source with
  | mk result after =>
    obtain ⟨s', app'⟩ := after
    cases result with
    | ok => exact absurd ⟨s', app', hset⟩ hrefused
    | error fault =>
      rcases (refusal_of_set hs hset).of_accepts hs haccepts hparams with
        ⟨p, n, rfl, hmissing⟩ | ⟨id, hid, hcompile⟩
      · exact ⟨n, s', app', rfl, p, hmissing⟩
      · obtain ⟨matcher, hmatcher⟩ := hcompiles id hid
        exact absurd (hmatcher.symm.trans hcompile) (by simp)

/-- With the hooks of the library alone no query fails for an internal reason. When one fails for a
task, that is an unregistered argument of a descriptor and stands in no selection set. -/
theorem fault_of_set (hs : s.Reachable) (hbuiltin : s.registry.hooks = Hook.builtin)
    (h : s.set w app source = (.error fault, s', app')) :
    ¬fault.Internal ∧ ∀ n, fault = .unknownTask n → n ∉ s.registry.taskNames ∧
      ∃ query d, PreparedQuery.load w source = .ok query ∧ Document.parse query.text = .ok d ∧
        (∀ sel ∈ d.selections, ∀ verb ∈ sel.children, ∀ task ∈ verb.children, task.name ≠ n) ∧
        ((∃ own ∈ query.descriptors, own.name = Descriptor.all ∧ n ∈ own.args) ∨
          ∃ p, s.Missing query d p n) := by
  rcases (refusal_of_set hs.consistent h).cause with
    hplain | ⟨n, rfl, hnew, query, d, haccepts, hcause⟩ | ⟨query, -, hother⟩
  · exact ⟨hplain.not_internal, fun n hn => absurd hn (hplain.not_task n)⟩
  · refine ⟨id, fun m hm => ?_⟩
    obtain rfl := Fault.unknownTask.inj hm
    refine ⟨hnew, query, d, haccepts.load, haccepts.parse, ?_, hcause⟩
    intro sel hsel verb hverb task htask heq
    exact hnew (heq ▸ haccepts.mem_taskNames sel hsel verb hverb task htask)
  · exact absurd hother (Registry.not_refusedByOther hbuiltin)

/-! ### A parameter without its task -/

theorem missing_greeting : greeting.Missing
    ⟨[userDescriptor], userText.toList, ["_slash__colon_id"]⟩ ⟨none, userSelections⟩
    ("_colon_id", userDescriptor) "log_request" where
  committed := List.mem_singleton.mpr rfl
  occurs := ⟨"_slash__colon_id", by simp [userSelections, fieldNames, Selection.name], by decide⟩
  arg := by simp [userDescriptor]
  unregistered := by simp [greeting, setRegistry, Registry.taskNames]

theorem fault_of_set_unregistered :
    (∃ s' app', greeting.set ⟨"/", []⟩ {} userQuery = (.error (.unknownTask "log_request"), s', app')) ∧
      "log_request" ∉ greeting.registry.taskNames := by
  have haccepts : greeting.Accepts ⟨"/", []⟩ userQuery
      ⟨[userDescriptor], userText.toList, ["_slash__colon_id"]⟩ ⟨none, userSelections⟩ := by
    refine ⟨load_userQuery _, parse_userText, ?_⟩
    refine List.forall_mem_singleton.mpr ⟨_, List.mem_singleton.mpr rfl, _, rfl, ?_⟩
    refine List.forall_mem_singleton.mpr ⟨.get, _, rfl, ?_⟩
    exact List.forall_mem_singleton.mpr ⟨_, List.mem_singleton.mpr rfl, rfl⟩
  have hcompiles : (PathMatcher.compile (RoutePath.ofIdentifier "_slash__colon_id") .route).isOk =
      true := by decide +kernel
  obtain ⟨n, s', app', hset, p, hp⟩ := set_of_missing reachable_greeting.consistent {} haccepts
    (List.forall_mem_singleton.mpr rfl)
    (by simpa [userSelections, fieldNames, Selection.name] using exists_of_isOk hcompiles)
    missing_greeting
  obtain rfl : p = ("_colon_id", userDescriptor) := List.mem_singleton.mp hp.committed
  obtain rfl : n = "log_request" := List.mem_singleton.mp hp.arg
  exact ⟨⟨s', app', hset⟩, ((fault_of_set reachable_greeting rfl hset).2 _ rfl).1⟩

end Site
end RouteQuery
