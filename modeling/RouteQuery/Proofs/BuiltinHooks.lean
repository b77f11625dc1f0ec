import RouteQuery.Proofs.Outcomes

/-! What the hooks that come with the library depend on: tasks and options by name, and never the
shared context. What they add to an application is for requests of any method. -/
namespace RouteQuery

/-- Scopes in which the same names lead to the same things. -/
structure HookScope.Agrees (s s' : HookScope) : Prop where
  workspace : s.workspace = s'.workspace
  tasks : ∀ name, s.tasks.find? (·.name == name) = s'.tasks.find? (·.name == name)
  options : ∀ name, s.options.lookup name = s'.options.lookup name

namespace HookScope.Agrees

variable {s s' : HookScope}

theorem task_eq (h : s.Agrees s') : s.task = s'.task := by
  funext name
  rw [task, task, h.tasks]

theorem chain_eq (h : s.Agrees s') : s.chain = s'.chain := by
  funext names
  rw [chain, chain, h.task_eq]

theorem options?_eq {α : Type} (h : s.Agrees s') (name : String) (target : OptionsTarget) (default : α)
    (read? : Json → Option α) : s.options? name target default read? = s'.options? name target default read? := by
  rw [options?, options?, h.options]

end HookScope.Agrees

/-- An effect that neither reads nor changes the shared context. -/
def Effect.ContextFree {α : Type} (e : Effect α) : Prop := ∃ result, e = Change.of result

namespace Effect

variable {α β : Type}

theorem contextFree_of (result : Except Fault α) : ContextFree (.of result) := ⟨result, rfl⟩

theorem contextFree_pure (a : α) : ContextFree (pure a : Effect α) := ⟨.ok a, rfl⟩

theorem contextFree_throw (fault : Fault) : ContextFree (throw fault : Effect α) := ⟨.error fault, rfl⟩

theorem contextFree_bind {e : Effect α} {f : α → Effect β} (he : e.ContextFree)
    (hf : ∀ a, (f a).ContextFree) : (e >>= f).ContextFree := by
  obtain ⟨result, rfl⟩ := he
  cases result with
  | error fault => exact ⟨.error fault, rfl⟩
  | ok a =>
    obtain ⟨after, ha⟩ := hf a
    exact ⟨after, ha⟩

end Effect

/-- A hook for which only names count. -/
structure Hook.Plain (hook : Hook) : Prop where
  contextFree_onApp : ∀ scope d app, (hook.onApp scope d app).ContextFree
  contextFree_onRouter : ∀ scope d router, (hook.onRouter scope d router).ContextFree
  onApp_eq : ∀ {scope scope' : HookScope}, scope.Agrees scope' → hook.onApp scope = hook.onApp scope'
  onRouter_eq : ∀ {scope scope' : HookScope}, scope.Agrees scope' →
    hook.onRouter scope = hook.onRouter scope'

namespace Hook

theorem plain_forApp {α : Type} {prepare : HookScope → Descriptor → Except Fault α}
    (h : ∀ {scope scope' : HookScope}, scope.Agrees scope' → prepare scope = prepare scope')
    (change : App → α → Except Fault App) : (forApp prepare change).Plain where
  contextFree_onApp _ _ _ := Effect.contextFree_of _
  contextFree_onRouter _ _ _ := Effect.contextFree_of _
  onApp_eq hscope := by
    funext d app
    simp only [forApp, h hscope]
  onRouter_eq hscope := by
    funext d router
    simp only [forApp, h hscope]

theorem plain_param : param.Plain where
  contextFree_onApp _ _ _ := Effect.contextFree_of _
  contextFree_onRouter _ _ _ := Effect.contextFree_of _
  onApp_eq hscope := by
    funext d app
    simp only [param, hscope.chain_eq]
  onRouter_eq hscope := by
    funext d router
    simp only [param, hscope.chain_eq]

theorem plain_static : static.Plain :=
  plain_forApp (fun hscope => by
    funext d
    simp only [hscope.options?_eq]) _

theorem plain_all : all.Plain :=
  plain_forApp (fun hscope => by
    funext d
    simp only [hscope.chain_eq]) _

theorem plain_bodyParser (kind : Http.BodyKind) : (bodyParser kind).Plain :=
  plain_forApp (fun hscope => by
    funext d
    simp only [hscope.options?_eq]) _

theorem plain_of_mem_builtin {h : String × Hook} (hmem : h ∈ builtin) : h.2.Plain := by
  simp only [builtin, List.mem_cons, List.not_mem_nil, or_false] at hmem
  rcases hmem with rfl | rfl | rfl | rfl | rfl | rfl | rfl
  · exact plain_param
  · exact plain_static
  · exact plain_all
  all_goals exact plain_bodyParser _

/-- The entries that a hook adds answer requests of any method. -/
def AddsAny (hook : Hook) : Prop :=
  ∀ (scope : HookScope) (d : Descriptor) (app app' : App) (c c' : Context),
    hook.onApp scope d app c = (.ok app', c') → ∀ entry ∈ app'.entries, entry ∈ app.entries ∨ entry.method = .any

theorem any_of_push {app : App} {entry : RouteEntry} (h : entry.method = .any) :
    ∀ e ∈ (app.push entry).entries, e ∈ app.entries ∨ e.method = .any := by
  intro e he
  rcases List.mem_append.mp he with hold | hnew
  · exact .inl hold
  · obtain rfl := List.mem_singleton.mp hnew
    exact .inr h

theorem addsAny_forApp {α : Type} {prepare : HookScope → Descriptor → Except Fault α}
    {change : App → α → Except Fault App} (h : ∀ {app app' : App} {a : α}, change app a = .ok app' →
      ∀ entry ∈ app'.entries, entry ∈ app.entries ∨ entry.method = .any) :
    (forApp prepare change).AddsAny := by
  intro scope d app app' c c' happ
  obtain ⟨a, -, hchange⟩ := exists_of_bind_eq_ok (Effect.eq_ok_of_of happ).1
  exact h hchange

theorem addsAny_param : param.AddsAny := by
  intro scope d app app' c c' happ
  obtain ⟨_, -, hfault⟩ := exists_of_bind_eq_ok (Effect.eq_ok_of_of happ).1
  cases hfault

theorem addsAny_static : static.AddsAny := addsAny_forApp fun h => by
  obtain ⟨matcher, -, happ⟩ := exists_of_bind_eq_ok h
  obtain rfl := Except.ok.inj happ
  exact any_of_push rfl

theorem addsAny_all : all.AddsAny := addsAny_forApp fun h => by
  obtain ⟨matcher, -, happ⟩ := exists_of_bind_eq_ok h
  obtain rfl := Except.ok.inj happ
  exact any_of_push rfl

theorem addsAny_bodyParser (kind : Http.BodyKind) : (bodyParser kind).AddsAny := addsAny_forApp fun h => by
  obtain rfl := Except.ok.inj h
  exact fun _ hentry => .inl hentry

theorem addsAny_of_mem_builtin {h : String × Hook} (hmem : h ∈ builtin) : h.2.AddsAny := by
  simp only [builtin, List.mem_cons, List.not_mem_nil, or_false] at hmem
  rcases hmem with rfl | rfl | rfl | rfl | rfl | rfl | rfl
  · exact addsAny_param
  · exact addsAny_static
  · exact addsAny_all
  all_goals exact addsAny_bodyParser _

end Hook
end RouteQuery
