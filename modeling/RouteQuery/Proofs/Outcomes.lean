import Mathlib.Data.List.Forall2
import RouteQuery.Hook

/-! Outcomes taken apart: which steps of a computation must have succeeded, and which effects leave
the shared context alone. -/
namespace RouteQuery

section
variable {ε ε' α β : Type}

theorem exists_of_isOk {x : Except ε α} (h : x.isOk = true) : ∃ a, x = .ok a := by
  cases x with
  | error e => cases h
  | ok a => exact ⟨a, rfl⟩

theorem eq_ok_of_toOption {x : Except ε α} {a : α} (h : x.toOption = some a) : x = .ok a := by
  cases x with
  | error e => cases h
  | ok b => exact congrArg Except.ok (Option.some.inj h)

theorem exists_of_map_eq_ok {f : α → β} {x : Except ε α} {b : β} (h : x.map f = .ok b) :
    ∃ a, x = .ok a ∧ f a = b := by
  cases x with
  | error e => cases h
  | ok a => exact ⟨a, rfl, Except.ok.inj h⟩

theorem exists_of_bind_eq_ok {x : Except ε α} {f : α → Except ε β} {b : β} (h : x >>= f = .ok b) :
    ∃ a, x = .ok a ∧ f a = .ok b := by
  cases x with
  | error e => cases h
  | ok a => exact ⟨a, rfl, h⟩

theorem eq_error_of_map {f : α → β} {x : Except ε α} {e : ε} (h : x.map f = .error e) :
    x = .error e := by
  cases x with
  | error e' => exact congrArg Except.error (Except.error.inj h)
  | ok a => cases h

theorem error_of_bind {x : Except ε α} {f : α → Except ε β} {e : ε} (h : x >>= f = .error e) :
    x = .error e ∨ ∃ a, x = .ok a ∧ f a = .error e := by
  cases x with
  | error e' => exact .inl (congrArg Except.error (Except.error.inj h))
  | ok a => exact .inr ⟨a, rfl, h⟩

theorem mapM_eq_ok_iff {f : α → Except ε β} {xs : List α} {ys : List β} :
    xs.mapM f = .ok ys ↔ List.Forall₂ (fun x y => f x = .ok y) xs ys := by
  induction xs generalizing ys with
  | nil =>
    rw [List.forall₂_nil_left_iff]
    exact ⟨fun h => (Except.ok.inj h).symm, fun h => h ▸ rfl⟩
  | cons x xs ih =>
    rw [List.mapM_cons, List.forall₂_cons_left_iff]
    constructor
    · intro h
      obtain ⟨y, hy, hrest⟩ := exists_of_bind_eq_ok h
      obtain ⟨ys, hys, hpure⟩ := exists_of_bind_eq_ok hrest
      exact ⟨y, ys, hy, ih.mp hys, (Except.ok.inj hpure).symm⟩
    · rintro ⟨y, ys, hy, hys, rfl⟩
      rw [hy, ih.mpr hys]
      rfl

/-- The error is that of the first item for which there is one. -/
theorem mapM_eq_error_iff {f : α → Except ε β} {xs : List α} {e : ε} :
    xs.mapM f = .error e ↔ ∃ before x after, xs = before ++ x :: after ∧ (∀ y ∈ before, ∃ z, f y = .ok z) ∧
      f x = .error e := by
  induction xs with
  | nil => simp [pure, Except.pure]
  | cons x xs ih =>
    rw [List.mapM_cons]
    constructor
    · intro h
      rcases error_of_bind h with hx | ⟨y, hy, hrest⟩
      · exact ⟨[], x, xs, rfl, by simp, hx⟩
      · rcases error_of_bind hrest with hxs | ⟨ys, -, hpure⟩
        · obtain ⟨before, x', after, rfl, hbefore, hfault⟩ := ih.mp hxs
          exact ⟨x :: before, x', after, rfl, List.forall_mem_cons.mpr ⟨⟨y, hy⟩, hbefore⟩, hfault⟩
        · cases hpure
    · rintro ⟨_ | ⟨x', before⟩, x'', after, hxs, hbefore, hfault⟩
      · obtain ⟨rfl, rfl⟩ := List.cons.inj hxs
        rw [hfault]
        rfl
      · obtain ⟨rfl, rfl⟩ := List.cons.inj hxs
        obtain ⟨⟨y, hy⟩, hbefore⟩ := List.forall_mem_cons.mp hbefore
        rw [hy, ih.mpr ⟨before, x'', after, rfl, hbefore, hfault⟩]
        rfl

theorem error_of_mapM {f : α → Except ε β} {xs : List α} {e : ε} (h : xs.mapM f = .error e) :
    ∃ x ∈ xs, f x = .error e := by
  obtain ⟨before, x, after, rfl, -, hx⟩ := mapM_eq_error_iff.mp h
  exact ⟨x, List.mem_append_right before List.mem_cons_self, hx⟩

theorem eq_ok_of_mapError {f : ε → ε'} {x : Except ε α} {a : α} (h : x.mapError f = .ok a) :
    x = .ok a := by
  cases x with
  | error e => cases h
  | ok b => exact congrArg Except.ok (Except.ok.inj h)

end

namespace Effect

variable {α β : Type}

@[simp] theorem of_ok (a : α) : (Change.of (.ok a) : Effect α) = pure a := rfl

theorem exists_of_bind {e : Effect α} {f : α → Effect β} {c c' : Context} {b : β}
    (h : (e >>= f) c = (.ok b, c')) : ∃ a c₁, e c = (.ok a, c₁) ∧ f a c₁ = (.ok b, c') := by
  cases he : e c with
  | mk result c₁ =>
    change ExceptT.bindCont f (e c).1 (e c).2 = _ at h
    rw [he] at h
    cases result with
    | error fault => cases h
    | ok a => exact ⟨a, c₁, rfl, h⟩

theorem error_of_bind {e : Effect α} {f : α → Effect β} {c c' : Context} {fault : Fault}
    (h : (e >>= f) c = (.error fault, c')) :
    e c = (.error fault, c') ∨ ∃ a c₁, e c = (.ok a, c₁) ∧ f a c₁ = (.error fault, c') := by
  cases he : e c with
  | mk result c₁ =>
    change ExceptT.bindCont f (e c).1 (e c).2 = _ at h
    rw [he] at h
    cases result with
    | error fault' =>
      obtain ⟨hfault, rfl⟩ := Prod.mk.inj h
      exact .inl (congrArg (fun f => (Except.error f, c₁)) (Except.error.inj hfault))
    | ok a => exact .inr ⟨a, c₁, rfl, h⟩

theorem eq_error_of_of {result : Except Fault α} {c c' : Context} {fault : Fault}
    (h : (Change.of result : Effect α) c = (.error fault, c')) : result = .error fault := (Prod.mk.inj h).1

theorem eq_of_throw {fault fault' : Fault} {c c' : Context}
    (h : (throw fault : Effect α) c = (.error fault', c')) : fault = fault' :=
  Except.error.inj (Prod.mk.inj h).1

theorem eq_ok_of_of {result : Except Fault α} {c c' : Context} {a : α}
    (h : (Change.of result : Effect α) c = (.ok a, c')) : result = .ok a ∧ c = c' := Prod.mk.inj h

theorem eq_of_pure {a b : α} {c c' : Context} (h : (pure a : Effect α) c = (.ok b, c')) :
    a = b ∧ c = c' := by
  obtain ⟨hok, hc⟩ := Prod.mk.inj h
  exact ⟨Except.ok.inj hok, hc⟩

end Effect

end RouteQuery
