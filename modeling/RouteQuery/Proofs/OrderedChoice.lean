/-! Readers that are put together by sequence, ordered choice and repetition. A reader that fails tells the place
of its fault, and a choice or a repetition forgets the places at which the readers before it failed. -/
namespace RouteQuery

/-- A reader takes something off the front of its input or tells the place where it fails. -/
abbrev Scan (σ α : Type) := List σ → Except (List Char) (α × List σ)

namespace Scan

section
variable {σ α β : Type}

def pure (a : α) : Scan σ α := fun xs => .ok (a, xs)

def bind (p : Scan σ α) (f : α → Scan σ β) : Scan σ β := fun xs =>
  match p xs with
  | .ok (a, rest) => f a rest
  | .error place => .error place

/-- The second reader is tried where the first fails, and its fault is the one that counts. -/
def orElse (p q : Scan σ α) : Scan σ α := fun xs =>
  match p xs with
  | .ok result => .ok result
  | .error _ => q xs

def opt (p : Scan σ α) : Scan σ (Option α) := fun xs =>
  match p xs with
  | .ok (a, rest) => .ok (some a, rest)
  | .error _ => .ok (none, xs)

/-- As often as possible, by a reader that takes something whenever it succeeds. -/
def repeated (p : Scan σ α) (xs : List σ) : List α × List σ :=
  match p xs with
  | .ok (a, rest) =>
    if rest.length < xs.length then (a :: (repeated p rest).1, (repeated p rest).2) else ([], xs)
  | .error _ => ([], xs)
termination_by xs.length

def many (p : Scan σ α) : Scan σ (List α) := fun xs => .ok (repeated p xs)

def many1 (p : Scan σ α) : Scan σ (List α) := p.bind fun a => (many p).bind fun as => pure (a :: as)

/-- It takes something whenever it succeeds. -/
def Takes (p : Scan σ α) : Prop := ∀ xs a rest, p xs = .ok (a, rest) → rest.length < xs.length

def Shortens (p : Scan σ α) : Prop := ∀ xs a rest, p xs = .ok (a, rest) → rest.length ≤ xs.length

variable {p q : Scan σ α} {f : α → Scan σ β} {xs rest : List σ} {a : α} {place : List Char}

theorem bind_of_ok (h : p xs = .ok (a, rest)) : p.bind f xs = f a rest := by rw [bind, h]

theorem bind_of_error (h : p xs = .error place) : p.bind f xs = .error place := by rw [bind, h]

theorem exists_of_bind_eq_ok {b : β} (h : p.bind f xs = .ok (b, rest)) :
    ∃ a between, p xs = .ok (a, between) ∧ f a between = .ok (b, rest) := by
  unfold bind at h
  split at h
  · next a between hp => exact ⟨a, between, hp, h⟩
  · cases h

theorem or_of_orElse_eq_ok {result : α × List σ} (h : p.orElse q xs = .ok result) :
    p xs = .ok result ∨ q xs = .ok result := by
  unfold orElse at h
  split at h
  · next hp => exact .inl (hp.trans h)
  · exact .inr h

theorem errors_of_orElse_eq_error (h : p.orElse q xs = .error place) :
    (∃ place', p xs = .error place') ∧ q xs = .error place := by
  unfold orElse at h
  split at h
  · cases h
  · next place' hp => exact ⟨⟨place', hp⟩, h⟩

theorem Takes.shortens (h : Takes p) : Shortens p := fun xs a rest hp => Nat.le_of_lt (h xs a rest hp)

theorem shortens_pure (a : α) : Shortens (pure a : Scan σ α) := by
  intro xs b rest h
  obtain ⟨-, rfl⟩ := Prod.mk.inj (Except.ok.inj h)
  exact Nat.le_refl _

theorem Takes.bind (hp : Takes p) (hf : ∀ a, Shortens (f a)) : Takes (p.bind f) := by
  intro xs b rest h
  obtain ⟨a, between, hfirst, hsecond⟩ := exists_of_bind_eq_ok h
  exact Nat.lt_of_le_of_lt (hf a _ _ _ hsecond) (hp _ _ _ hfirst)

theorem Shortens.bind (hp : Shortens p) (hf : ∀ a, Shortens (f a)) : Shortens (p.bind f) := by
  intro xs b rest h
  obtain ⟨a, between, hfirst, hsecond⟩ := exists_of_bind_eq_ok h
  exact Nat.le_trans (hf a _ _ _ hsecond) (hp _ _ _ hfirst)

theorem Takes.orElse (hp : Takes p) (hq : Takes q) : Takes (p.orElse q) := fun xs a rest h =>
  (or_of_orElse_eq_ok h).elim (hp xs a rest) (hq xs a rest)

theorem Shortens.opt (hp : Shortens p) : Shortens p.opt := by
  intro xs a rest h
  unfold Scan.opt at h
  split at h
  · next hfirst =>
    obtain ⟨-, rfl⟩ := Prod.mk.inj (Except.ok.inj h)
    exact hp _ _ _ hfirst
  · obtain ⟨-, rfl⟩ := Prod.mk.inj (Except.ok.inj h)
    exact Nat.le_refl _

theorem repeated_of_error (h : p xs = .error place) : repeated p xs = ([], xs) := by
  rw [repeated, h]

theorem repeated_of_ok (hp : Takes p) (h : p xs = .ok (a, rest)) :
    repeated p xs = (a :: (repeated p rest).1, (repeated p rest).2) := by
  rw [repeated, h]
  simp only [if_pos (hp _ _ _ h)]

theorem many1_of_error (h : p xs = .error place) : p.many1 xs = .error place := bind_of_error h

theorem many1_of_ok (h : p xs = .ok (a, rest)) :
    p.many1 xs = .ok (a :: (repeated p rest).1, (repeated p rest).2) := bind_of_ok h

theorem opt_of_ok (h : p xs = .ok (a, rest)) : p.opt xs = .ok (some a, rest) := by rw [opt, h]

theorem opt_of_error (h : p xs = .error place) : p.opt xs = .ok (none, xs) := by rw [opt, h]

theorem orElse_of_ok {result : α × List σ} (h : p xs = .ok result) : p.orElse q xs = .ok result := by
  rw [orElse, h]

theorem orElse_of_error (h : p xs = .error place) : p.orElse q xs = q xs := by rw [orElse, h]

/-- Where nothing more is repeated the reader fails. -/
theorem exists_error_behind_repeated (hp : Takes p) (xs : List σ) :
    ∃ place, p (repeated p xs).2 = .error place := by
  induction hn : xs.length using Nat.strongRecOn generalizing xs with
  | _ n ih =>
    subst hn
    cases h : p xs with
    | error place => exact ⟨place, by rw [repeated_of_error h, h]⟩
    | ok result =>
      rw [repeated_of_ok hp h]
      exact ih _ (hp _ _ _ h) _ rfl

theorem shortens_many (hp : Takes p) : Shortens (many p) := by
  intro xs as rest h
  induction hn : xs.length using Nat.strongRecOn generalizing xs as with
  | _ n ih =>
    subst hn
    cases hfirst : p xs with
    | error place =>
      rw [many, repeated_of_error hfirst] at h
      obtain ⟨-, rfl⟩ := Prod.mk.inj (Except.ok.inj h)
      exact Nat.le_refl _
    | ok result =>
      rw [many, repeated_of_ok hp hfirst] at h
      have hless := hp _ _ _ hfirst
      obtain ⟨-, hrest⟩ := Prod.mk.inj (Except.ok.inj h)
      exact Nat.le_trans (ih _ hless _ _ (by rw [many, ← hrest]) rfl) (Nat.le_of_lt hless)

theorem Takes.many1 (hp : Takes p) : Takes p.many1 :=
  hp.bind fun _ => (shortens_many hp).bind fun _ => shortens_pure _

end

end Scan
end RouteQuery
