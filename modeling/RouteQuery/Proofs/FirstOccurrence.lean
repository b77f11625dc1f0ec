import Mathlib.Tactic.Common
import RouteQuery.Execution
import RouteQuery.QueryText

/-! Items in the order in which each is first seen. Path identifiers and merged fields stand in that
order. -/
namespace RouteQuery

variable {α β : Type}

theorem eraseDups_map [DecidableEq α] [DecidableEq β] {f : α → β} {xs : List α}
    (hf : ∀ x ∈ xs, ∀ y ∈ xs, f x = f y → x = y) : (xs.map f).eraseDups = xs.eraseDups.map f := by
  induction hn : xs.length using Nat.strongRecOn generalizing xs with
  | _ n ih =>
    subst hn
    cases xs with
    | nil => rfl
    | cons x xs =>
      have hle := List.length_filter_le (fun b => !b == x) xs
      have hsame : (xs.map f).filter (fun b => !b == f x) = (xs.filter fun b => !b == x).map f := by
        rw [List.filter_map]
        congr 1
        apply List.filter_congr
        intro y hy
        have := hf y (by simp [hy]) x (by simp)
        by_cases hyx : y = x
        · simp [hyx]
        · simp [hyx, mt this hyx]
      have step : ((xs.filter fun b => !b == x).map f).eraseDups =
          (xs.filter fun b => !b == x).eraseDups.map f :=
        ih _ (by simp only [List.length_cons]; omega)
          (fun y hy z hz => hf y (by simp_all) z (by simp_all)) rfl
      rw [List.map_cons, List.eraseDups_cons, List.eraseDups_cons, List.map_cons, hsame, step]

theorem nodup_eraseDups [DecidableEq α] (xs : List α) : xs.eraseDups.Nodup := by
  induction hn : xs.length using Nat.strongRecOn generalizing xs with
  | _ n ih =>
    subst hn
    cases xs with
    | nil => exact List.nodup_nil
    | cons x xs =>
      have hle := List.length_filter_le (fun b => !b == x) xs
      have hrest := ih _ (by simp only [List.length_cons]; omega) (xs.filter fun b => !b == x) rfl
      rw [List.eraseDups_cons, List.nodup_cons, List.mem_eraseDups]
      exact ⟨by simp, hrest⟩

theorem eraseDups_of_nodup [DecidableEq α] {xs : List α} (h : xs.Nodup) : xs.eraseDups = xs := by
  induction xs with
  | nil => rfl
  | cons x xs ih =>
    obtain ⟨hx, hxs⟩ := List.nodup_cons.mp h
    have hfilter : xs.filter (fun b => !b == x) = xs :=
      List.filter_eq_self.mpr fun y hy => by simpa using ne_of_mem_of_not_mem hy hx
    rw [List.eraseDups_cons, hfilter, ih hxs]

/-- What has been seen so far, the latest first, and then the new items among the rest. -/
theorem foldl_seen [DecidableEq α] (xs seen : List α) :
    (xs.foldl (fun seen x => if x ∈ seen then seen else x :: seen) seen).reverse =
      List.eraseDupsBy.loop (· == ·) xs seen := by
  induction xs generalizing seen with
  | nil => rfl
  | cons x xs ih =>
    have hseen : seen.any (x == ·) = decide (x ∈ seen) := by
      rw [Bool.eq_iff_iff]
      simp
    rw [List.foldl_cons, ih]
    simp only [List.eraseDupsBy.loop, hseen]
    by_cases hx : x ∈ seen <;> simp [hx]

theorem QueryText.distinct_eq_eraseDups [DecidableEq α] (xs : List α) :
    distinct xs = xs.eraseDups := foldl_seen xs []

namespace Execution

theorem fieldNames_eq_eraseDups (selections : List Selection) :
    fieldNames selections = (selections.map Selection.name).eraseDups := by
  rw [← QueryText.distinct_eq_eraseDups, QueryText.distinct, List.foldl_map]
  rfl

theorem nodup_fieldNames (selections : List Selection) : (fieldNames selections).Nodup :=
  fieldNames_eq_eraseDups selections ▸ nodup_eraseDups _

theorem childrenOf_eq_flatMap (name : String) (selections : List Selection) :
    childrenOf name selections =
      (selections.filter (·.name = name)).flatMap Selection.children := by
  induction selections with
  | nil => rfl
  | cons s rest ih =>
    by_cases h : s.name = name <;> simp [childrenOf, h, ih]

/-- Selections made from items are merged as the items are by their keys. -/
theorem fieldNames_map [DecidableEq β] {key : α → β} (name : β → String)
    {selection : α → Selection} {xs : List α} (hname : ∀ x ∈ xs, (selection x).name = name (key x))
    (hinj : ∀ x ∈ xs, ∀ y ∈ xs, name (key x) = name (key y) → key x = key y) :
    fieldNames (xs.map selection) = (xs.map key).eraseDups.map name := by
  have hkeys : (xs.map selection).map Selection.name = (xs.map key).map name := by
    rw [List.map_map, List.map_map]
    exact List.map_congr_left hname
  rw [fieldNames_eq_eraseDups, hkeys, eraseDups_map]
  simpa using hinj

theorem childrenOf_map [DecidableEq β] {key : α → β} (name : β → String)
    {selection : α → Selection} {xs : List α}
    (hname : ∀ x ∈ xs, (selection x).name = name (key x)) {k : β}
    (hinj : ∀ x ∈ xs, name (key x) = name k → key x = k) :
    childrenOf (name k) (xs.map selection) =
      (xs.filter (key · = k)).flatMap fun x => (selection x).children := by
  have hfilter : (xs.filter fun x => decide ((selection x).name = name k)) =
      xs.filter (key · = k) := by
    refine List.filter_congr fun x hx => ?_
    rw [hname x hx, decide_eq_decide]
    exact ⟨hinj x hx, congrArg name⟩
  rw [childrenOf_eq_flatMap, List.filter_map, List.flatMap_map, ← hfilter]
  rfl

theorem mem_childrenOf {name : String} {selections : List Selection} {s : Selection} :
    s ∈ childrenOf name selections ↔ ∃ t ∈ selections, t.name = name ∧ s ∈ t.children := by
  simp only [childrenOf_eq_flatMap, List.mem_flatMap, List.mem_filter, decide_eq_true_eq, and_assoc]

end Execution
end RouteQuery
