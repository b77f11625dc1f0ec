import RouteQuery.Proofs.CaptureGroups
import RouteQuery.Proofs.DispatchStack
import RouteQuery.Proofs.ParamTable

/-! Keys that hide each other. Parameters go by their names and wildcards by their numbers, so the keys of
a path are distinct unless a name is written twice or is the number of a wildcard. -/
namespace RouteQuery
open Http

/-! ### Keys of slots -/

namespace Slot

/-- The names of parameters, in order. -/
def names : List Slot → List String
  | [] => []
  | param name :: slots => name :: names slots
  | wildcard :: slots => names slots

/-- The number of wildcards. -/
def wildcards : List Slot → Nat
  | [] => 0
  | param _ :: slots => wildcards slots
  | wildcard :: slots => wildcards slots + 1

theorem number_injective : Function.Injective (toString : Nat → String) := by
  intro k n h
  have hdigits : Nat.toDigits 10 k = Nat.toDigits 10 n := String.ofList_injective h
  calc
    k = Nat.ofDigitChars 10 (Nat.toDigits 10 k) 0 := Nat.ofDigitChars_ten_toDigits.symm
    _ = Nat.ofDigitChars 10 (Nat.toDigits 10 n) 0 := by rw [hdigits]
    _ = n := Nat.ofDigitChars_ten_toDigits

theorem mem_keys {first : Nat} {slots : List Slot} {key : String} :
    key ∈ keys first slots ↔
      key ∈ names slots ∨ ∃ k, first ≤ k ∧ k < first + wildcards slots ∧ key = toString k := by
  fun_induction keys first slots with
  | case1 first =>
    simp [names, wildcards]
    omega
  | case2 first name slots ih => simp [names, wildcards, ih, or_assoc]
  | case3 first slots ih =>
    rw [List.mem_cons, ih, names, wildcards]
    constructor
    · rintro (rfl | hname | ⟨k, hle, hlt, rfl⟩)
      · exact .inr ⟨first, by omega, by omega, rfl⟩
      · exact .inl hname
      · exact .inr ⟨k, by omega, by omega, rfl⟩
    · rintro (hname | ⟨k, hle, hlt, rfl⟩)
      · exact .inr (.inl hname)
      · by_cases hk : k = first
        · exact .inl (by rw [hk])
        · exact .inr (.inr ⟨k, by omega, by omega, rfl⟩)

/-- The keys of slots are distinct just when no name is written twice and none numbers a wildcard. -/
theorem nodup_keys {first : Nat} {slots : List Slot} :
    (keys first slots).Nodup ↔
      (names slots).Nodup ∧ ∀ k, first ≤ k → k < first + wildcards slots → toString k ∉ names slots := by
  fun_induction keys first slots with
  | case1 => simp [names]
  | case2 first name slots ih =>
    rw [List.nodup_cons, mem_keys, ih, names, wildcards, List.nodup_cons]
    simp only [List.mem_cons]
    constructor
    · rintro ⟨hname, hnodup, hnumbers⟩
      rw [not_or] at hname
      refine ⟨⟨hname.1, hnodup⟩, fun k hle hlt hk => ?_⟩
      rcases hk with rfl | hk
      · exact hname.2 ⟨k, hle, hlt, rfl⟩
      · exact hnumbers k hle hlt hk
    · rintro ⟨⟨hname, hnodup⟩, hnumbers⟩
      refine ⟨?_, hnodup, fun k hle hlt hk => hnumbers k hle hlt (.inr hk)⟩
      rintro (hmem | ⟨k, hle, hlt, rfl⟩)
      · exact hname hmem
      · exact hnumbers k hle hlt (.inl rfl)
  | case3 first slots ih =>
    have hnumber : toString first ∈ keys (first + 1) slots ↔ toString first ∈ names slots := by
      rw [mem_keys, or_iff_left]
      rintro ⟨k, hle, -, hk⟩
      have := number_injective hk
      omega
    rw [List.nodup_cons, hnumber, ih, names, wildcards]
    constructor
    · rintro ⟨hfirst, hnodup, hnumbers⟩
      refine ⟨hnodup, fun k hle hlt => ?_⟩
      by_cases hk : k = first
      · rwa [hk]
      · exact hnumbers k (by omega) (by omega)
    · rintro ⟨hnodup, hnumbers⟩
      exact ⟨hnumbers first (by omega) (by omega), hnodup, fun k hle hlt => hnumbers k (by omega) (by omega)⟩

end Slot

/-! ### Captures under their keys -/

theorem RouteParams.lookup_of_mem {captures : List (String × String)}
    (h : (captures.map (·.1)).Nodup) {key value : String} (hmem : (key, value) ∈ captures) :
    (RouteParams.ofCaptures captures).lookup key = some value := by
  have hnodup : (captures.reverse.map (·.1)).Nodup := by
    rwa [List.map_reverse, List.nodup_reverse]
  have hfilter : (key, value) ∈ captures.reverse.filter (·.1 == key) := by simp [hmem]
  rw [Json.filter_key hnodup] at hfilter
  obtain ⟨value', hvalue', heq⟩ := List.mem_map.mp hfilter
  obtain ⟨-, rfl⟩ := Prod.mk.inj heq
  rw [RouteParams.lookup_ofCaptures]
  exact Option.mem_toList.mp hvalue'

namespace PathMatcher

theorem keys_reported_sublist (keys : List String) (values : List (Option (List Char))) :
    ((reported keys values).map (·.1)).Sublist keys := by
  induction keys generalizing values with
  | nil => exact List.Sublist.slnil
  | cons key keys ih =>
    cases values with
    | nil => exact List.nil_sublist _
    | cons value? values =>
      cases value? with
      | none => exact (ih values).cons key
      | some value => exact (ih values).cons_cons key

/-- A match reports no key more often than the matcher has it. -/
theorem nodup_reported {m : PathMatcher} {text : List Char} {found : PathMatch}
    (h : m.matches? text = some found) (hkeys : m.keys.Nodup) : (found.params.map (·.1)).Nodup := by
  obtain ⟨q, -, rfl⟩ := exists_search_of_matches? h
  rw [params_found]
  exact (keys_reported_sublist _ _).nodup hkeys

/-- The keys of a literal path are distinct just when no parameter name is written twice and none is the
number of a wildcard of the path. Of captures under equal keys the tasks of a route see the last, so they
see every capture when keys are distinct. -/
theorem keys_distinct_iff {path : String} {mode : MatchMode} {m : PathMatcher}
    (hm : compile (.literal path) mode = .ok m) :
    (m.keys.Nodup ↔ (Slot.names (Slot.ofPath path.toList)).Nodup ∧
      ∀ k < Slot.wildcards (Slot.ofPath path.toList), toString k ∉ Slot.names (Slot.ofPath path.toList)) ∧
    ∀ w entry rest chain bindings req found, entry.matcher = m → entry.handler = .tasks chain bindings →
      entry.accepts? req = some found →
      ∃ params, dispatch w (entry :: rest) req = Step.run (dispatch w rest) (found.steps chain bindings)
          { req with params := some params } ∧
        (∀ key, params.lookup key = found.params.reverse.lookup key) ∧
        (m.keys.Nodup → ∀ key value, (key, value) ∈ found.params → params.lookup key = some value) := by
  have hkeys := PathTemplate.slotKeys_of_compile (of_compile_eq_ok hm).1
  constructor
  · rw [hkeys, Slot.nodup_keys]
    simp
  · rintro w entry rest chain bindings req found rfl hhandler haccepts
    refine ⟨RouteParams.ofCaptures found.params, ?_, RouteParams.lookup_ofCaptures found.params, ?_⟩
    · rw [dispatch, haccepts]
      simp only [hhandler]
    · intro hnodup key value hcapture
      unfold RouteEntry.accepts? at haccepts
      split_ifs at haccepts
      exact RouteParams.lookup_of_mem (nodup_reported haccepts hnodup) hcapture

def userFilesEntry : RouteEntry := ⟨userFiles, .any, .tasks (StockTasks.all (.constant "0")) []⟩

def userFilesRequest : Request :=
  { method := "GET", uri := ⟨"/ann/files/a/b".toList, none⟩, headers := [], body := [] }

theorem userFiles_keeps_captures :
    userFiles.keys.Nodup ∧
    userFilesEntry.accepts? userFilesRequest = some ⟨[("id", "ann"), ("0", "a/b")], []⟩ ∧
    ∃ params, dispatch ⟨"/", []⟩ [userFilesEntry] userFilesRequest =
        Step.run (dispatch ⟨"/", []⟩ []) (Step.ofChain (StockTasks.all (.constant "0")) none)
          { userFilesRequest with params := some params } ∧
      params.lookup "id" = some "ann" ∧ params.lookup "0" = some "a/b" := by
  have haccepts : userFilesEntry.accepts? userFilesRequest =
      some ⟨[("id", "ann"), ("0", "a/b")], []⟩ := by decide +kernel
  obtain ⟨hiff, hseen⟩ := keys_distinct_iff compile_userFiles
  have hslots : Slot.ofPath "/:id?/files/*".toList = [.param "id", .wildcard] := by
    simp [Slot.ofPath, Text.isWordChar]
  have hnodup : userFiles.keys.Nodup := by
    rw [hiff, hslots]
    simpa [Slot.names, Slot.wildcards] using (by decide : Nat.repr 0 ≠ "id")
  obtain ⟨params, hdispatch, -, hall⟩ := hseen ⟨"/", []⟩ userFilesEntry [] _ _ _ _ rfl rfl haccepts
  exact ⟨hnodup, haccepts, params, hdispatch, hall hnodup _ _ (by simp), hall hnodup _ _ (by simp)⟩

/-- In `/:0/*` both captures go by `0`, and of the first nothing is left. -/
theorem number_hides_capture : ∃ m, compile (.literal "/:0/*") .route = .ok m ∧
    (Slot.names (Slot.ofPath "/:0/*".toList)).Nodup ∧ ¬ m.keys.Nodup ∧
    m.matches? "/x/y".toList = some ⟨[("0", "x"), ("0", "y")], []⟩ ∧
    ∀ key, (RouteParams.ofCaptures [("0", "x"), ("0", "y")]).lookup key ≠ some "x" := by
  have hcompile : ((compile (.literal "/:0/*") .route).toOption.bind fun m =>
      (m.matches? "/x/y".toList).map (m.keys, ·)) =
        some (["0", "0"], ⟨[("0", "x"), ("0", "y")], []⟩) := by decide +kernel
  obtain ⟨m, hm, hfound⟩ := Option.bind_eq_some_iff.mp hcompile
  obtain ⟨found, hmatches, heq⟩ := Option.map_eq_some_iff.mp hfound
  obtain ⟨hkeys, rfl⟩ := Prod.mk.inj heq
  refine ⟨m, eq_ok_of_toOption hm, ?_, by simp [hkeys], hmatches, fun key => ?_⟩
  · simp [Slot.ofPath, Slot.names, Text.isWordChar]
  · rw [RouteParams.lookup_ofCaptures]
    by_cases hkey : key = "0"
    · simp [hkey]
    · simp [List.lookup_cons, beq_false_of_ne hkey]

end PathMatcher
end RouteQuery
