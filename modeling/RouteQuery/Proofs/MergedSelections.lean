import RouteQuery.Proofs.QueryGrammar
import RouteQuery.Proofs.Routable
import RouteQuery.Proofs.TypedAnswers

/-! Merging the selections of one name. What is below a name stays the same up to merging, and so the
merged query is valid when the query is and has the same answer. -/
namespace RouteQuery
open Execution

namespace Selection

@[simp] theorem name_withChildren (s : Selection) (below : List Selection) :
    (s.withChildren below).name = s.name := by cases s <;> rfl

theorem merge_ne_nil {selections : List Selection} (h : selections ≠ []) : merge selections ≠ [] := by
  obtain ⟨s, rest, rfl⟩ := List.exists_cons_of_ne_nil h
  rw [merge]
  exact List.cons_ne_nil _ _

theorem childrenOf_cons_self (s : Selection) (rest : List Selection) :
    childrenOf s.name (s :: rest) = s.children ++ childrenOf s.name rest := if_pos rfl

theorem childrenOf_othersThan_self (name : String) (selections : List Selection) :
    childrenOf name (othersThan name selections) = [] := by
  rw [childrenOf_eq_flatMap, othersThan, List.filter_filter]
  simp

/-- Each name stands where it did first. -/
theorem map_name_merge (selections : List Selection) :
    (merge selections).map name = fieldNames selections := by
  fun_induction merge selections with
  | case1 => rfl
  | case2 s rest _ ih => rw [List.map_cons, name_withChildren, ih, fieldNames_cons]

theorem fieldNames_merge (selections : List Selection) :
    fieldNames (merge selections) = fieldNames selections := by
  rw [fieldNames_eq_eraseDups, map_name_merge, eraseDups_of_nodup (nodup_fieldNames selections)]

/-- On no level is a name selected twice. -/
inductive Distinct : List Selection → Prop
  | intro {selections : List Selection} (names : (selections.map name).Nodup)
      (below : ∀ s ∈ selections, Distinct s.children) : Distinct selections

theorem distinct_merge (selections : List Selection) : Distinct (merge selections) := by
  fun_induction merge selections with
  | case1 => exact .intro List.nodup_nil (by simp)
  | case2 s rest ihBelow ihRest =>
    have names : ((merge (s :: rest)).map name).Nodup :=
      map_name_merge (s :: rest) ▸ nodup_fieldNames (s :: rest)
    rw [merge] at names
    refine .intro names (List.forall_mem_cons.mpr ⟨?_, ?_⟩)
    · cases s with
      | leaf n => exact .intro List.nodup_nil (by simp)
      | branch n children => exact ihBelow
    · obtain ⟨-, below⟩ := ihRest
      exact below

/-- Below a name with sets of selections stand these, merged. -/
theorem childrenOf_merge {name : String} {selections : List Selection}
    (h : ∀ s ∈ selections, s.name = name → ∃ children, s = branch name children) :
    childrenOf name (merge selections) = merge (childrenOf name selections) := by
  fun_induction merge selections with
  | case1 => rw [childrenOf, merge]
  | case2 s rest _ ih =>
    have hrest := ih fun t ht => h t (List.mem_cons_of_mem s (mem_of_mem_othersThan ht))
    by_cases hname : s.name = name
    · -- All sets of the name are joined here, and none is left behind it.
      obtain ⟨children, rfl⟩ := h s List.mem_cons_self hname
      rw [name_branch, childrenOf_othersThan_self, merge] at hrest
      simp only [name_branch, children_branch, withChildren_branch]
      rw [childrenOf, if_pos (name_branch _ _), hrest, List.append_nil, childrenOf,
        if_pos (name_branch _ _), children_branch, children_branch]
    · rw [childrenOf_othersThan (Ne.symm hname)] at hrest
      rw [childrenOf, if_neg (by rwa [name_withChildren]), hrest, childrenOf, if_neg hname]

/-- Merging keeps what holds of all selections, those below others included, if it does not depend on
what is below them, or only on whether there is something. -/
theorem merge_preserves {Q : List Selection → Prop} {P : Selection → Prop}
    (hQ : ∀ selections, Q selections ↔ ∀ s ∈ selections, P s ∧ Q s.children)
    (hP : ∀ s children, P s → (s.children ≠ [] → children ≠ []) → P (s.withChildren children))
    {selections : List Selection} (h : Q selections) : Q (merge selections) := by
  fun_induction merge selections with
  | case1 => exact h
  | case2 s rest ihBelow ihRest =>
    have hall := (hQ _).mp h
    have hbelow := ihBelow ((hQ _).mpr fun c hc => by
      rw [← childrenOf_cons_self] at hc
      obtain ⟨t, ht, -, hc⟩ := mem_childrenOf.mp hc
      exact (hQ _).mp (hall t ht).2 c hc)
    have hrest := ihRest ((hQ _).mpr fun t ht => hall t (List.mem_cons_of_mem s (mem_of_mem_othersThan ht)))
    refine (hQ _).mpr (List.forall_mem_cons.mpr ⟨⟨?_, ?_⟩, (hQ _).mp hrest⟩)
    · exact hP s _ (hall s List.mem_cons_self).1 fun hne => merge_ne_nil (List.append_ne_nil_of_left_ne_nil hne _)
    · cases s with
      | leaf n => exact (hQ _).mpr (by simp)
      | branch n children => exact hbelow

theorem filled_iff (selections : List Selection) :
    Filled selections ↔ ∀ s ∈ selections, (∀ n, s ≠ branch n []) ∧ Filled s.children := by
  induction selections with
  | nil => simp [Filled]
  | cons s rest ih => cases s <;> simp [Filled, ih, and_assoc]

theorem allNames_iff {P : String → Prop} (selections : List Selection) :
    AllNames P selections ↔ ∀ s ∈ selections, P s.name ∧ AllNames P s.children := by
  induction selections with
  | nil => simp [AllNames]
  | cons s rest ih => cases s <;> simp [AllNames, ih, and_assoc]

theorem Filled.merge {selections : List Selection} (h : Filled selections) :
    Filled (merge selections) := by
  refine merge_preserves filled_iff (fun s children hs hne => ?_) h
  cases s with
  | leaf n => simp
  | branch n old => simpa using hne fun hnil => hs n (congrArg (branch n) hnil)

theorem AllNames.merge {P : String → Prop} {selections : List Selection} (h : AllNames P selections) :
    AllNames P (merge selections) :=
  merge_preserves allNames_iff (fun s _ hs _ => (name_withChildren s _).symm ▸ hs) h

theorem allNames_of_tokens {P : String → Prop} {selections : List Selection}
    (h : ∀ name, .name name ∈ tokens selections → P name) : AllNames P selections := by
  fun_induction tokens selections with
  | case1 => simp [AllNames]
  | case2 n rest ih =>
    rw [AllNames]
    exact ⟨h n (by simp), ih fun name hname => h name (by simp [hname])⟩
  | case3 n children rest ihc ih =>
    rw [AllNames]
    exact ⟨h n (by simp), ihc fun name hname => h name (by simp [hname]),
      ih fun name hname => h name (by simp [hname])⟩

end Selection

namespace Document

/-- A document that has been read can be written down. -/
theorem printable_of_parse {text : List Char} {d : Document} (h : parse text = .ok d) : d.Printable := by
  obtain ⟨hne, hfilled, keyword, htokens⟩ := isDocument_iff.mp (isDocument_of_parse h)
  have hstray : .stray ∉ RouteQuery.tokens text := fun hmem =>
    inQuery_of_mem_tokens (t := .stray) (htokens ▸ hmem)
  have hsplit := splits_tokens hstray
  have hname : ∀ name, .name name ∈ d.tokens keyword → isIdentifier name = true := fun name hmem =>
    hsplit.isIdentifier_of_mem (htokens ▸ hmem)
  refine ⟨hne, hfilled, fun name hoperation => hname name (mem_tokens.mpr (.inl ?_)), ?_⟩
  · rw [Option.mem_def.mp hoperation]
    simp [words]
  · exact Selection.allNames_of_tokens fun name hmem =>
      hname name (mem_tokens.mpr (.inr (.inr (.inl hmem))))

/-- Tokens with a blank behind each of them. -/
theorem spaced_map_space (ts : List Token) : Spaced (ts.map fun t => (t, [' '])) := by
  have hblank : ' ' ∈ separators := by simp [separators]
  induction ts with
  | nil => trivial
  | cons t rest ih =>
    cases rest with
    | nil => exact .separator hblank .nil
    | cons u rest => exact ⟨.separator hblank .nil, fun _ _ _ _ => List.cons_ne_nil _ _, ih⟩

theorem Printable.exists_text {d : Document} (h : d.Printable) : ∃ text, parse text = .ok d := by
  have htokens : ((d.tokens true).map fun t => (t, [' '])).map (·.1) = d.tokens true := by
    simp [Function.comp_def]
  have hsplit := (spaced_map_space (d.tokens true)).splitsInto
  rw [htokens] at hsplit
  have hsplit := hsplit (fun _ => inQuery_of_mem_tokens) fun _ => h.isIdentifier_of_mem
  have hderived := isDocument_iff.mpr ⟨h.nonempty, h.filled, true, hsplit.tokens_eq⟩
  exact ⟨_, parse_of_isDocument hderived⟩

/-- The document with its selections merged on all levels. -/
def merge (d : Document) : Document := ⟨d.operation, Selection.merge d.selections⟩

theorem Printable.merge {d : Document} (h : d.Printable) : d.merge.Printable where
  nonempty := Selection.merge_ne_nil h.nonempty
  filled := h.filled.merge
  operation := h.operation
  names := h.names.merge

end Document

namespace Execution

section
variable {α : Type} {schema : Schema} {resolver : Resolver α} {object : ObjectType} {source : α}
  {selections : List Selection}

theorem valid_merge (h : ∀ s ∈ selections, Valid schema object s) :
    ∀ s ∈ Selection.merge selections, Valid schema object s := by
  fun_induction Selection.merge selections generalizing object with
  | case1 => exact h
  | case2 s rest ihBelow ihRest =>
    rw [List.forall_mem_cons]
    refine ⟨?_, ihRest fun t ht => h t (List.mem_cons_of_mem s (mem_of_mem_othersThan ht))⟩
    have hs := h s List.mem_cons_self
    cases hs with
    | leaf field scalar => exact .leaf field scalar
    | @branch _ child name type children field defined below =>
      refine .branch field defined (ihBelow fun c hc => ?_)
      rw [← Selection.childrenOf_cons_self] at hc
      exact valid_childrenOf h field defined c hc

theorem Valid.branch_of_object {s : Selection} (h : Valid schema object s) {type : TypeRef}
    {child : ObjectType} (hfield : object.field? s.name = some type)
    (hobject : schema.object? type.name = some child) : ∃ children, s = .branch s.name children := by
  cases h with
  | leaf field scalar =>
    obtain rfl := Option.some.inj (field.symm.trans hfield)
    rw [hobject] at scalar
    cases scalar
  | branch => exact ⟨_, rfl⟩

/-- The answer to a field depends on what is below it only where it is answered with an object. -/
theorem fieldAnswer_congr {others : List Selection} {name : String} {type : TypeRef}
    (h : ∀ child inner, schema.object? type.name = some child →
      resolve schema resolver child inner (childrenOf name others) =
        resolve schema resolver child inner (childrenOf name selections)) :
    fieldAnswer schema resolver object source others name type =
      fieldAnswer schema resolver object source selections name type := by
  unfold fieldAnswer
  cases hobject : schema.object? type.name with
  | none => cases resolver source name <;> rfl
  | some child =>
    cases resolver source name with
    | null | scalar => rfl
    | object inner => simp only [h child inner hobject]

/-- Merged selections have the answer that they had before, with the faults in the same order. -/
theorem resolve_merge (h : ∀ s ∈ selections, Valid schema object s) :
    resolve schema resolver object source (Selection.merge selections) =
      resolve schema resolver object source selections := by
  induction selections using levels_induct generalizing object source with
  | level selections ih =>
    have hresult : ∀ name ∈ fieldNames selections,
        fieldResult schema resolver object source (Selection.merge selections) name =
          fieldResult schema resolver object source selections name := by
      intro name hname
      obtain ⟨s, hs, rfl⟩ := Vocabulary.mem_fieldNames.mp hname
      obtain ⟨type, hfield⟩ := (h s hs).exists_field
      simp only [fieldResult, hfield]
      congr 1
      refine fieldAnswer_congr fun child inner hobject => ?_
      -- An object type allows the name with a set only, and sets are what merging joins.
      have hbranches : ∀ t ∈ selections, t.name = s.name → ∃ children, t = .branch s.name children := by
        intro t ht hname
        rw [← hname] at hfield ⊢
        exact (h t ht).branch_of_object hfield hobject
      rw [Selection.childrenOf_merge hbranches]
      exact ih s hs (valid_childrenOf h hfield hobject)
    rw [resolve_of_valid (valid_merge h), resolve_of_valid h, Selection.fieldNames_merge]
    exact Prod.ext (List.map_congr_left fun name hname => by rw [hresult name hname])
      (List.flatMap_congr fun name hname => by rw [hresult name hname])

end

end Execution

/-- A valid query can be written with its selections merged, no name twice on a level, and however this
is done it has the same answer: the same data with the keys in the same order, and the same faults. -/
theorem execute_merge {α : Type} {schema : Schema} {query : List Char} {d : Document}
    (hparse : Document.parse query = .ok d) (hvalid : ∀ s ∈ d.selections, Valid schema schema.query s)
    (resolver : Resolver α) (source : α) :
    (∃ merged, Document.parse merged = .ok d.merge) ∧ Selection.Distinct d.merge.selections ∧
    ∃ data faults, execute schema query resolver source = ⟨some data, faults⟩ ∧
      ∀ merged, Document.parse merged = .ok d.merge →
        execute schema merged resolver source = ⟨some data, faults⟩ := by
  have hrun := execute_of_validate_eq_nil hparse (validate_eq_nil_iff.mpr hvalid) resolver source
  refine ⟨(Document.printable_of_parse hparse).merge.exists_text, Selection.distinct_merge d.selections,
    _, _, hrun, fun merged hmerged => ?_⟩
  have hmergedRun := execute_of_validate_eq_nil hmerged
    (validate_eq_nil_iff.mpr (valid_merge hvalid)) resolver source
  rw [hmergedRun, Document.merge, resolve_merge hvalid]

/-- The document of `staff` with `user` and `boss` merged. -/
def mergedStaffQuery : List Char :=
  "\x7b user \x7b boss \x7b name boss \x7b name \x7d \x7d name \x7d size \x7d".toList

theorem execute_merge_staff :
    Document.parse staffQuery = .ok staffDocument ∧
    (∀ s ∈ staffDocument.selections, Valid Schema.staff Schema.staff.query s) ∧
    Document.parse mergedStaffQuery = .ok staffDocument.merge ∧
    Selection.Distinct staffDocument.merge.selections ∧
    execute Schema.staff mergedStaffQuery Json.resolver staffRoot =
      execute Schema.staff staffQuery Json.resolver staffRoot := by
  have hmerged : Document.parse mergedStaffQuery = .ok staffDocument.merge := by cbv
  have hvalid : ∀ s ∈ staffDocument.selections, Valid Schema.staff Schema.staff.query s :=
    validate_eq_nil_iff.mp (by cbv)
  obtain ⟨-, hdistinct, data, faults, hrun, hsame⟩ :=
    execute_merge parse_staffQuery hvalid Json.resolver staffRoot
  exact ⟨parse_staffQuery, hvalid, hmerged, hdistinct, (hsame mergedStaffQuery hmerged).trans hrun.symm⟩

end RouteQuery
