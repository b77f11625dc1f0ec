import RouteQuery.Proofs.Answering
import RouteQuery.Proofs.Reachable
import RouteQuery.Proofs.RouteBlocks

/-! Routable queries. They are the ones that are answered, each with the tree of its merged
selections; in all others the selections that do not fit are counted. -/
namespace RouteQuery
open Execution

/-- There is no null in it, at any depth. -/
inductive Json.NullFree : Json → Prop
  | bool (b : Bool) : NullFree (.bool b)
  | num (n : Json.Number) : NullFree (.num n)
  | str (s : String) : NullFree (.str s)
  | arr {items : List Json} (h : ∀ v ∈ items, NullFree v) : NullFree (.arr items)
  | obj {members : List (String × Json)} (h : ∀ m ∈ members, NullFree m.2) : NullFree (.obj members)

namespace Execution

/-- The selections that are not named `name`. -/
def othersThan (name : String) (selections : List Selection) : List Selection :=
  selections.filter (·.name ≠ name)

theorem mem_of_mem_othersThan {name : String} {selections : List Selection} {s : Selection}
    (h : s ∈ othersThan name selections) : s ∈ selections := List.mem_of_mem_filter h

theorem weight_othersThan_le (name : String) (selections : List Selection) :
    weight (othersThan name selections) ≤ weight selections := by
  unfold othersThan
  induction selections with
  | nil => simp
  | cons s rest ih =>
    rw [List.filter_cons, weight_cons]
    split
    · rw [weight_cons]
      omega
    · omega

theorem fieldNames_cons (s : Selection) (rest : List Selection) :
    fieldNames (s :: rest) = s.name :: fieldNames (othersThan s.name rest) := by
  have hfilter : (rest.map Selection.name).filter (fun n => !n == s.name) =
      (othersThan s.name rest).map Selection.name := by
    rw [List.filter_map]
    congr 1
    exact List.filter_congr fun t _ => by
      by_cases h : t.name = s.name <;> simp [h]
  rw [fieldNames_eq_eraseDups, fieldNames_eq_eraseDups, List.map_cons, List.eraseDups_cons, hfilter]

theorem childrenOf_othersThan {name other : String} (h : name ≠ other) (selections : List Selection) :
    childrenOf name (othersThan other selections) = childrenOf name selections := by
  rw [childrenOf_eq_flatMap, childrenOf_eq_flatMap, othersThan, List.filter_filter]
  congr 1
  refine List.filter_congr fun t _ => ?_
  by_cases ht : t.name = name
  · simp [ht, h]
  · simp [ht]

/-- Answers name by name: first the one for the first selection, then those for the selections of
other names. -/
theorem map_fieldNames_cons {β : Type} (f : String → List Selection → β) (s : Selection)
    (rest : List Selection) :
    ((fieldNames (s :: rest)).map fun n => f n (childrenOf n (s :: rest))) =
      f s.name (s.children ++ childrenOf s.name rest) ::
        (fieldNames (othersThan s.name rest)).map fun n =>
          f n (childrenOf n (othersThan s.name rest)) := by
  rw [fieldNames_cons, List.map_cons]
  congr 1
  · rw [childrenOf, if_pos rfl]
  · refine List.map_congr_left fun n hn => ?_
    obtain ⟨t, ht, rfl⟩ := Vocabulary.mem_fieldNames.mp hn
    have hne : t.name ≠ s.name := by simpa using (List.mem_filter.mp ht).2
    rw [childrenOf_othersThan hne, childrenOf, if_neg hne.symm]

end Execution

namespace Selection

@[simp] theorem name_leaf (n : String) : (leaf n).name = n := rfl

@[simp] theorem name_branch (n : String) (children : List Selection) :
    (branch n children).name = n := rfl

@[simp] theorem children_leaf (n : String) : (leaf n).children = [] := rfl

@[simp] theorem children_branch (n : String) (below : List Selection) :
    (branch n below).children = below := rfl

def withChildren : Selection → List Selection → Selection
  | leaf n, _ => leaf n
  | branch n _, children => branch n children

@[simp] theorem withChildren_leaf (n : String) (below : List Selection) :
    (leaf n).withChildren below = leaf n := rfl

@[simp] theorem withChildren_branch (n : String) (old below : List Selection) :
    (branch n old).withChildren below = branch n below := rfl

/-- Selections of one name are joined where the first of them stands, and so are those below them. -/
def merge : List Selection → List Selection
  | [] => []
  | s :: rest =>
    s.withChildren (merge (s.children ++ childrenOf s.name rest)) ::
      merge (othersThan s.name rest)
termination_by selections => weight selections
decreasing_by
  · have := weight_childrenOf_le s.name rest
    rw [weight_append, weight_cons]
    omega
  · have := weight_othersThan_le s.name rest
    rw [weight_cons]
    omega

/-- The tree of selections, with the name of each leaf as its value. -/
def data : List Selection → List (String × Json)
  | [] => []
  | leaf n :: rest => (n, .str n) :: data rest
  | branch n children :: rest => (n, .obj (data children)) :: data rest

theorem nullFree_data (selections : List Selection) :
    ∀ member ∈ data selections, member.2.NullFree := by
  fun_induction data selections with
  | case1 => simp
  | case2 n rest ih => exact List.forall_mem_cons.mpr ⟨.str n, ih⟩
  | case3 n children rest ihc ih => exact List.forall_mem_cons.mpr ⟨.obj ihc, ih⟩

/-! ### What may stand where -/

section
variable (paths tasks : List String)

def IsTask (s : Selection) : Prop := ∃ n ∈ tasks, s = leaf n

def IsVerb (s : Selection) : Prop :=
  ∃ (verb : Verb) (children : List Selection), s = branch verb.name children ∧
    ∀ c ∈ children, IsTask tasks c

def IsPath (s : Selection) : Prop :=
  ∃ n ∈ paths, ∃ children, s = branch n children ∧ ∀ c ∈ children, IsVerb tasks c

/-- Whether a selection may stand on a level, apart from what is below it. -/
def fits : Vocabulary.Node → Selection → Bool
  | .paths, branch n _ => n ∈ paths
  | .verbs, branch n _ => (Verb.ofName? n).isSome
  | .tasks, leaf n => n ∈ tasks
  | _, _ => false

def levelBelow : Vocabulary.Node → Vocabulary.Node
  | .paths => .verbs
  | .verbs | .tasks => .tasks

/-- The selections that may not stand where they do. None is looked for below one of them. -/
def offending (level : Vocabulary.Node) : List Selection → List Selection
  | [] => []
  | leaf n :: rest =>
    (if fits paths tasks level (leaf n) then [] else [leaf n]) ++ offending level rest
  | branch n children :: rest =>
    (if fits paths tasks level (branch n children) then offending (levelBelow level) children
      else [branch n children]) ++ offending level rest

variable {paths tasks}

theorem isTask_iff {s : Selection} : IsTask tasks s ↔ taskFaults tasks s = 0 :=
  taskFaults_eq_zero_iff.symm

theorem isVerb_iff {s : Selection} : IsVerb tasks s ↔ verbFaults tasks s = 0 := by
  rw [verbFaults_eq_zero_iff, IsVerb]
  constructor
  · rintro ⟨verb, children, rfl, h⟩
    exact ⟨_, children, rfl, by simp, fun c hc => isTask_iff.mp (h c hc)⟩
  · rintro ⟨n, children, rfl, hn, h⟩
    obtain ⟨verb, -, rfl⟩ := List.mem_map.mp (Vocabulary.mem_verbNames.mpr hn)
    exact ⟨verb, children, rfl, fun c hc => isTask_iff.mpr (h c hc)⟩

theorem isPath_iff {s : Selection} : IsPath paths tasks s ↔ pathFaults paths tasks s = 0 := by
  rw [pathFaults_eq_zero_iff, IsPath]
  simp only [isVerb_iff]
  constructor
  · rintro ⟨n, hn, children, rfl, h⟩
    exact ⟨n, children, rfl, hn, h⟩
  · rintro ⟨n, children, rfl, hn, h⟩
    exact ⟨n, hn, children, rfl, h⟩

/-- Counting level by level counts the selections at fault. -/
theorem length_offending_eq_total {level : Vocabulary.Node} {faults : Selection → Nat}
    (hleaf : ∀ n, faults (leaf n) = if fits paths tasks level (leaf n) then 0 else 1)
    (hbranch : ∀ n children, faults (branch n children) =
      if fits paths tasks level (branch n children) then
        (offending paths tasks (levelBelow level) children).length
      else 1) (selections : List Selection) :
    (offending paths tasks level selections).length = total faults selections := by
  induction selections with
  | nil => simp [offending]
  | cons s rest ih =>
    rw [total_cons, ← ih]
    cases s with
    | leaf n =>
      rw [offending, List.length_append, hleaf]
      split <;> rfl
    | branch n children =>
      rw [offending, List.length_append, hbranch]
      split <;> rfl

theorem length_offending_tasks (selections : List Selection) :
    (offending paths tasks .tasks selections).length = total (taskFaults tasks) selections :=
  length_offending_eq_total (fun n => by simp [taskFaults, fits])
    (fun n children => by simp [taskFaults, fits]) selections

theorem length_offending_verbs (selections : List Selection) :
    (offending paths tasks .verbs selections).length = total (verbFaults tasks) selections :=
  length_offending_eq_total (fun n => by simp [verbFaults, fits])
    (fun n children => by rw [levelBelow, length_offending_tasks]; rfl) selections

theorem length_offending (selections : List Selection) :
    (offending paths tasks .paths selections).length = total (pathFaults paths tasks) selections :=
  length_offending_eq_total (fun n => by simp [pathFaults, fits])
    (fun n children => by simp [pathFaults, fits, levelBelow, length_offending_verbs]) selections

/-! ### Answers as merged trees -/

theorem taskAnswers_eq {selections : List Selection}
    (h : ∀ s ∈ selections, taskFaults tasks s = 0) :
    taskAnswers selections = data (merge selections) := by
  fun_induction merge selections with
  | case1 =>
    rw [data]
    rfl
  | case2 s rest _ ih =>
    rw [List.forall_mem_cons] at h
    obtain ⟨n, -, rfl⟩ := taskFaults_eq_zero_iff.mp h.1
    have hrest := ih fun t ht => h.2 t (mem_of_mem_othersThan ht)
    rw [taskAnswers, map_fieldNames_cons fun n _ => (n, Json.str n), withChildren, data, ← hrest]
    rfl

/-- On a level of branches the answers are trees when the answers below are. -/
theorem branchAnswers_eq (P : Selection → Prop) {below : List Selection → List (String × Json)}
    (hbelow : ∀ {children : List Selection}, (∀ c ∈ children, P c) →
      below children = data (merge children)) {selections : List Selection}
    (h : ∀ s ∈ selections, ∃ n children, s = branch n children ∧ ∀ c ∈ children, P c) :
    ((fieldNames selections).map fun n => (n, Json.obj (below (childrenOf n selections)))) =
      data (merge selections) := by
  fun_induction merge selections with
  | case1 =>
    rw [data]
    rfl
  | case2 s rest _ ih =>
    have hchildren : ∀ c ∈ s.children ++ childrenOf s.name rest, P c := by
      intro c hc
      have hc : c ∈ childrenOf s.name (s :: rest) := by rwa [childrenOf, if_pos rfl]
      obtain ⟨t, ht, -, hc⟩ := mem_childrenOf.mp hc
      obtain ⟨n, children, rfl, hbelow⟩ := h t ht
      exact hbelow c hc
    rw [List.forall_mem_cons] at h
    obtain ⟨n, children, rfl, -⟩ := h.1
    have hrest := ih fun t ht => h.2 t (mem_of_mem_othersThan ht)
    rw [map_fieldNames_cons fun n children => (n, Json.obj (below children)), hbelow hchildren,
      withChildren, data, ← hrest]
    rfl

theorem verbAnswers_eq {selections : List Selection}
    (h : ∀ s ∈ selections, verbFaults tasks s = 0) :
    verbAnswers selections = data (merge selections) := by
  refine branchAnswers_eq (taskFaults tasks · = 0) taskAnswers_eq fun s hs => ?_
  obtain ⟨n, children, rfl, -, hchildren⟩ := verbFaults_eq_zero_iff.mp (h s hs)
  exact ⟨n, children, rfl, hchildren⟩

theorem pathAnswers_eq {selections : List Selection}
    (h : ∀ s ∈ selections, pathFaults paths tasks s = 0) :
    pathAnswers selections = data (merge selections) := by
  refine branchAnswers_eq (verbFaults tasks · = 0) verbAnswers_eq fun s hs => ?_
  obtain ⟨n, children, rfl, -, hchildren⟩ := pathFaults_eq_zero_iff.mp (h s hs)
  exact ⟨n, children, rfl, hchildren⟩

end

end Selection

/-- Nothing goes wrong in an answer once the selections have been checked. -/
theorem Vocabulary.ofSelection_of_execute {v : Vocabulary} {query : List Char} {d : Document}
    (hparse : Document.parse query = .ok d) :
    ∀ f ∈ (execute v.schema query (resolver v.paths v.tasks) .paths).faults, f.OfSelection := by
  by_cases hzero : v.faults d.selections = 0
  · simp [execute_of_allowed hparse hzero]
  · rw [execute_of_faults hparse hzero]
    exact fun f hf => ofSelection_of_mem_validate hf

namespace Site

/-- The answer that the routes of a query are made from. -/
def answer (s : Site) (query : List Char) : Except Fault (List (String × Json)) :=
  s.vocabulary.answer query s.registry.pathIdentifiers s.registry.taskNames

/-- Registered paths, with verbs below them, and registered tasks below these. -/
def Routable (s : Site) (d : Document) : Prop :=
  ∀ sel ∈ d.selections, sel.IsPath s.registry.pathIdentifiers s.registry.taskNames

def offending (s : Site) (d : Document) : List Selection :=
  Selection.offending s.registry.pathIdentifiers s.registry.taskNames .paths d.selections

section
variable {s : Site} {query : List Char} {d : Document}

theorem length_offending (s : Site) (d : Document) :
    (s.offending d).length = s.registry.vocabulary.faults d.selections :=
  Selection.length_offending d.selections

theorem routable_iff : s.Routable d ↔ s.registry.vocabulary.faults d.selections = 0 := by
  rw [Vocabulary.faults, Selection.total_eq_zero_iff]
  exact forall₂_congr fun _ _ => Selection.isPath_iff

theorem answer_eq (h : s.Consistent) (hparse : Document.parse query = .ok d) :
    s.answer query = if s.registry.vocabulary.faults d.selections = 0
      then .ok (Selection.pathAnswers d.selections)
      else .error (.failedQuery (s.registry.vocabulary.faults d.selections)) := by
  have hanswer := Vocabulary.answer_eq h.registry.vocabulary_wellFormed query
  rw [hparse] at hanswer
  rw [answer, h.vocabulary]
  exact hanswer

theorem answer_of_routable (h : s.Consistent) (hparse : Document.parse query = .ok d)
    (hroutable : s.Routable d) :
    s.answer query = .ok (Selection.data (Selection.merge d.selections)) := by
  have hzero := routable_iff.mp hroutable
  have htree := Selection.pathAnswers_eq (Selection.total_eq_zero_iff.mp hzero)
  rw [answer_eq h hparse, if_pos hzero, htree]

theorem answer_of_not_routable (h : s.Consistent) (hparse : Document.parse query = .ok d)
    (hroutable : ¬s.Routable d) :
    s.answer query = .error (.failedQuery (s.offending d).length) := by
  rw [answer_eq h hparse, if_neg (mt routable_iff.mpr hroutable), length_offending]

/-- A query whose text can be read is answered exactly when it is routable, with the merged tree of
its selections. Otherwise the selections at fault are counted, and there are some. No fault is ever
met on the way to the values. -/
theorem Reachable.answer_merged (h : s.Reachable) (hparse : Document.parse query = .ok d) :
    ((∃ data, s.answer query = .ok data) ↔ s.Routable d) ∧
    (s.Routable d → s.answer query = .ok (Selection.data (Selection.merge d.selections)) ∧
      (Json.obj (Selection.data (Selection.merge d.selections))).NullFree) ∧
    (¬s.Routable d → s.answer query = .error (.failedQuery (s.offending d).length) ∧
      1 ≤ (s.offending d).length) ∧
    ∃ schema, Schema.compile s.vocabulary.schemaText.toList = .ok schema ∧
      ∀ f ∈ (execute schema query
        (Vocabulary.resolver s.registry.pathIdentifiers s.registry.taskNames) .paths).faults,
        f.OfSelection := by
  have hs := h.consistent
  refine ⟨⟨?_, fun hroutable => ⟨_, answer_of_routable hs hparse hroutable⟩⟩, ?_, ?_, ?_⟩
  · rintro ⟨data, hdata⟩
    by_contra hroutable
    rw [answer_of_not_routable hs hparse hroutable] at hdata
    cases hdata
  · exact fun hroutable =>
      ⟨answer_of_routable hs hparse hroutable, .obj (Selection.nullFree_data _)⟩
  · intro hroutable
    refine ⟨answer_of_not_routable hs hparse hroutable, ?_⟩
    rw [length_offending]
    exact Nat.one_le_iff_ne_zero.mpr (mt routable_iff.mpr hroutable)
  · rw [hs.vocabulary]
    exact ⟨_, Vocabulary.compile_schemaText hs.registry.vocabulary_wellFormed,
      Vocabulary.ofSelection_of_execute (v := s.registry.vocabulary) hparse⟩

end

theorem isPath_blocks {paths tasks known : List String} {blocks : List RouteBlock}
    (hvalid : ∀ b ∈ blocks, b.Valid tasks) (htasks : tasks ⊆ known)
    (hpaths : ∀ b ∈ blocks, Escape.encode b.path ∈ paths) :
    ∀ sel ∈ (blocks.map RouteBlock.escaped).map RouteBlock.selection, sel.IsPath paths known := by
  rw [List.forall_mem_map, List.forall_mem_map]
  refine fun b hb => ⟨_, hpaths b hb, _, rfl, ?_⟩
  rw [List.forall_mem_map]
  refine fun v hv => ⟨v.1, _, rfl, ?_⟩
  rw [List.forall_mem_map]
  exact fun t ht => ⟨t, htasks ((hvalid b hb).tasks v hv t ht), rfl⟩

/-- The query of valid blocks is routable where their paths are registered. -/
theorem routable_blocks {s : Site} {tasks : List String} {blocks : List RouteBlock}
    (hvalid : ∀ b ∈ blocks, b.Valid tasks) (htasks : tasks ⊆ s.registry.taskNames)
    (hpaths : ∀ b ∈ blocks, Escape.encode b.path ∈ s.registry.pathIdentifiers) :
    s.Routable ⟨none, (blocks.map RouteBlock.escaped).map RouteBlock.selection⟩ :=
  isPath_blocks hvalid htasks hpaths

theorem valid_interleaved :
    ∀ b ∈ RouteBlock.interleaved, b.Valid ["log_request", "hello"] := by
  rw [RouteBlock.interleaved, List.forall_mem_cons, List.forall_mem_cons, List.forall_mem_singleton]
  exact ⟨⟨⟨by decide, List.all_eq_true.mp (by decide)⟩, by decide, by decide, by decide⟩,
    ⟨⟨by decide, List.all_eq_true.mp (by decide)⟩, by decide, by decide, by decide⟩,
    ⟨⟨by decide, List.all_eq_true.mp (by decide)⟩, by decide, by decide, by decide⟩⟩

/-- From any site a program can get to one with the paths of these blocks. -/
theorem Reachable.exists_interleaved {s : Site} (h : s.Reachable) :
    ∃ s' : Site, s'.Reachable ∧ s'.registry.taskNames = s.registry.taskNames ∧
      ∀ b ∈ RouteBlock.interleaved, Escape.encode b.path ∈ s'.registry.pathIdentifiers := by
  have hload := RouteBlock.load_queryText ⟨"/", []⟩ (List.cons_ne_nil _ _) valid_interleaved
    (by decide)
  obtain ⟨s', hs', htasks, added, -, hadded, hpaths⟩ := h.exists_withPaths hload
  refine ⟨s', hs', congrArg (List.map Task.name) htasks, fun b hb => ?_⟩
  have hfound := RouteBlock.mem_pathIdentifiers_queryText valid_interleaved (by decide) hb
  rw [hpaths, List.mem_append, hadded]
  by_cases hold : Escape.encode b.path ∈ s.registry.pathIdentifiers
  · exact .inl hold
  · exact .inr ⟨List.mem_eraseDups.mpr hfound, hold⟩

/-- The blocks as a query is read. -/
def interleavedDocument : Document where
  operation := none
  selections :=
    [.branch "_slash_a" [.branch "GET" [.leaf "log_request"]],
      .branch "_slash_b_dot__asterisk__slash_" [.branch "PUT" [.leaf "hello"]],
      .branch "_slash_a" [.branch "GET" [.leaf "hello", .leaf "log_request"]]]

theorem interleavedDocument_eq : interleavedDocument =
    ⟨none, (RouteBlock.interleaved.map RouteBlock.escaped).map RouteBlock.selection⟩ := rfl

/-- With its tasks a query is answered with one tree for both blocks of the path `/a`. Without them
each of the four places where it names a task counts. -/
theorem answer_merged_interleaved :
    (∃ s : Site, s.Reachable ∧
      s.answer (Escape.encodeChars (RouteBlock.queryText RouteBlock.interleaved).toList) =
        .ok [("_slash_a", .obj [("GET", .obj [("log_request", .str "log_request"),
            ("hello", .str "hello")])]),
          ("_slash_b_dot__asterisk__slash_", .obj [("PUT", .obj [("hello", .str "hello")])])]) ∧
    ∃ s : Site, s.Reachable ∧
      s.answer (Escape.encodeChars (RouteBlock.queryText RouteBlock.interleaved).toList) =
        .error (.failedQuery 4) := by
  have hempty : Reachable {} := .new .empty
  have hne : RouteBlock.interleaved ≠ [] := List.cons_ne_nil _ _
  have hparse := RouteBlock.parse_queryText hne valid_interleaved (by decide)
  rw [← interleavedDocument_eq] at hparse
  constructor
  · obtain ⟨s, hs, htasks, hpaths⟩ := reachable_stocked.exists_interleaved
    have hroutable : s.Routable interleavedDocument := by
      rw [interleavedDocument_eq]
      exact routable_blocks valid_interleaved (by rw [htasks]; decide) hpaths
    refine ⟨s, hs, ?_⟩
    rw [((hs.answer_merged hparse).2.1 hroutable).1]
    simp [interleavedDocument, Selection.merge, childrenOf, othersThan, Selection.data]
  · obtain ⟨s, hs, htasks, hpaths⟩ := hempty.exists_interleaved
    have hnone : s.registry.taskNames = [] := htasks
    have hcount : (s.offending interleavedDocument).length = 4 := by
      have hencode : Escape.encode "/a" = "_slash_a" := by decide
      have hencode' : Escape.encode "/b.*/" = "_slash_b_dot__asterisk__slash_" := by decide
      rw [RouteBlock.interleaved, List.forall_mem_cons, List.forall_mem_cons, hencode, hencode']
        at hpaths
      have hget : (Verb.ofName? "GET").isSome = true := rfl
      have hput : (Verb.ofName? "PUT").isSome = true := rfl
      simp [offending, interleavedDocument, Selection.offending, Selection.levelBelow,
        Selection.fits, hpaths, hget, hput, hnone]
    have hroutable : ¬s.Routable interleavedDocument := by
      rw [routable_iff, ← length_offending, hcount]
      decide
    refine ⟨s, hs, ?_⟩
    rw [((hs.answer_merged hparse).2.2.1 hroutable).1, hcount]

end Site
end RouteQuery
