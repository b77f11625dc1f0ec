import RouteQuery.Proofs.Answering
import RouteQuery.Proofs.QueryPrinting

/-! Route blocks: what a query without annotations consists of, how it is written, and what it is
read as. -/
namespace RouteQuery
open Text

/-- The verbs for one path, each with the tasks to run. -/
structure RouteBlock where
  path : String
  verbs : List (Verb × List String)

namespace RouteBlock

def verbSelection (v : Verb × List String) : Selection := .branch v.1.name (v.2.map .leaf)

def selection (b : RouteBlock) : Selection := .branch b.path (b.verbs.map verbSelection)

def queryText (blocks : List RouteBlock) : String :=
  "\x7b " ++ Selection.text (blocks.map selection) ++ "\x7d"

/-- Two blocks for one path, with a regular expression between them. -/
def interleaved : List RouteBlock :=
  [⟨"/a", [(.get, ["log_request"])]⟩, ⟨"/b.*/", [(.put, ["hello"])]⟩,
    ⟨"/a", [(.get, ["hello", "log_request"])]⟩]

example : queryText interleaved = "\x7b /a \x7b GET \x7b log_request \x7d \x7d /b.*/ \x7b PUT " ++
    "\x7b hello \x7d \x7d /a \x7b GET \x7b hello log_request \x7d \x7d \x7d" := by cbv

def escaped (b : RouteBlock) : RouteBlock := { b with path := Escape.encode b.path }

/-- A block with nothing left out, whose tasks are among the given ones. -/
structure Valid (tasks : List String) (b : RouteBlock) : Prop where
  path : RoutePath.IsText b.path
  verbs : b.verbs ≠ []
  chains : ∀ v ∈ b.verbs, v.2 ≠ []
  tasks : ∀ v ∈ b.verbs, ∀ t ∈ v.2, t ∈ tasks

def verbsAt (blocks : List RouteBlock) (path : String) : List (Verb × List String) :=
  (blocks.filter (·.path = path)).flatMap (·.verbs)

/-- All tasks for a verb, in the order of the query. -/
def tasksAt (verbs : List (Verb × List String)) (verb : Verb) : List String :=
  (verbs.filter (·.1 = verb)).flatMap (·.2)

end RouteBlock

namespace Selection
open RouteBlock

variable {P : String → Prop}

theorem allNames_leaves {tasks : List String} :
    AllNames P (tasks.map leaf) ↔ ∀ t ∈ tasks, P t := by
  induction tasks with
  | nil => simp [AllNames]
  | cons t tasks ih => simp [AllNames, ih]

theorem allNames_verbs {verbs : List (Verb × List String)} :
    AllNames P (verbs.map verbSelection) ↔ ∀ v ∈ verbs, P v.1.name ∧ ∀ t ∈ v.2, P t := by
  induction verbs with
  | nil => simp [AllNames]
  | cons v verbs ih => simp [AllNames, ih, verbSelection, allNames_leaves, and_assoc]

theorem allNames_blocks {blocks : List RouteBlock} :
    AllNames P (blocks.map selection) ↔
      ∀ b ∈ blocks, P b.path ∧ ∀ v ∈ b.verbs, P v.1.name ∧ ∀ t ∈ v.2, P t := by
  induction blocks with
  | nil => simp [AllNames]
  | cons b blocks ih => simp [AllNames, ih, selection, allNames_verbs, and_assoc]

theorem filled_leaves (tasks : List String) : Filled (tasks.map leaf) := by
  induction tasks with
  | nil => simp [Filled]
  | cons t tasks ih => simp [Filled, ih]

theorem filled_verbs {verbs : List (Verb × List String)} :
    Filled (verbs.map verbSelection) ↔ ∀ v ∈ verbs, v.2 ≠ [] := by
  induction verbs with
  | nil => simp [Filled]
  | cons v verbs ih => simp [Filled, ih, verbSelection, filled_leaves]

theorem filled_blocks {blocks : List RouteBlock} :
    Filled (blocks.map selection) ↔ ∀ b ∈ blocks, b.verbs ≠ [] ∧ ∀ v ∈ b.verbs, v.2 ≠ [] := by
  induction blocks with
  | nil => simp [Filled]
  | cons b blocks ih => simp [Filled, ih, selection, filled_verbs, and_assoc]

theorem mem_tokens {s : Selection} {selections : List Selection} (h : s ∈ selections) :
    .name s.name ∈ tokens selections := by
  induction selections with
  | nil => cases h
  | cons t selections ih =>
    rcases List.mem_cons.mp h with rfl | h
    · cases s <;> rw [tokens] <;> exact List.mem_cons_self
    · have hrest := ih h
      cases t with
      | leaf n =>
        rw [tokens]
        exact List.mem_cons_of_mem _ hrest
      | branch n children =>
        rw [tokens]
        simp [hrest]

theorem mem_text {Q : Char → Prop} (hspace : Q ' ') (hopen : Q '{') (hclose : Q '}')
    {selections : List Selection} (h : AllNames (fun n => ∀ c ∈ n.toList, Q c) selections) :
    ∀ c ∈ (text selections).toList, Q c := by
  fun_induction text selections with
  | case1 => simp
  | case2 n selections ih =>
    rw [AllNames] at h
    have hrest := ih h.2
    have hblank : ∀ c ∈ " ".toList, Q c := by simp [hspace]
    simp only [String.toList_append, List.mem_append]
    rintro c ((hc | hc) | hc)
    · exact h.1 c hc
    · exact hblank c hc
    · exact hrest c hc
  | case3 n children selections ihc ih =>
    rw [AllNames] at h
    have hchildren := ihc h.2.1
    have hrest := ih h.2.2
    have hopening : ∀ c ∈ " \x7b ".toList, Q c := by
      simp [hspace, hopen]
    have hclosing : ∀ c ∈ "\x7d ".toList, Q c := by
      simp [hspace, hclose]
    simp only [String.toList_append, List.mem_append]
    rintro c ((((hc | hc) | hc) | hc) | hc)
    · exact h.1 c hc
    · exact hopening c hc
    · exact hchildren c hc
    · exact hclosing c hc
    · exact hrest c hc

end Selection

theorem Verb.isIdentifier_name (v : Verb) : isIdentifier v.name = true := by cases v <;> decide

theorem Verb.name_inj {v v' : Verb} (h : v.name = v'.name) : v = v' := by
  cases v <;> cases v' <;> first | rfl | exact absurd h (by decide)

@[simp] theorem Verb.ofName?_name (v : Verb) : Verb.ofName? v.name = some v := by cases v <;> decide

namespace RouteBlock
open Escape Execution

variable {tasks : List String} {blocks : List RouteBlock} {verbs : List (Verb × List String)}

theorem mem_of_mem_tasksAt (hvalid : ∀ b ∈ blocks, Valid tasks b) {path : String} {verb : Verb}
    {t : String} (h : t ∈ tasksAt (verbsAt blocks path) verb) : t ∈ tasks := by
  obtain ⟨v, hv, ht⟩ := List.mem_flatMap.mp h
  obtain ⟨b, hb, hv⟩ := List.mem_flatMap.mp (List.mem_of_mem_filter hv)
  exact (hvalid b (List.mem_of_mem_filter hb)).tasks v hv t ht

theorem allNames_verbs_of_tasks {Q : Char → Prop} (hword : ∀ c, isWordChar c = true → Q c)
    (h : ∀ v ∈ verbs, ∀ t ∈ v.2, isIdentifier t = true) :
    Selection.AllNames (fun n => ∀ c ∈ n.toList, Q c) (verbs.map verbSelection) := by
  have hidentifier : ∀ n, isIdentifier n = true → ∀ c ∈ n.toList, Q c := fun n hn c hc =>
    hword c (List.all_eq_true.mp (all_isWordChar_of_isIdentifier hn) c hc)
  exact Selection.allNames_verbs.mpr fun v hv =>
    ⟨hidentifier _ v.1.isIdentifier_name, fun t ht => hidentifier t (h v hv t ht)⟩

theorem text_block (b : RouteBlock) (rest : List Selection) :
    Selection.text (b.selection :: rest) = b.path ++ " \x7b " ++
      Selection.text (b.verbs.map verbSelection) ++ "\x7d " ++ Selection.text rest := by
  rw [selection, Selection.text]

/-- Escaping a query escapes its paths and nothing else. -/
theorem encodeChars_text (h : ∀ b ∈ blocks, ∀ v ∈ b.verbs, ∀ t ∈ v.2, isIdentifier t = true) :
    encodeChars (Selection.text (blocks.map selection)).toList =
      (Selection.text ((blocks.map escaped).map selection)).toList := by
  induction blocks with
  | nil => simp [Selection.text, encodeChars]
  | cons b blocks ih =>
    simp only [List.mem_cons, forall_eq_or_imp] at h
    have hverbs : encodeChars (Selection.text (b.verbs.map verbSelection)).toList =
        (Selection.text (b.verbs.map verbSelection)).toList := by
      apply encodeChars_of_not_reserved
      exact Selection.mem_text (by decide) (by decide) (by decide)
        (allNames_verbs_of_tasks (fun _ => tokenFor?_of_isWordChar) h.1)
    have hopening : encodeChars " \x7b ".toList = " \x7b ".toList := by decide
    have hclosing : encodeChars "\x7d ".toList = "\x7d ".toList := by decide
    have hpath : b.escaped.path.toList = encodeChars b.path.toList := String.toList_ofList
    have hsame : b.escaped.verbs = b.verbs := rfl
    simp only [List.map_cons, text_block, String.toList_append, encodeChars_append, hverbs,
      hopening, hclosing, hpath, hsame, ih h.2]

theorem encodeChars_queryText (h : ∀ b ∈ blocks, ∀ v ∈ b.verbs, ∀ t ∈ v.2, isIdentifier t = true) :
    encodeChars (queryText blocks).toList = (queryText (blocks.map escaped)).toList := by
  have hopening : encodeChars "\x7b ".toList = "\x7b ".toList := by decide
  have hclosing : encodeChars "\x7d".toList = "\x7d".toList := by decide
  simp only [queryText, String.toList_append, encodeChars_append, hopening, hclosing,
    encodeChars_text h]

theorem openBrace_mem_queryText (blocks : List RouteBlock) : '{' ∈ (queryText blocks).toList := by
  simp [queryText]

theorem not_mem_queryText (hvalid : ∀ b ∈ blocks, Valid tasks b)
    (htasks : ∀ t ∈ tasks, isIdentifier t = true) :
    ∀ c ∈ (queryText blocks).toList, c ≠ '@' ∧ c ≠ '#' := by
  have hword : ∀ c, isWordChar c = true → c ≠ '@' ∧ c ≠ '#' := by
    intro c hc
    constructor <;> rintro rfl <;> exact absurd hc (by decide)
  have hpath : ∀ c, isPathChar c = true → c ≠ '@' ∧ c ≠ '#' := by
    intro c hc
    constructor <;> rintro rfl <;> exact absurd hc (by decide)
  have hnames : Selection.AllNames (fun n => ∀ c ∈ n.toList, c ≠ '@' ∧ c ≠ '#')
      (blocks.map selection) := by
    refine Selection.allNames_blocks.mpr fun b hb =>
      ⟨fun c hc => hpath c ((hvalid b hb).path.chars c hc), ?_⟩
    exact Selection.allNames_verbs.mp (allNames_verbs_of_tasks hword fun v hv t ht =>
      htasks t ((hvalid b hb).tasks v hv t ht))
  have htext := Selection.mem_text (Q := fun c => c ≠ '@' ∧ c ≠ '#') (by decide) (by decide)
    (by decide) hnames
  have hopening : ∀ c ∈ "\x7b ".toList, c ≠ '@' ∧ c ≠ '#' := by simp
  have hclosing : ∀ c ∈ "\x7d".toList, c ≠ '@' ∧ c ≠ '#' := by simp
  intro c hc
  simp only [queryText, String.toList_append, List.mem_append] at hc
  rcases hc with (hc | hc) | hc
  · exact hopening c hc
  · exact htext c hc
  · exact hclosing c hc

theorem tokens_queryText (hvalid : ∀ b ∈ blocks, Valid tasks b)
    (htasks : ∀ t ∈ tasks, isIdentifier t = true) :
    tokens (encodeChars (queryText blocks).toList) =
      .openBrace :: (Selection.tokens ((blocks.map escaped).map selection) ++ [.closeBrace]) := by
  have htask : ∀ b ∈ blocks, ∀ v ∈ b.verbs, ∀ t ∈ v.2, isIdentifier t = true := fun b hb v hv t ht =>
    htasks t ((hvalid b hb).tasks v hv t ht)
  have hnames : Selection.AllNames (isIdentifier · = true) ((blocks.map escaped).map selection) := by
    rw [Selection.allNames_blocks, List.forall_mem_map]
    exact fun b hb => ⟨QueryText.isIdentifier_of_isPathIdentifier (hvalid b hb).path.isPathIdentifier_encode,
      fun v hv => ⟨v.1.isIdentifier_name, htask b hb v hv⟩⟩
  rw [encodeChars_queryText htask, queryText, String.toList_append, String.toList_append,
    List.append_assoc]
  change tokens ('{' :: ' ' :: (_ ++ ['}'])) = _
  rw [tokens_openBrace, tokens_space, Selection.tokens_text hnames, tokens_closeBrace, tokens_nil]

theorem filled_selections (hvalid : ∀ b ∈ blocks, Valid tasks b) :
    Selection.Filled ((blocks.map escaped).map selection) := by
  rw [Selection.filled_blocks, List.forall_mem_map]
  exact fun b hb => ⟨(hvalid b hb).verbs, (hvalid b hb).chains⟩

theorem parse_queryText (hne : blocks ≠ []) (hvalid : ∀ b ∈ blocks, Valid tasks b)
    (htasks : ∀ t ∈ tasks, isIdentifier t = true) :
    Document.parse (encodeChars (queryText blocks).toList) =
      .ok ⟨none, (blocks.map escaped).map selection⟩ := by
  have htokens := tokens_queryText hvalid htasks
  exact Document.parse_of_tokens (by simpa using hne) (filled_selections hvalid) htokens

theorem mem_pathIdentifiers_queryText (hvalid : ∀ b ∈ blocks, Valid tasks b)
    (htasks : ∀ t ∈ tasks, isIdentifier t = true) {b : RouteBlock} (hb : b ∈ blocks) :
    encode b.path ∈ QueryText.pathIdentifiers (encodeChars (queryText blocks).toList) := by
  apply mem_pathIdentifiers_of_mem_tokens (hvalid b hb).path.isPathIdentifier_encode
  rw [tokens_queryText hvalid htasks]
  have hmem : b.escaped.selection ∈ (blocks.map escaped).map selection :=
    List.mem_map_of_mem (List.mem_map_of_mem hb)
  exact List.mem_cons_of_mem _ (List.mem_append_left _ (Selection.mem_tokens hmem))

/-- The query of blocks, loaded. -/
def prepared (blocks : List RouteBlock) : PreparedQuery where
  descriptors := []
  text := encodeChars (queryText blocks).toList
  paths := (QueryText.pathIdentifiers (encodeChars (queryText blocks).toList)).eraseDups

theorem load_queryText (w : Workspace) (hne : blocks ≠ []) (hvalid : ∀ b ∈ blocks, Valid tasks b)
    (htasks : ∀ t ∈ tasks, isIdentifier t = true) :
    PreparedQuery.load w (queryText blocks) = .ok (prepared blocks) := by
  have hchars := not_mem_queryText hvalid htasks
  have hload := PreparedQuery.load_of_plain (w := w) (openBrace_mem_queryText blocks)
    (fun hat => (hchars _ hat).1 rfl) (fun hhash => (hchars _ hhash).2 rfl)
  obtain ⟨b, hb⟩ := List.exists_mem_of_ne_nil blocks hne
  have hfound := List.ne_nil_of_mem (mem_pathIdentifiers_queryText hvalid htasks hb)
  obtain ⟨path, paths, hcons⟩ := List.exists_cons_of_ne_nil hfound
  rw [hload, prepared, hcons]

/-- Blocks may stand behind an annotation. -/
theorem load_annotated (w : Workspace) (hne : blocks ≠ []) (hvalid : ∀ b ∈ blocks, Valid tasks b)
    (htasks : ∀ t ∈ tasks, isIdentifier t = true) {line : String} {d : Descriptor}
    (hline : '\n' ∉ line.toList) (hhash : '#' ∉ line.toList)
    (hparse : Descriptor.parseLine ('@' :: line.toList) = .ok d) :
    PreparedQuery.load w ("@" ++ line ++ "\n" ++ queryText blocks) =
      .ok { prepared blocks with descriptors := [d], text := '\n' :: (prepared blocks).text } := by
  have hchars := not_mem_queryText hvalid htasks
  have hsource : ("@" ++ line ++ "\n" ++ queryText blocks).toList =
      '@' :: line.toList ++ '\n' :: (queryText blocks).toList := by simp
  have hplain : '#' ∉ line.toList ++ (queryText blocks).toList := by
    rw [List.mem_append, not_or]
    exact ⟨hhash, fun hmem => (hchars _ hmem).2 rfl⟩
  have hload := PreparedQuery.load_of_annotated (w := w) hsource hline hparse
    (openBrace_mem_queryText blocks) (fun hat => (hchars _ hat).1 rfl) hplain
  obtain ⟨b, hb⟩ := List.exists_mem_of_ne_nil blocks hne
  have hfound := List.ne_nil_of_mem (mem_pathIdentifiers_queryText hvalid htasks hb)
  obtain ⟨path, paths, hcons⟩ := List.exists_cons_of_ne_nil hfound
  rw [hload, prepared, hcons]

theorem parse_annotated (hne : blocks ≠ []) (hvalid : ∀ b ∈ blocks, Valid tasks b)
    (htasks : ∀ t ∈ tasks, isIdentifier t = true) :
    Document.parse ('\n' :: (prepared blocks).text) =
      .ok ⟨none, (blocks.map escaped).map selection⟩ := by
  have htokens := tokens_queryText hvalid htasks
  rw [← tokens_newline] at htokens
  exact Document.parse_of_tokens (by simpa using hne) (filled_selections hvalid) htokens

def verbData (verbs : List (Verb × List String)) : List (String × Json) :=
  (verbs.map (·.1)).eraseDups.map fun verb =>
    (verb.name, .obj ((tasksAt verbs verb).eraseDups.map fun t => (t, .str t)))

def pathData (blocks : List RouteBlock) : List (String × Json) :=
  (blocks.map (·.path)).eraseDups.map fun path =>
    (encode path, .obj (verbData (verbsAt blocks path)))

theorem taskAnswers_leaves (tasks : List String) :
    Selection.taskAnswers (tasks.map .leaf) = tasks.eraseDups.map fun t => (t, .str t) := by
  rw [Selection.taskAnswers, fieldNames_eq_eraseDups, List.map_map]
  congr 2
  exact List.map_id' tasks

theorem fieldNames_verbs (verbs : List (Verb × List String)) :
    fieldNames (verbs.map verbSelection) = (verbs.map (·.1)).eraseDups.map Verb.name :=
  fieldNames_map Verb.name (fun _ _ => rfl) fun _ _ _ _ => Verb.name_inj

theorem childrenOf_verbs (verbs : List (Verb × List String)) (verb : Verb) :
    childrenOf verb.name (verbs.map verbSelection) = (tasksAt verbs verb).map .leaf := by
  have hchildren : childrenOf verb.name (verbs.map verbSelection) =
      (verbs.filter (·.1 = verb)).flatMap fun v => (verbSelection v).children :=
    childrenOf_map Verb.name (fun _ _ => rfl) fun _ _ => Verb.name_inj
  rw [hchildren, tasksAt, List.map_flatMap]
  rfl

theorem verbAnswers_verbs (verbs : List (Verb × List String)) :
    Selection.verbAnswers (verbs.map verbSelection) = verbData verbs := by
  rw [Selection.verbAnswers, fieldNames_verbs, List.map_map, verbData]
  refine List.map_congr_left fun verb _ => ?_
  simp only [Function.comp_apply, childrenOf_verbs, taskAnswers_leaves]

theorem pathAnswers_blocks (h : ∀ b ∈ blocks, RoutePath.IsText b.path) :
    Selection.pathAnswers ((blocks.map escaped).map selection) = pathData blocks := by
  have hnames : fieldNames (blocks.map fun b => b.escaped.selection) =
      (blocks.map (·.path)).eraseDups.map encode :=
    fieldNames_map encode (fun _ _ => rfl) fun b hb c hc => (h b hb).encode_inj (h c hc)
  have hchildren : ∀ path ∈ (blocks.map (·.path)).eraseDups,
      childrenOf (encode path) (blocks.map fun b => b.escaped.selection) =
        (verbsAt blocks path).map verbSelection := by
    intro path hpath
    obtain ⟨b, hb, rfl⟩ := List.mem_map.mp (List.mem_eraseDups.mp hpath)
    have hmerged : childrenOf (encode b.path) (blocks.map fun b => b.escaped.selection) =
        (blocks.filter (·.path = b.path)).flatMap fun b => b.escaped.selection.children :=
      childrenOf_map encode (fun _ _ => rfl) fun c hc => (h c hc).encode_inj (h b hb)
    rw [hmerged, verbsAt, List.map_flatMap]
    rfl
  rw [List.map_map]
  change Selection.pathAnswers (blocks.map fun b => b.escaped.selection) = _
  rw [Selection.pathAnswers, hnames, List.map_map, pathData]
  refine List.map_congr_left fun path hpath => ?_
  simp only [Function.comp_apply, hchildren path hpath, verbAnswers_verbs]

/-- A vocabulary with the paths and tasks of a query answers it. -/
theorem answer_queryText {v : Vocabulary} (hv : v.WellFormed) (hne : blocks ≠ [])
    (hvalid : ∀ b ∈ blocks, Valid v.tasks b) (hpaths : ∀ b ∈ blocks, encode b.path ∈ v.paths) :
    v.answer (encodeChars (queryText blocks).toList) v.paths v.tasks = .ok (pathData blocks) := by
  have hfaults : v.faults ((blocks.map escaped).map selection) = 0 := by
    rw [Vocabulary.faults, Selection.total_eq_zero_iff, List.forall_mem_map, List.forall_mem_map]
    refine fun b hb => Selection.pathFaults_eq_zero_iff.mpr ⟨_, _, rfl, hpaths b hb, ?_⟩
    rw [List.forall_mem_map]
    refine fun verb hverb =>
      Selection.verbFaults_eq_zero_iff.mpr ⟨_, _, rfl, by rw [Verb.ofName?_name]; rfl, ?_⟩
    rw [List.forall_mem_map]
    exact fun t ht =>
      Selection.taskFaults_eq_zero_iff.mpr ⟨t, (hvalid b hb).tasks verb hverb t ht, rfl⟩
  rw [Vocabulary.answer_eq hv, parse_queryText hne hvalid hv.isIdentifier_task]
  simp only [if_pos hfaults, pathAnswers_blocks fun b hb => (hvalid b hb).path]

end RouteBlock
end RouteQuery
