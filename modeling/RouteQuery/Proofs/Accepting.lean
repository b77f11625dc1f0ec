import RouteQuery.Proofs.AnsweredRoutes
import RouteQuery.Proofs.Refusing

/-! What becomes of a query on a site: all that one changes which is applied, and the cause of every
refusal. -/
namespace RouteQuery
open Execution

namespace Registry

variable {r : Registry} {w : Workspace}

/-- A path can be mounted: it compiles, and the tasks that its parameters stand for are registered. -/
structure Mounts (r : Registry) (params : List (String × Descriptor)) (identifier : String) : Prop where
  compiles : ∃ matcher, PathMatcher.compile (RoutePath.ofIdentifier identifier) .route = .ok matcher
  bound : r.Bound params identifier

theorem Mounts.congr {r' : Registry} (htasks : r.tasks = r'.tasks)
    {params : List (String × Descriptor)} {identifier : String} (h : r.Mounts params identifier) :
    r'.Mounts params identifier := by
  have hnames : r.taskNames = r'.taskNames := congrArg (List.map Task.name) htasks
  refine ⟨h.compiles, fun p hp hoccurs t ht => ?_⟩
  rw [← hnames]
  exact h.bound p hp hoccurs t ht

theorem mounts_of_mountPaths {params : List (String × Descriptor)} {data : List (String × Json)}
    {app app' : App} {paths : List String} {c c' : Context}
    (hpath : ∀ entry ∈ data, r.path? entry.1 = some (RoutePath.ofIdentifier entry.1))
    (hobj : ∀ entry ∈ data, ∃ verbs, entry.2 = .obj verbs)
    (h : r.mountPaths w Hook.param params data app c = (.ok (app', paths), c')) :
    paths = data.map (·.1) ∧ ∀ entry ∈ data, r.Mounts params entry.1 := by
  induction data generalizing app app' paths c c' with
  | nil =>
    obtain ⟨hpair, -⟩ := Effect.eq_of_pure h
    obtain ⟨-, rfl⟩ := Prod.mk.inj hpair
    simp
  | cons entry rest ih =>
    obtain ⟨identifier, verbs⟩ := entry
    rw [List.forall_mem_cons] at hpath hobj
    obtain ⟨verbs, rfl⟩ := hobj.1
    rw [mountPaths, hpath.1] at h
    obtain ⟨router, c₁, hrouter, h₁⟩ := Effect.exists_of_bind h
    obtain ⟨rfl, hbound⟩ := of_bindParams_eq_ok hrouter
    obtain ⟨app₁, c₂, hof, h₂⟩ := Effect.exists_of_bind h₁
    obtain ⟨hmounted, -⟩ := Effect.eq_ok_of_of hof
    obtain ⟨router, hroutes, hmount⟩ := exists_of_bind_eq_ok hmounted
    obtain ⟨rfl, -⟩ := of_addRoutes_eq_ok hroutes
    obtain ⟨matcher, hmatcher, -⟩ := App.of_mount_eq_ok hmount
    obtain ⟨⟨app₂, paths₂⟩, c₃, hrest, h₃⟩ := Effect.exists_of_bind h₂
    obtain ⟨hpair, -⟩ := Effect.eq_of_pure h₃
    obtain ⟨-, rfl⟩ := Prod.mk.inj hpair
    obtain ⟨rfl, hmounts⟩ := ih hpath.2 hobj.2 hrest
    exact ⟨rfl, List.forall_mem_cons.mpr ⟨⟨⟨matcher, hmatcher⟩, hbound⟩, hmounts⟩⟩

theorem mounts_of_materialize {data : List (String × Json)} {descriptors : List Descriptor}
    {routes : Materialized} {c c' : Context} (hparam : r.hook? Descriptor.param = some Hook.param)
    (hpath : ∀ entry ∈ data, r.path? entry.1 = some (RoutePath.ofIdentifier entry.1))
    (hobj : ∀ entry ∈ data, ∃ verbs, entry.2 = .obj verbs)
    (h : r.materialize w data descriptors c = (.ok routes, c')) :
    routes.paths = data.map (·.1) ∧ ∀ entry ∈ data, r.Mounts routes.params entry.1 := by
  rw [materialize] at h
  obtain ⟨⟨hooked, params⟩, c₁, -, h₁⟩ := Effect.exists_of_bind h
  rw [hparam] at h₁
  obtain ⟨⟨app, paths⟩, c₂, hmount, h₂⟩ := Effect.exists_of_bind h₁
  obtain ⟨rfl, -⟩ := Effect.eq_of_pure h₂
  exact mounts_of_mountPaths hpath hobj hmount

end Registry

namespace Site

variable {s s' : Site} {w : Workspace} {app app' : App} {source : String} {query : PreparedQuery}
  {d : Document} {fault : Fault}

/-- The query loads and its document is well formed: paths that stand in its text, verbs below them,
and registered tasks below these. -/
structure Accepts (s : Site) (w : Workspace) (source : String) (query : PreparedQuery)
    (d : Document) : Prop where
  load : PreparedQuery.load w source = .ok query
  parse : Document.parse query.text = .ok d
  paths : ∀ sel ∈ d.selections, sel.IsPath query.paths s.registry.taskNames

/-- There is only one query and one document in a text. -/
theorem Accepts.unique {t : Site} {query' : PreparedQuery} {d' : Document}
    (h : s.Accepts w source query d) (h' : t.Accepts w source query' d') : query = query' ∧ d = d' := by
  obtain rfl := Except.ok.inj (h.load.symm.trans h'.load)
  exact ⟨rfl, Except.ok.inj (h.parse.symm.trans h'.parse)⟩

/-- The tasks of an accepted document are registered, however deep they are looked for. -/
theorem Accepts.mem_taskNames (h : s.Accepts w source query d) :
    ∀ sel ∈ d.selections, ∀ verb ∈ sel.children, ∀ task ∈ verb.children,
      task.name ∈ s.registry.taskNames := by
  intro sel hsel verb hverb task htask
  obtain ⟨_, -, verbs, rfl, hverbs⟩ := h.paths sel hsel
  obtain ⟨_, tasks, rfl, htasks⟩ := hverbs verb hverb
  obtain ⟨n, hn, rfl⟩ := htasks task htask
  exact hn

section
open RouteBlock
variable {tasks : List String} {blocks : List RouteBlock}

theorem accepts_queryText (hs : s.Consistent) (w : Workspace) (hne : blocks ≠ [])
    (hvalid : ∀ b ∈ blocks, Valid s.registry.taskNames b) :
    s.Accepts w (queryText blocks) (prepared blocks) ⟨none, (blocks.map escaped).map selection⟩ := by
  have htasks := hs.registry.vocabulary_wellFormed.isIdentifier_task
  refine ⟨load_queryText w hne hvalid htasks, parse_queryText hne hvalid htasks, ?_⟩
  exact isPath_blocks hvalid (List.Subset.refl _) fun b hb =>
    List.mem_eraseDups.mpr (mem_pathIdentifiers_queryText hvalid htasks hb)

theorem accepts_annotated (hs : s.Consistent) (w : Workspace) (hne : blocks ≠ [])
    (hvalid : ∀ b ∈ blocks, Valid s.registry.taskNames b) {line : String} {own : Descriptor}
    (hline : '\n' ∉ line.toList) (hhash : '#' ∉ line.toList)
    (hparse : Descriptor.parseLine ('@' :: line.toList) = .ok own) :
    s.Accepts w ("@" ++ line ++ "\n" ++ queryText blocks)
      { prepared blocks with descriptors := [own], text := '\n' :: (prepared blocks).text }
      ⟨none, (blocks.map escaped).map selection⟩ := by
  have htasks := hs.registry.vocabulary_wellFormed.isIdentifier_task
  refine ⟨load_annotated w hne hvalid htasks hline hhash hparse, parse_annotated hne hvalid htasks, ?_⟩
  exact isPath_blocks hvalid (List.Subset.refl _) fun b hb =>
    List.mem_eraseDups.mpr (mem_pathIdentifiers_queryText hvalid htasks hb)

end

/-- Behind the registration of the paths in its text, a query is routable as it stands. -/
theorem routable_withPaths_iff (hs : s.Consistent) (hload : PreparedQuery.load w source = .ok query)
    (hparse : Document.parse query.text = .ok d) {added : List String}
    (hadded : ∀ id, id ∈ added ↔ id ∈ query.paths ∧ id ∉ s.registry.pathIdentifiers) :
    (s.setRegistry (s.registry.withPaths added)).Routable d ↔
      ∀ sel ∈ d.selections, sel.IsPath query.paths s.registry.taskNames :=
  forall₂_congr fun _ hsel =>
    Selection.isPath_congr (Registry.mem_withPaths_iff hs.registry hload hadded hparse hsel)

theorem answer_of_malformed {text : List Char} {fault : SyntaxFault} (hs : s.Consistent)
    (hparse : Document.parse text = .error fault) :
    s.answer text = .error (.malformedQuery (Escape.decode fault.message)) := by
  have hanswer := Vocabulary.answer_eq hs.registry.vocabulary_wellFormed text
  rw [hparse] at hanswer
  rw [answer, hs.vocabulary]
  exact hanswer

/-- What the answer to a query is made of. -/
theorem of_answer_eq_ok {text : List Char} {data : List (String × Json)} (hs : s.Consistent)
    (h : s.answer text = .ok data) :
    ∃ d, Document.parse text = .ok d ∧ s.Routable d ∧ data = Selection.pathAnswers d.selections := by
  cases hparse : Document.parse text with
  | error fault =>
    rw [answer_of_malformed hs hparse] at h
    cases h
  | ok d =>
    rw [answer_eq hs hparse] at h
    split at h
    · next hzero => exact ⟨d, rfl, routable_iff.mpr hzero, (Except.ok.inj h).symm⟩
    · cases h

/-- What a query was that has been applied, and what it changed. Its hooks added `hooked`, and
`routed` are the entries for its paths. -/
structure Applies (s : Site) (w : Workspace) (source : String) (s' : Site) (query : PreparedQuery)
    (d : Document) (hooked : App) (routed : List RouteEntry) : Prop where
  accepts : s.Accepts w source query d
  tasks : s'.registry.tasks = s.registry.tasks
  params : s'.registry.params = Descriptor.commit s.registry.params query.descriptors
  hooked : (∀ own ∈ query.descriptors, own.name = Descriptor.param) → hooked = {}
  mounts : ∀ id ∈ fieldNames d.selections, s'.registry.Mounts s'.registry.params id
  routed : List.Forall₂ (s'.registry.EntryFor s'.registry.params)
    (routesOf (Selection.pathAnswers d.selections)) routed
  ready : s'.ready = s.ready.emit
    ((fieldNames d.selections).map fun id => (RoutePath.ofIdentifier id).text)

theorem texts_of_path? {r : Registry} {ids : List String}
    (h : ∀ id ∈ ids, r.path? id = some (RoutePath.ofIdentifier id)) :
    (ids.filterMap r.path?).map (·.text) = ids.map fun id => (RoutePath.ofIdentifier id).text := by
  induction ids with
  | nil => rfl
  | cons id ids ih =>
    rw [List.forall_mem_cons] at h
    rw [List.filterMap_cons_some h.1, List.map_cons, List.map_cons, ih h.2]

theorem applies_of_set (hs : s.Consistent) (h : s.set w app source = (.ok (), s', app')) :
    ∃ query d hooked routed, s.Applies w source s' query d hooked routed ∧
      app' = app.extend { hooked with entries := hooked.entries ++ routed } := by
  cases hload : PreparedQuery.load w source with
  | error fault =>
    rw [set_of_load_error hload] at h
    cases h
  | ok query =>
    obtain ⟨added, hnodup, hadded, hset⟩ := set_of_load hload s app
    have ht := consistent_setRegistry hs (hs.registry.withPaths_of_load hload hnodup hadded)
    rw [hset, applyQuery] at h
    split at h
    · cases h
    next data hdata =>
    obtain ⟨d, hparse, hroutable, rfl⟩ := of_answer_eq_ok ht hdata
    split at h
    · cases h
    next routes context hroutes =>
    cases h
    have hparam := hook?_param ht
    have hpath := Registry.path?_of_answer ht.registry hdata
    have hobj : ∀ entry ∈ Selection.pathAnswers d.selections, ∃ verbs, entry.2 = .obj verbs := by
      intro entry hentry
      obtain ⟨n, -, rfl⟩ := List.mem_map.mp hentry
      exact ⟨_, rfl⟩
    obtain ⟨hpaths, hmounts⟩ := Registry.mounts_of_materialize hparam hpath hobj hroutes
    obtain ⟨hooked, routed, c₁, happlied, happ, hrouted⟩ :=
      Registry.of_materialize_eq_ok hparam hroutes
    rw [Selection.map_fst_pathAnswers] at hpaths
    refine ⟨query, d, hooked, routed, ?_, by rw [happ]⟩
    exact
      { accepts := ⟨hload, hparse, (routable_withPaths_iff hs hload hparse hadded).mp hroutable⟩
        tasks := rfl
        params := Registry.params_of_applyDescriptors happlied
        hooked := fun hown => Registry.app_of_applyDescriptors hown happlied
        mounts := by
          intro id hid
          rw [← Selection.map_fst_pathAnswers] at hid
          obtain ⟨entry, hentry, rfl⟩ := List.mem_map.mp hid
          exact ⟨(hmounts entry hentry).compiles, (hmounts entry hentry).bound⟩
        routed := hrouted.imp fun _ _ hentry =>
          ⟨hentry.matcher, hentry.method, hentry.handler, hentry.tasks, hentry.bound⟩
        ready := by
          refine congrArg s.ready.emit ?_
          rw [hpaths]
          refine texts_of_path? fun id hid => ?_
          rw [← Selection.map_fst_pathAnswers] at hid
          obtain ⟨entry, hentry, rfl⟩ := List.mem_map.mp hid
          exact hpath entry hentry }

/-- With parameter descriptors alone, a query adds what its routes are labelled with and nothing else. -/
theorem app_of_set (hs : s.Consistent) (h : s.set w app source = (.ok (), s', app')) {query : PreparedQuery}
    {d : Document} (haccepts : s.Accepts w source query d)
    (hown : ∀ own ∈ query.descriptors, own.name = Descriptor.param) (v : Workspace) :
    app'.parsers = app.parsers ∧ app'.describe v = app.describe v ++
      (routesOf (Selection.pathAnswers d.selections)).map (·.label s'.registry.params) := by
  have hs' := hs.of_set h
  obtain ⟨query', d', hooked, routed, happlies, rfl⟩ := applies_of_set hs h
  obtain ⟨rfl, rfl⟩ := haccepts.unique happlies.accepts
  rw [happlies.hooked hown, ← Registry.labels_eq hs'.registry happlies.routed v]
  exact ⟨by simp [App.extend], by simp [App.describe, App.extend]⟩

/-! ### Refusals -/

/-- A parameter of a path calls for a task that is missing, for a descriptor of this query or of an
earlier one. -/
structure Missing (s : Site) (query : PreparedQuery) (d : Document) (p : String × Descriptor)
    (n : String) : Prop where
  committed : p ∈ Descriptor.commit s.registry.params query.descriptors
  occurs : ∃ id ∈ fieldNames d.selections, Text.occursIn p.1.toList id.toList = true
  arg : n ∈ p.2.args
  unregistered : n ∉ s.registry.taskNames

/-- The causes for which a query is refused. -/
inductive Refusal (s : Site) (w : Workspace) (source : String) : Fault → Prop
  | unloaded {fault : Fault} (h : PreparedQuery.load w source = .error fault) : Refusal s w source fault
  | malformed {query : PreparedQuery} {fault : SyntaxFault}
      (hload : PreparedQuery.load w source = .ok query)
      (hparse : Document.parse query.text = .error fault) :
      Refusal s w source (.malformedQuery (Escape.decode fault.message))
  | unroutable {query : PreparedQuery} {d : Document} {sel : Selection}
      (hload : PreparedQuery.load w source = .ok query) (hparse : Document.parse query.text = .ok d)
      (hsel : sel ∈ d.selections) (hpath : ¬sel.IsPath query.paths s.registry.taskNames) (more : Nat) :
      Refusal s w source (.failedQuery (more + 1))
  | descriptor {query : PreparedQuery} {d : Document} {fault : Fault}
      (haccepts : s.Accepts w source query d)
      (h : s.registry.DescriptorRefusal w query.descriptors fault) : Refusal s w source fault
  | unbound {query : PreparedQuery} {d : Document} {p : String × Descriptor} {n : String}
      (haccepts : s.Accepts w source query d) (h : s.Missing query d p n) :
      Refusal s w source (.unknownTask n)
  | badPath {query : PreparedQuery} {d : Document} {id : String} {fault : Fault}
      (haccepts : s.Accepts w source query d) (hid : id ∈ fieldNames d.selections)
      (hcompile : PathMatcher.compile (RoutePath.ofIdentifier id) .route = .error fault) :
      Refusal s w source fault

/-- Of the causes in a registry that has the paths of a document, two are left: the answer has no
other paths, and its tasks are registered. -/
theorem refusal_of_mountRefusal {r : Registry} (hr : r.Consistent)
    (htasks : r.taskNames = s.registry.taskNames) (haccepts : s.Accepts w source query d)
    (hpaths : ∀ id ∈ fieldNames d.selections, id ∈ r.pathIdentifiers)
    (h : r.MountRefusal (Descriptor.commit s.registry.params query.descriptors)
      (Selection.pathAnswers d.selections) fault) : s.Refusal w source fault := by
  cases h with
  | unknownPath hmem hpath =>
    rw [Selection.map_fst_pathAnswers] at hmem
    exact absurd (hpaths _ hmem) (Registry.path?_eq_none_iff.mp hpath)
  | unboundTask hmem hp hoccurs hn hnew =>
    rw [Selection.map_fst_pathAnswers] at hmem
    exact .unbound haccepts ⟨hp, ⟨_, hmem, hoccurs⟩, hn, htasks ▸ hnew⟩
  | unknownTask hroute hn hnew =>
    have hknown := Selection.mem_tasks_of_mem_routesOf haccepts.paths hroute _ hn
    exact absurd (htasks ▸ hknown) hnew
  | badPath hmem hpath hcompile =>
    rw [Selection.map_fst_pathAnswers] at hmem
    obtain rfl := Option.some.inj (hpath.symm.trans (hr.path?_eq (hpaths _ hmem)))
    exact .badPath haccepts hmem hcompile

theorem refusal_of_set (hs : s.Consistent) (h : s.set w app source = (.error fault, s', app')) :
    s.Refusal w source fault := by
  cases hload : PreparedQuery.load w source with
  | error fault =>
    rw [set_of_load_error hload] at h
    cases h
    exact .unloaded hload
  | ok query =>
    obtain ⟨added, hnodup, hadded, hset⟩ := set_of_load hload s app
    have ht := consistent_setRegistry hs (hs.registry.withPaths_of_load hload hnodup hadded)
    rw [hset] at h
    cases hparse : Document.parse query.text with
    | error fault =>
      rw [applyQuery_of_error query app (answer_of_malformed ht hparse)] at h
      cases h
      exact .malformed hload hparse
    | ok d =>
      have hroutable := routable_withPaths_iff hs hload hparse hadded
      have hdata := answer_eq ht hparse
      by_cases hpaths : ∀ sel ∈ d.selections, sel.IsPath query.paths s.registry.taskNames
      · rw [if_pos (routable_iff.mp (hroutable.mpr hpaths))] at hdata
        have haccepts : s.Accepts w source query d := ⟨hload, hparse, hpaths⟩
        have hknown : ∀ id ∈ fieldNames d.selections,
            id ∈ (s.registry.withPaths added).pathIdentifiers := by
          intro id hid
          obtain ⟨sel, hsel, rfl⟩ := Vocabulary.mem_fieldNames.mp hid
          obtain ⟨n, hn, children, rfl, -⟩ := hroutable.mpr hpaths sel hsel
          exact hn
        rw [answer] at hdata
        rw [applyQuery, hdata] at h
        simp only at h
        split at h
        · next hroutes =>
          cases h
          rcases Registry.of_materialize_eq_error (hook?_param ht) hroutes with hdescriptor | hmount
          · refine .descriptor haccepts ?_
            cases hdescriptor with
            | unknown hd hhook => exact .unknown hd hhook
            | refused hd hname hhook happ => exact .refused hd hname hhook happ
          · exact refusal_of_mountRefusal ht.registry rfl haccepts hknown hmount
        · cases h
      · have hfaults := mt routable_iff.mpr (mt hroutable.mp hpaths)
        rw [if_neg hfaults] at hdata
        rw [applyQuery_of_error query app hdata] at h
        obtain ⟨more, hmore⟩ := Nat.exists_eq_succ_of_ne_zero hfaults
        push Not at hpaths
        obtain ⟨sel, hsel, hpath⟩ := hpaths
        rw [hmore] at h
        cases h
        exact .unroutable hload hparse hsel hpath more

/-- Descriptors of parameters are never refused. -/
theorem not_descriptorRefusal {descriptors : List Descriptor} (hs : s.Consistent)
    (hparams : ∀ own ∈ descriptors, own.name = Descriptor.param) :
    ¬s.registry.DescriptorRefusal w descriptors fault := by
  intro h
  cases h with
  | unknown hd hhook =>
    rw [hparams _ hd, hook?_param hs] at hhook
    cases hhook
  | refused hd hname => exact hname (hparams _ hd)

/-- The causes that are left once a query is accepted and its descriptors are all of parameters. -/
theorem Refusal.of_accepts (h : s.Refusal w source fault) (hs : s.Consistent)
    (haccepts : s.Accepts w source query d)
    (hparams : ∀ own ∈ query.descriptors, own.name = Descriptor.param) :
    (∃ p n, fault = .unknownTask n ∧ s.Missing query d p n) ∨
      ∃ id ∈ fieldNames d.selections,
        PathMatcher.compile (RoutePath.ofIdentifier id) .route = .error fault := by
  cases h with
  | unloaded h => exact absurd (haccepts.load.symm.trans h) (by simp)
  | malformed h hmalformed =>
    obtain rfl := Except.ok.inj (haccepts.load.symm.trans h)
    exact absurd (haccepts.parse.symm.trans hmalformed) (by simp)
  | unroutable h hparse hsel hpath more =>
    obtain rfl := Except.ok.inj (haccepts.load.symm.trans h)
    obtain rfl := Except.ok.inj (haccepts.parse.symm.trans hparse)
    exact absurd (haccepts.paths _ hsel) hpath
  | descriptor haccepts' h =>
    obtain ⟨rfl, -⟩ := haccepts.unique haccepts'
    exact absurd h (not_descriptorRefusal hs hparams)
  | unbound haccepts' h =>
    obtain ⟨rfl, rfl⟩ := haccepts.unique haccepts'
    exact .inl ⟨_, _, rfl, h⟩
  | badPath haccepts' hid hcompile =>
    obtain ⟨rfl, rfl⟩ := haccepts.unique haccepts'
    exact .inr ⟨_, hid, hcompile⟩

/-- A query that has no descriptors but those of parameters is applied exactly when it is accepted and
all its paths can be mounted. -/
theorem set_eq_ok_iff (hs : s.Consistent) (app : App)
    (hload : PreparedQuery.load w source = .ok query)
    (hparams : ∀ own ∈ query.descriptors, own.name = Descriptor.param)
    (hparse : Document.parse query.text = .ok d) :
    (∃ s' app', s.set w app source = (.ok (), s', app')) ↔
      (∀ sel ∈ d.selections, sel.IsPath query.paths s.registry.taskNames) ∧
        ∀ id ∈ fieldNames d.selections,
          s.registry.Mounts (Descriptor.commit s.registry.params query.descriptors) id := by
  constructor
  · rintro ⟨s', app', hset⟩
    obtain ⟨query', d', hooked, routed, happlies, -⟩ := applies_of_set hs hset
    obtain rfl := Except.ok.inj (hload.symm.trans happlies.accepts.load)
    obtain rfl := Except.ok.inj (hparse.symm.trans happlies.accepts.parse)
    refine ⟨happlies.accepts.paths, fun id hid => ?_⟩
    rw [← happlies.params]
    exact (happlies.mounts id hid).congr happlies.tasks
  · rintro ⟨hpaths, hmounts⟩
    cases hset : s.set w app source with
    | mk result after =>
      obtain ⟨s', app'⟩ := after
      cases result with
      | ok => exact ⟨s', app', rfl⟩
      | error fault =>
        rcases (refusal_of_set hs hset).of_accepts hs ⟨hload, hparse, hpaths⟩ hparams with
          ⟨p, n, rfl, hmissing⟩ | ⟨id, hid, hcompile⟩
        · obtain ⟨id, hid, hoccurs⟩ := hmissing.occurs
          have hknown := (hmounts id hid).bound p hmissing.committed hoccurs n hmissing.arg
          exact absurd hknown hmissing.unregistered
        · obtain ⟨matcher, hmatcher⟩ := (hmounts id hid).compiles
          exact absurd (hmatcher.symm.trans hcompile) (by simp)

/-! ### A site with a single task -/

theorem isIdentifier_hello : isIdentifier "hello" = true := by decide

def greeting : Site :=
  setRegistry {} { tasks := [⟨"hello", StockTasks.hello, isIdentifier_hello⟩] }

theorem reachable_greeting : greeting.Reachable := by
  have hadd : addTask {} { name := "hello", handler := StockTasks.hello } = .ok greeting := rfl
  exact .step (.new .empty) (.addTask hadd)

section
open RouteBlock

/-- Runs the task at one path. -/
def greetAt (path : String) : List RouteBlock := [⟨path, [(.get, ["hello"])]⟩]

theorem greetAt_ne_nil (path : String) : greetAt path ≠ [] := List.cons_ne_nil _ _

theorem valid_greetAt {path : String} (h : RoutePath.IsText path) :
    ∀ b ∈ greetAt path, Valid ["hello"] b :=
  List.forall_mem_singleton.mpr ⟨h, by simp, by simp, by simp⟩

def greetDocument (path : String) : Document := ⟨none, ((greetAt path).map escaped).map selection⟩

@[simp] theorem fieldNames_greetDocument (path : String) :
    fieldNames (greetDocument path).selections = [Escape.encode path] := rfl

theorem compiles_greetDocument {path : String}
    (h : (PathMatcher.compile (RoutePath.ofIdentifier (Escape.encode path)) .route).isOk = true) :
    ∀ id ∈ fieldNames (greetDocument path).selections, ∃ matcher,
      PathMatcher.compile (RoutePath.ofIdentifier id) .route = .ok matcher := by
  rw [fieldNames_greetDocument, List.forall_mem_singleton]
  exact exists_of_isOk h

theorem parse_greetAt {path : String} (h : RoutePath.IsText path) :
    Document.parse (Escape.encodeChars (queryText (greetAt path)).toList) = .ok (greetDocument path) :=
  parse_queryText (greetAt_ne_nil path) (valid_greetAt h) (by decide)

theorem routesOf_greetDocument {path : String} (h : RoutePath.IsText path) :
    routesOf (Selection.pathAnswers (greetDocument path).selections) = [⟨Escape.encode path, .get, ["hello"]⟩] := by
  have hanswers : Selection.pathAnswers (greetDocument path).selections = pathData (greetAt path) :=
    pathAnswers_blocks (List.forall_mem_singleton.mpr h)
  rw [hanswers]
  simp [pathData, greetAt, verbsAt, verbData, tasksAt, List.eraseDups_cons, routesOf, verbRoutes, verbRoute?]

theorem queryText_greetAt (path : String) :
    queryText (greetAt path) = "\x7b " ++ (path ++ " \x7b GET \x7b hello \x7d \x7d") ++ " \x7d" := by
  simp [queryText, greetAt, selection, verbSelection, Selection.text, Verb.name, String.append_assoc]

theorem queryText_greetAt_a : queryText (greetAt "/a") = "\x7b /a \x7b GET \x7b hello \x7d \x7d \x7d" :=
  queryText_greetAt "/a"

theorem paths_greetAt_a : (prepared (greetAt "/a")).paths = ["_slash_a"] := by
  have hfound : QueryText.pathIdentifiers (Escape.encodeChars (queryText (greetAt "/a")).toList) =
      ["_slash_a"] := by rw [queryText_greetAt_a]; decide +kernel
  rw [prepared, hfound]
  rfl

theorem app_greetAt (hs : s.Consistent) {path : String} (hpath : RoutePath.IsText path)
    (h : s.set w app source = (.ok (), s', app')) {query : PreparedQuery}
    (haccepts : s.Accepts w source query (greetDocument path))
    (hown : ∀ own ∈ query.descriptors, own.name = Descriptor.param) (v : Workspace) :
    app'.parsers = app.parsers ∧ app'.describe v =
      app.describe v ++ [PathRoute.label s'.registry.params ⟨Escape.encode path, .get, ["hello"]⟩] := by
  have happ := app_of_set hs h haccepts hown v
  rwa [routesOf_greetDocument hpath, List.map_singleton] at happ

/-- Such a query is applied wherever the task is the only one and no path has parameters. -/
theorem set_greetAt (hs : s.Consistent) (htasks : s.registry.taskNames = ["hello"])
    (hparams : s.registry.params = []) (w : Workspace) (app : App) {path : String}
    (hpath : RoutePath.IsText path)
    (hcompile : (PathMatcher.compile (RoutePath.ofIdentifier (Escape.encode path)) .route).isOk =
      true) :
    ∃ s' app', s.set w app (queryText (greetAt path)) = (.ok (), s', app') ∧
      s'.registry.taskNames = ["hello"] ∧ s'.registry.params = [] ∧
      s'.ready = s.ready.emit [(RoutePath.ofIdentifier (Escape.encode path)).text] := by
  have hvalid : ∀ b ∈ greetAt path, Valid s.registry.taskNames b := by
    rw [htasks]
    exact valid_greetAt hpath
  have haccepts : s.Accepts w (queryText (greetAt path)) (prepared (greetAt path))
      (greetDocument path) := accepts_queryText hs w (greetAt_ne_nil path) hvalid
  have hmounts : ∀ id ∈ fieldNames (greetDocument path).selections, s.registry.Mounts [] id :=
    fun id hid => ⟨compiles_greetDocument hcompile id hid, by simp [Registry.Bound]⟩
  rw [← hparams] at hmounts
  obtain ⟨s', app', hset⟩ := (set_eq_ok_iff hs app haccepts.load
    (fun _ hown => absurd hown List.not_mem_nil) haccepts.parse).mpr ⟨haccepts.paths, hmounts⟩
  obtain ⟨query, d, hooked, routed, happlies, -⟩ := applies_of_set hs hset
  obtain ⟨rfl, rfl⟩ := haccepts.unique happlies.accepts
  have hnames : s'.registry.taskNames = s.registry.taskNames :=
    congrArg (List.map Task.name) happlies.tasks
  exact ⟨s', app', hset, hnames.trans htasks, happlies.params.trans hparams, happlies.ready⟩

end

end Site
end RouteQuery
