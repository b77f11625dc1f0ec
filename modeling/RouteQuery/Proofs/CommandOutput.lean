import RouteQuery.CommandLine
import RouteQuery.Proofs.Accepting
import RouteQuery.Proofs.TaskHandlers

/-! What the command line shows of a query is what becomes of a new site with tasks of the same names when the
query is applied to it. -/
namespace RouteQuery

/-- A task that answers with nothing in place of a task. -/
def Task.idling (task : Task) : Task := { task with handler := Command.idle }

namespace PreparedQuery

variable {w : Workspace} {source : String}

/-- If there is a text at all, its descriptors are well formed. -/
def DescriptorsParse (w : Workspace) (source : String) : Prop :=
  ∀ text, w.loadQuery source = .ok text → ∃ descriptors, Descriptor.parseAll text = .ok descriptors

/-- The paths that a query names, its descriptors left aside. -/
def pathsOf (w : Workspace) (source : String) : Except Fault (List String) := do
  QueryText.extractPaths (← QueryText.normalize (← w.loadQuery source))

theorem descriptorsParse_of_load {query : PreparedQuery} (h : load w source = .ok query) :
    DescriptorsParse w source := by
  obtain ⟨text, htext, hquery⟩ := exists_of_bind_eq_ok h
  obtain ⟨descriptors, hparse, -⟩ := exists_of_bind_eq_ok hquery
  intro text' htext'
  obtain rfl := Except.ok.inj (htext.symm.trans htext')
  exact ⟨descriptors, hparse⟩

/-- Reading a query comes to its paths or to the same fault, with and without its descriptors. -/
theorem map_paths_load (h : DescriptorsParse w source) : paths <$> load w source = pathsOf w source := by
  unfold load pathsOf
  cases htext : w.loadQuery source with
  | error fault => rfl
  | ok text =>
    obtain ⟨descriptors, hparse⟩ := h text htext
    change paths <$> ofText text = QueryText.normalize text >>= QueryText.extractPaths
    rw [ofText, hparse]
    cases hnormal : QueryText.normalize text with
    | error fault => rfl
    | ok normalized =>
      change paths <$> (QueryText.extractPaths normalized >>= _) = QueryText.extractPaths normalized
      cases QueryText.extractPaths normalized <;> rfl

theorem load_of_pathsOf_error (h : DescriptorsParse w source) {fault : Fault}
    (hpaths : pathsOf w source = .error fault) : load w source = .error fault := by
  rw [← map_paths_load h] at hpaths
  exact eq_error_of_map hpaths

theorem load_of_pathsOf (h : DescriptorsParse w source) {ids : List String}
    (hpaths : pathsOf w source = .ok ids) : ∃ query, load w source = .ok query ∧ query.paths = ids := by
  rw [← map_paths_load h] at hpaths
  exact exists_of_map_eq_ok hpaths

theorem pathsOf_ne_nil {ids : List String} (h : pathsOf w source = .ok ids) : ids ≠ [] := by
  obtain ⟨text, -, htext⟩ := exists_of_bind_eq_ok h
  obtain ⟨normalized, -, hextract⟩ := exists_of_bind_eq_ok htext
  obtain ⟨-, -, hdistinct⟩ := exists_of_bind_eq_ok hextract
  split at hdistinct
  · cases hdistinct
  · next hne =>
    obtain rfl := Except.ok.inj hdistinct
    exact hne

end PreparedQuery

theorem Registry.mem_of_hook? {r : Registry} {name : String} {hook : Hook} (h : r.hook? name = some hook) :
    (name, hook) ∈ r.hooks := by
  obtain ⟨before, after, hsplit, -⟩ := List.lookup_eq_some_iff.mp h
  rw [hsplit]
  simp

/-- Adding one path after another, with what there is up to the one that is refused or without it. -/
theorem Registry.foldlM_addPath (r : Registry) (ids : List String) :
    ids.foldlM addPath r = (fun _ => (r.addPaths ids).2) <$> (r.addPaths ids).1 := by
  induction ids generalizing r with
  | nil => rfl
  | cons identifier rest ih =>
    rw [List.foldlM_cons, addPaths]
    cases r.addPath identifier with
    | error fault => rfl
    | ok r' => exact ih r'

namespace Site

variable {s : Site} {tasks : List (String × (Http.Request → Next → Action Http.Response))}

def addNamedTasks (s : Site) (tasks : List (String × (Http.Request → Next → Action Http.Response))) :
    Except Fault Site :=
  tasks.foldlM (fun s task => s.addNamedTask task.1 task.2) s

theorem addNamedTask_idle (s : Site) (c : Context) (name : String)
    (handler : Http.Request → Next → Action Http.Response) :
    (s.restate Task.idling c).addNamedTask name Command.idle =
      restate Task.idling c <$> s.addNamedTask name handler := by
  have hname : ∀ task, (Task.idling task).name = task.name := fun _ => rfl
  unfold addNamedTask Task.make
  split
  · next hvalid =>
    have hadd := Registry.addTask_mapTasks hname s.registry ⟨name, handler, hvalid⟩
    change (s.restate Task.idling c).addTask (Task.idling ⟨name, handler, hvalid⟩) =
      restate Task.idling c <$> s.addTask ⟨name, handler, hvalid⟩
    rw [addTask_eq, addTask_eq, restate, hadd]
    cases s.registry.addTask ⟨name, handler, hvalid⟩ with
    | error fault => rfl
    | ok r => exact congrArg Except.ok (setRegistry_mapTasks hname s c r)
  · rfl

theorem foldlM_addNamedTask_idle (tasks : List (String × (Http.Request → Next → Action Http.Response))) (s : Site)
    (c : Context) :
    (tasks.map (·.1)).foldlM (fun s name => s.addNamedTask name Command.idle) (s.restate Task.idling c) =
      restate Task.idling c <$> s.addNamedTasks tasks := by
  unfold addNamedTasks
  induction tasks generalizing s with
  | nil => rfl
  | cons task rest ih =>
    rw [List.map_cons, List.foldlM_cons, List.foldlM_cons, addNamedTask_idle s c task.1 task.2, bind_map_left,
      map_bind]
    exact bind_congr ih

theorem siteWith_eq (context : Context) (h : addNamedTasks { context } tasks = .ok s) :
    Command.siteWith (tasks.map (·.1)) = .ok (s.restate Task.idling .empty) := by
  have hidle := foldlM_addNamedTask_idle tasks { context } .empty
  rw [h] at hidle
  exact hidle

/-- A registry takes tasks as its site does. -/
theorem foldlM_registry (s : Site) (names : List String) :
    names.foldlM (fun r name => Task.make name Command.idle >>= r.addTask) s.registry =
      (·.registry) <$> names.foldlM (fun s name => s.addNamedTask name Command.idle) s := by
  induction names generalizing s with
  | nil => rfl
  | cons name rest ih =>
    have hstep : (Task.make name Command.idle >>= s.registry.addTask) =
        (·.registry) <$> s.addNamedTask name Command.idle := by
      unfold addNamedTask
      cases Task.make name Command.idle with
      | error fault => rfl
      | ok task =>
        change s.registry.addTask task = (·.registry) <$> s.addTask task
        rw [addTask_eq]
        cases s.registry.addTask task <;> rfl
    rw [List.foldlM_cons, List.foldlM_cons, hstep, bind_map_left, map_bind]
    exact bind_congr ih

theorem keeps_addNamedTask {s' : Site} {name : String} {handler : Http.Request → Next → Action Http.Response}
    (h : s.addNamedTask name handler = .ok s') :
    s'.registry.paths = s.registry.paths ∧ s'.registry.hooks = s.registry.hooks := by
  obtain ⟨task, -, htask⟩ := exists_of_bind_eq_ok h
  obtain ⟨registry, hregistry, rfl⟩ := Site.of_addTask htask
  obtain ⟨-, rfl⟩ := Registry.addTask_eq_ok hregistry
  exact ⟨rfl, rfl⟩

theorem keeps_addNamedTasks {s' : Site} (h : s.addNamedTasks tasks = .ok s') :
    s'.registry.paths = s.registry.paths ∧ s'.registry.hooks = s.registry.hooks := by
  induction tasks generalizing s with
  | nil =>
    obtain rfl := Except.ok.inj h
    exact ⟨rfl, rfl⟩
  | cons task rest ih =>
    obtain ⟨s₁, hfirst, hrest⟩ := exists_of_bind_eq_ok h
    obtain ⟨hpaths, hhooks⟩ := keeps_addNamedTask hfirst
    obtain ⟨hpaths', hhooks'⟩ := ih hrest
    exact ⟨hpaths'.trans hpaths, hhooks'.trans hhooks⟩

section
variable {w : Workspace} {source : String}

/-- On a site without paths a query fails before there are any, or its paths are there whatever follows. -/
theorem set_of_pathless (hs : s.registry.paths = []) (hd : PreparedQuery.DescriptorsParse w source) (app : App) :
    (∃ fault, PreparedQuery.pathsOf w source = .error fault ∧ s.set w app source = (.error fault, s, app)) ∨
    ∃ ids added, PreparedQuery.pathsOf w source = .ok ids ∧ added ≠ [] ∧
      s.registry.addPaths ids = (.ok (), s.registry.withPaths added) ∧
      (s.set w app source).2.1.registry.paths = (s.registry.withPaths added).paths ∧
      (s.set w app source).2.1.vocabulary = (s.registry.withPaths added).vocabulary := by
  cases hpaths : PreparedQuery.pathsOf w source with
  | error fault =>
    exact .inl ⟨fault, rfl, set_of_load_error (PreparedQuery.load_of_pathsOf_error hd hpaths) s app⟩
  | ok ids =>
    obtain ⟨query, hload, rfl⟩ := PreparedQuery.load_of_pathsOf hd hpaths
    obtain ⟨added, hadd, -, hadded⟩ := s.registry.addPaths_of_load hload
    have hne : added ≠ [] := by
      obtain ⟨id, hid⟩ := List.exists_mem_of_ne_nil _ (PreparedQuery.pathsOf_ne_nil hpaths)
      have hnew : id ∉ s.registry.pathIdentifiers := by simp [Registry.pathIdentifiers, hs]
      exact List.ne_nil_of_mem ((hadded id).mpr ⟨hid, hnew⟩)
    have hset : s.set w app source = (s.setRegistry (s.registry.withPaths added)).applyQuery w query app := by
      rw [set, hload]
      simp only [hadd]
    refine .inr ⟨query.paths, added, rfl, hne, hadd, ?_⟩
    rw [hset]
    rcases applyQuery_cases (s.setRegistry (s.registry.withPaths added)) w query app with
      ⟨_, _, happly⟩ | ⟨_, _, happly⟩ <;>
    · rw [happly]
      exact ⟨rfl, rfl⟩

end

end Site

namespace Command

variable {w : Workspace} {source : String} {context : Context} {s : Site}
  {tasks : List (String × (Http.Request → Next → Action Http.Response))}

theorem run_schema (hs : Site.addNamedTasks { context } tasks = .ok s) :
    (schema (tasks.map (·.1)) source).run w = do
      let ids ← PreparedQuery.pathsOf w source
      let registry ← ids.foldlM Registry.addPath (s.registry.mapTasks Task.idling)
      return registry.vocabulary.schemaText := by
  have hregistry : (tasks.map (·.1)).foldlM (fun r name => Task.make name idle >>= r.addTask) ({} : Registry) =
      .ok (s.registry.mapTasks Task.idling) := by
    have hsite := Site.siteWith_eq context hs
    rw [siteWith] at hsite
    refine (Site.foldlM_registry {} _).trans ?_
    rw [hsite]
    rfl
  simp only [run, registryFor, PreparedQuery.pathsOf, bind_assoc, hregistry]
  rfl

theorem run_check (hs : Site.addNamedTasks { context } tasks = .ok s) :
    (check (tasks.map (·.1)) source).run w =
      match s.set w {} source with
      | (.error fault, _) => .error fault
      | (.ok (), _, app) =>
        .ok (String.join (app.entries.map fun entry => entry.label w ++ "\n") ++
          "ok: " ++ toString app.entries.length ++ " route(s)\n") := by
  have hname : ∀ task, (Task.idling task).name = task.name := fun _ => rfl
  have hhooks : ∀ name hook, s.registry.hook? name = some hook → hook.Plain ∧ hook.Respects Task.idling := by
    intro name hook hhook
    have hmem := Registry.mem_of_hook? hhook
    rw [(Site.keeps_addNamedTasks hs).2] at hmem
    exact ⟨Hook.plain_of_mem_builtin hmem, Hook.respects_of_mem_builtin hname hmem⟩
  have hset := Site.set_restate hname .empty hhooks w {} source
  rw [App.mapTasks_empty] at hset
  simp only [run, Site.siteWith_eq context hs]
  change (match (s.restate Task.idling .empty).set w {} source with
    | (.error fault, _) => _ | (.ok (), _, app) => _) = _
  rw [hset]
  cases hresult : s.set w {} source with
  | mk result after =>
    obtain ⟨s', app⟩ := after
    cases result with
    | error fault => rfl
    | ok =>
      have hlabels : (app.mapTasks Task.idling).entries.map (·.label w) = app.entries.map (·.label w) :=
        App.describe_mapTasks hname w app
      have hlength : (app.mapTasks Task.idling).entries.length = app.entries.length := by simp [App.mapTasks]
      have hend : " route(s)" ++ "\n" = " route(s)\n" := rfl
      simp only [Prod.map, id_eq, App.describe, hlabels, hlength, line, List.map_map, Function.comp_def,
        String.append_assoc, hend]
      rfl

/-- Either both fail on the way to the paths, or the schema is printed that the site has afterwards. -/
theorem run_schema_cases (hs : Site.addNamedTasks { context } tasks = .ok s)
    (hd : PreparedQuery.DescriptorsParse w source) (app : App) :
    (∃ fault, PreparedQuery.pathsOf w source = .error fault ∧
      (schema (tasks.map (·.1)) source).run w = .error fault ∧ s.set w app source = (.error fault, s, app)) ∨
    ∃ ids, PreparedQuery.pathsOf w source = .ok ids ∧ (s.set w app source).2.1.registry.paths ≠ [] ∧
      (schema (tasks.map (·.1)) source).run w = .ok (s.set w app source).2.1.vocabulary.schemaText := by
  rw [run_schema hs]
  rcases Site.set_of_pathless (Site.keeps_addNamedTasks hs).1 hd app with
    ⟨fault, hpaths, hset⟩ | ⟨ids, added, hpaths, hne, hadd, hafter, hvocabulary⟩
  · rw [hpaths]
    exact .inl ⟨fault, rfl, rfl, hset⟩
  · refine .inr ⟨ids, hpaths, ?_, ?_⟩
    · rw [hafter, Registry.withPaths]
      simp [hne]
    · have hmap := Registry.addPaths_mapTasks (f := Task.idling) s.registry ids
      have hnames := Registry.vocabulary_mapTasks (f := Task.idling) (fun _ => rfl) (s.registry.withPaths added)
      rw [hadd] at hmap
      rw [hpaths, hvocabulary]
      change (ids.foldlM Registry.addPath (s.registry.mapTasks Task.idling) >>= fun registry =>
        pure registry.vocabulary.schemaText) = _
      rw [Registry.foldlM_addPath, hmap]
      exact congrArg (fun v => Except.ok v.schemaText) hnames

/-- Whatever the tasks of a new site do and whatever they share, the command line knows them by their names
alone. The schema that it prints is the one that the site has behind the query, applied or not, once there are
paths; until then its faults are those of the site. A query is checked as it is applied, and there is a line for
each of its routes and one for their number. -/
theorem run_eq_set (hs : Site.addNamedTasks { context } tasks = .ok s)
    (hd : PreparedQuery.DescriptorsParse w source) :
    (∀ app out, (schema (tasks.map (·.1)) source).run w = .ok out ↔
      (∃ ids, PreparedQuery.pathsOf w source = .ok ids) ∧
        out = (s.set w app source).2.1.vocabulary.schemaText) ∧
    (∀ app fault, (schema (tasks.map (·.1)) source).run w = .error fault ↔
      (s.set w app source).1 = .error fault ∧ (s.set w app source).2.1.registry.paths = []) ∧
    (∀ out, (check (tasks.map (·.1)) source).run w = .ok out ↔
      (s.set w {} source).1 = .ok () ∧
        out = String.join ((s.set w {} source).2.2.entries.map fun entry => entry.label w ++ "\n") ++
          "ok: " ++ toString (s.set w {} source).2.2.entries.length ++ " route(s)\n") ∧
    ∀ fault, (check (tasks.map (·.1)) source).run w = .error fault ↔
      (s.set w {} source).1 = .error fault := by
  refine ⟨fun app out => ?_, fun app fault => ?_, fun out => ?_, fun fault => ?_⟩
  · rcases run_schema_cases hs hd app with ⟨fault, hpaths, hrun, -⟩ | ⟨ids, hpaths, -, hrun⟩
    · simp [hrun, hpaths]
    · simp [hrun, hpaths, eq_comm]
  · rcases run_schema_cases hs hd app with ⟨other, -, hrun, hset⟩ | ⟨ids, -, hne, hrun⟩
    · simp [hrun, hset, (Site.keeps_addNamedTasks hs).1]
    · simp [hrun, hne]
  · rw [run_check hs]
    obtain ⟨result, s', app⟩ := s.set w {} source
    cases result <;> simp [eq_comm]
  · rw [run_check hs]
    obtain ⟨result, s', app⟩ := s.set w {} source
    cases result <;> simp

section
open RouteBlock Site

theorem set_greetAt_a : ∃ s' app', greeting.set ⟨"/", []⟩ {} (queryText (greetAt "/a")) = (.ok (), s', app') ∧
    s'.vocabulary = ⟨["_slash_a"], ["hello"]⟩ ∧
    app'.entries.map (·.label ⟨"/", []⟩) = ["GET /a -> hello"] := by
  have hpath : RoutePath.IsText "/a" := ⟨by decide, List.all_eq_true.mp (by decide)⟩
  have hs := reachable_greeting.consistent
  have hvalid := valid_greetAt hpath
  have hload := load_queryText ⟨"/", []⟩ (greetAt_ne_nil "/a") hvalid (by decide)
  obtain ⟨s', app', hset, htasks, hparams, -⟩ := set_greetAt hs rfl rfl ⟨"/", []⟩ {} hpath (by decide +kernel)
  have hpaths := pathIdentifiers_of_set (s := greeting) hload paths_greetAt_a List.not_mem_nil {}
  rw [hset] at hpaths
  obtain ⟨-, hlabels⟩ := app_greetAt hs hpath hset (accepts_queryText hs _ (greetAt_ne_nil "/a") hvalid)
    (fun _ hown => absurd hown List.not_mem_nil) ⟨"/", []⟩
  rw [hparams] at hlabels
  exact ⟨s', app', hset, (hs.of_set hset).vocabulary.trans (congrArg₂ Vocabulary.mk hpaths htasks),
    hlabels.trans (by decide +kernel)⟩

theorem load_braces : PreparedQuery.load ⟨"/", []⟩ "\x7b\x7d" = .error .noPaths := by
  have hnone : QueryText.pathIdentifiers (Escape.encodeChars ['\x7b', '\x7d']) = [] := by decide +kernel
  rw [PreparedQuery.load_of_plain (by simp) (by simp) (by simp), String.toList_ofList, hnone]

theorem descriptorsParse_braces : PreparedQuery.DescriptorsParse ⟨"/", []⟩ "\x7b\x7d" := by
  have hquery : Workspace.loadQuery ⟨"/", []⟩ "\x7b\x7d" = .ok ['\x7b', '\x7d'] := by simp [Workspace.loadQuery]
  intro text htext
  obtain rfl := Except.ok.inj (hquery.symm.trans htext)
  exact ⟨[], rfl⟩

/-- With its task, a query is checked, and the schema has its path. Without paths there is neither. -/
theorem run_greetAt : addNamedTasks {} [("hello", StockTasks.hello)] = .ok greeting ∧
    (schema ["hello"] "\x7b /a \x7b GET \x7b hello \x7d \x7d \x7d").run ⟨"/", []⟩ =
      .ok ("type Query \x7b\n  _slash_a: path\n\x7d\ntype path \x7b\n  GET: task\n  POST: task\n" ++
        "  DELETE: task\n  PUT: task\n  PATCH: task\n\x7d\ntype task \x7b\n  hello: String\n\x7d\n") ∧
    (check ["hello"] "\x7b /a \x7b GET \x7b hello \x7d \x7d \x7d").run ⟨"/", []⟩ =
      .ok "GET /a -> hello\nok: 1 route(s)\n" ∧
    (schema ["hello"] "\x7b\x7d").run ⟨"/", []⟩ = .error .noPaths ∧
    (check ["hello"] "\x7b\x7d").run ⟨"/", []⟩ = .error .noPaths := by
  have hnew : addNamedTasks { context := .empty } [("hello", StockTasks.hello)] = .ok greeting := rfl
  have hpath : RoutePath.IsText "/a" := ⟨by decide, List.all_eq_true.mp (by decide)⟩
  rw [← queryText_greetAt_a]
  have hload := load_queryText ⟨"/", []⟩ (greetAt_ne_nil "/a") (valid_greetAt hpath) (by decide)
  have hd := PreparedQuery.descriptorsParse_of_load hload
  obtain ⟨s', app', hset, hvocabulary, hlabels⟩ := set_greetAt_a
  have hlines : app'.entries.map (fun entry => entry.label ⟨"/", []⟩ ++ "\n") = ["GET /a -> hello\n"] := by
    simpa using congrArg (List.map (· ++ "\n")) hlabels
  have hlength : app'.entries.length = 1 := by simpa using congrArg List.length hlabels
  obtain ⟨hschema, -, hcheck, -⟩ := run_eq_set hnew hd
  rw [hset, hlines, hlength] at hcheck
  obtain ⟨-, hschema', -, hcheck'⟩ := run_eq_set hnew descriptorsParse_braces
  rw [set_of_load_error load_braces] at hcheck'
  refine ⟨hnew, (hschema {} _).mpr ⟨⟨(prepared (greetAt "/a")).paths, ?_⟩, ?_⟩, (hcheck _).mpr ⟨rfl, by decide +kernel⟩,
    (hschema' {} _).mpr ?_, (hcheck' _).mpr rfl⟩
  · rw [← PreparedQuery.map_paths_load hd, hload]
    rfl
  · rw [hset, hvocabulary]
    decide +kernel
  · rw [set_of_load_error load_braces]
    exact ⟨rfl, rfl⟩

end

end Command
end RouteQuery
