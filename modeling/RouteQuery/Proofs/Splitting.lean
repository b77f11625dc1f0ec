import RouteQuery.Proofs.Accepting

/-! A query in two parts. Together they are applied exactly when they are one after the other, and to
the same effect. -/
namespace RouteQuery
open Execution Text

/-! ### Selection lists in braces -/

/-- A query that consists of a selection list. -/
def braced (list : String) : String := "\x7b " ++ list ++ " \x7d"

/-- There are no annotations and no comments. -/
structure Unannotated (list : String) : Prop where
  at_not_mem : '@' ∉ list.toList
  hash_not_mem : '#' ∉ list.toList

theorem Unannotated.append {a b : String} (ha : Unannotated a) (hb : Unannotated b) :
    Unannotated (a ++ " " ++ b) := by
  constructor
  · simpa using ⟨ha.at_not_mem, hb.at_not_mem⟩
  · simpa using ⟨ha.hash_not_mem, hb.hash_not_mem⟩

theorem encodeChars_braced (list : String) : Escape.encodeChars (braced list).toList =
    '{' :: ' ' :: (Escape.encodeChars list.toList ++ [' ', '}']) := by
  have hopening : Escape.encodeChars "\x7b ".toList = ['{', ' '] := by decide
  have hclosing : Escape.encodeChars " \x7d".toList = [' ', '}'] := by decide
  simp only [braced, String.toList_append, Escape.encodeChars_append, hopening, hclosing]
  rfl

section
variable {list a b : String} {w : Workspace}

theorem normalize_braced (h : Unannotated list) :
    QueryText.normalize (braced list).toList = .ok (Escape.encodeChars (braced list).toList) := by
  have hat : '@' ∉ (braced list).toList := by simpa [braced] using h.at_not_mem
  have hhash : '#' ∉ (braced list).toList := by simpa [braced] using h.hash_not_mem
  rw [QueryText.normalize, QueryText.validate_of_openBrace (by simp [braced]),
    QueryText.stripComments_of_not_mem hhash, QueryText.stripDescriptors_of_not_mem hat]
  rfl

theorem tokens_braced (h : Unannotated list) :
    tokens (Escape.encodeChars (braced list).toList) =
      .openBrace :: (tokens (Escape.encodeChars list.toList) ++
        if .stray ∈ tokens (Escape.encodeChars list.toList) then [] else [.closeBrace]) := by
  have hhash := Escape.hash_not_mem_encodeChars h.hash_not_mem
  have hstop : StopsAt isWordChar [' ', '}'] := by simp [isWordChar]
  rw [encodeChars_braced, tokens_openBrace, tokens_space, tokens_append hhash hstop, tokens_space,
    tokens_closeBrace, tokens_nil]

/-- A query of a list that can be read is spelt by the tokens of the list. -/
theorem tokens_of_parse_braced (h : Unannotated list) {d : Document}
    (hparse : Document.parse (Escape.encodeChars (braced list).toList) = .ok d) :
    tokens (Escape.encodeChars list.toList) = Selection.tokens d.selections := by
  have hread := Document.tokens_of_parse hparse (tokens_braced h)
  split at hread
  · next hstray =>
    rw [List.append_nil] at hread
    rw [hread] at hstray
    simp [Selection.stray_not_mem_tokens] at hstray
  · exact List.append_cancel_right hread

theorem parse_braced_append (ha : Unannotated a) (hb : Unannotated b) {da db : Document}
    (hda : Document.parse (Escape.encodeChars (braced a).toList) = .ok da)
    (hdb : Document.parse (Escape.encodeChars (braced b).toList) = .ok db) :
    Document.parse (Escape.encodeChars (braced (a ++ " " ++ b)).toList) =
      .ok ⟨none, da.selections ++ db.selections⟩ := by
  have hhash := Escape.hash_not_mem_encodeChars ha.hash_not_mem
  have hstop : StopsAt isWordChar (' ' :: Escape.encodeChars b.toList) := by simp [isWordChar]
  have hspace : Escape.encodeChars " ".toList = [' '] := by decide
  have hlist : tokens (Escape.encodeChars (a ++ " " ++ b).toList) =
      Selection.tokens (da.selections ++ db.selections) := by
    rw [String.toList_append, String.toList_append, Escape.encodeChars_append,
      Escape.encodeChars_append, hspace, List.append_assoc, List.singleton_append,
      tokens_append hhash hstop, tokens_space, tokens_of_parse_braced ha hda,
      tokens_of_parse_braced hb hdb, if_neg (Selection.stray_not_mem_tokens _),
      Selection.tokens_append]
  obtain ⟨hne, hfilled⟩ := Document.filled_of_parse hda
  refine Document.parse_of_tokens (by simp [hne]) ?_ ?_
  · exact Selection.filled_append.mpr ⟨hfilled, (Document.filled_of_parse hdb).2⟩
  · rw [tokens_braced (ha.append hb), hlist, if_neg (Selection.stray_not_mem_tokens _)]

end

/-! ### Selections that a registry serves -/

namespace Registry

variable {r r' : Registry} {sel : Selection}

/-- A selection whose routes can be added: a path in form and in content, which can be mounted. -/
structure Serves (r : Registry) (sel : Selection) : Prop where
  path : sel.IsPath [sel.name] r.taskNames
  identifier : QueryText.isPathIdentifier sel.name = true
  mounts : r.Mounts r.params sel.name

theorem serves_congr (htasks : r.tasks = r'.tasks) (hparams : r.params = r'.params) :
    r.Serves sel ↔ r'.Serves sel := by
  have hnames : r.taskNames = r'.taskNames := congrArg (List.map Task.name) htasks
  constructor
  · intro h
    exact ⟨hnames ▸ h.path, h.identifier, hparams ▸ h.mounts.congr htasks⟩
  · intro h
    exact ⟨hnames ▸ h.path, h.identifier, hparams ▸ h.mounts.congr htasks.symm⟩

theorem task?_congr (htasks : r.tasks = r'.tasks) : r.task? = r'.task? := by
  funext name
  rw [task?, task?, htasks]

theorem bindings_congr (htasks : r.tasks = r'.tasks) (params : List (String × Descriptor))
    (identifier : String) : r.bindings params identifier = r'.bindings params identifier := by
  rw [bindings, bindings, task?_congr htasks]

/-- With the same tasks and parameters a route stands for the same entry. -/
theorem EntryFor.unique (hr : r.Consistent) (hr' : r'.Consistent) (htasks : r.tasks = r'.tasks)
    {params : List (String × Descriptor)} {route : PathRoute} {entry entry' : RouteEntry}
    (h : r.EntryFor params route entry) (h' : r'.EntryFor params route entry') : entry = entry' := by
  obtain ⟨path, hpath, hcompile⟩ := h.matcher
  obtain ⟨path', hpath', hcompile'⟩ := h'.matcher
  obtain rfl := hr.ofIdentifier_of_path? hpath
  obtain rfl := hr'.ofIdentifier_of_path? hpath'
  have hmatcher := Except.ok.inj (hcompile.symm.trans hcompile')
  have hmethod := h.method.trans h'.method.symm
  have hhandler : entry.handler = entry'.handler := by
    rw [h.handler, h'.handler, task?_congr htasks, bindings_congr htasks]
  cases entry
  cases entry'
  rw [RouteEntry.mk.injEq]
  exact ⟨hmatcher, hmethod, hhandler⟩

/-- A registry with the same tasks and parameters makes this entry of the route. -/
def Makes (r : Registry) (route : PathRoute) (entry : RouteEntry) : Prop :=
  ∃ r' : Registry, r'.Consistent ∧ r'.tasks = r.tasks ∧ r'.EntryFor r.params route entry

theorem rightUnique_makes : Relator.RightUnique r.Makes := by
  rintro route entry entry' ⟨r₁, hr₁, htasks₁, h₁⟩ ⟨r₂, hr₂, htasks₂, h₂⟩
  exact h₁.unique hr₁ hr₂ (htasks₁.trans htasks₂.symm) h₂

end Registry

namespace Site

variable {s s' : Site} {w : Workspace} {app app' : App} {list : String} {d : Document}

theorem load_braced (w : Workspace) (h : Unannotated list) : PreparedQuery.load w (braced list) =
    match QueryText.pathIdentifiers (Escape.encodeChars (braced list).toList) with
      | [] => .error .noPaths
      | paths => .ok ⟨[], Escape.encodeChars (braced list).toList, paths.eraseDups⟩ :=
  PreparedQuery.load_of_plain (by simp [braced]) (by simpa [braced] using h.at_not_mem)
    (by simpa [braced] using h.hash_not_mem)

/-- A list is applied exactly when all its selections can be served. -/
theorem set_braced_ok_iff (hs : s.Consistent) (w : Workspace) (app : App) (h : Unannotated list)
    (hparse : Document.parse (Escape.encodeChars (braced list).toList) = .ok d) :
    (∃ s' app', s.set w app (braced list) = (.ok (), s', app')) ↔
      ∀ sel ∈ d.selections, s.registry.Serves sel := by
  have hfound : ∀ sel ∈ d.selections, QueryText.isPathIdentifier sel.name = true →
      sel.name ∈ QueryText.pathIdentifiers (Escape.encodeChars (braced list).toList) :=
    fun sel hsel hid =>
      mem_pathIdentifiers_of_mem_tokens hid (Document.mem_tokens_of_parse hparse sel hsel)
  have hload := load_braced w h
  cases hids : QueryText.pathIdentifiers (Escape.encodeChars (braced list).toList) with
  | nil =>
    rw [hids] at hload hfound
    rw [set_of_load_error hload]
    constructor
    · rintro ⟨_, _, hset⟩
      cases hset
    · intro hserves
      obtain ⟨sel, hsel⟩ := List.exists_mem_of_ne_nil _ (Document.filled_of_parse hparse).1
      cases hfound sel hsel (hserves sel hsel).identifier
  | cons id ids =>
    rw [hids] at hload
    rw [set_eq_ok_iff hs app hload (by simp) hparse]
    constructor
    · rintro ⟨hpaths, hmounts⟩ sel hsel
      obtain ⟨n, hn, children, rfl, hverbs⟩ := hpaths sel hsel
      exact ⟨⟨n, List.mem_singleton_self n, children, rfl, hverbs⟩,
        PreparedQuery.isPathIdentifier_of_load hload n hn,
        hmounts n (Vocabulary.mem_fieldNames.mpr ⟨_, hsel, rfl⟩)⟩
    · intro hserves
      constructor
      · intro sel hsel
        have hmem := hfound sel hsel (hserves sel hsel).identifier
        obtain ⟨n, -, children, rfl, hverbs⟩ := (hserves sel hsel).path
        exact ⟨n, (PreparedQuery.mem_paths_of_load hload).mpr hmem, children, rfl, hverbs⟩
      · intro name hname
        obtain ⟨sel, hsel, rfl⟩ := Vocabulary.mem_fieldNames.mp hname
        exact (hserves sel hsel).mounts

/-- A list that is applied adds its routes and nothing else. -/
theorem of_set_braced (hs : s.Consistent) (h : Unannotated list)
    (hparse : Document.parse (Escape.encodeChars (braced list).toList) = .ok d)
    (hset : s.set w app (braced list) = (.ok (), s', app')) :
    ∃ routed, app' = app.extend ⟨routed, []⟩ ∧ s'.registry.tasks = s.registry.tasks ∧
      s'.registry.params = s.registry.params ∧
      List.Forall₂ (s'.registry.EntryFor s.registry.params)
        (routesOf (Selection.pathAnswers d.selections)) routed := by
  obtain ⟨query, d', hooked, routed, happlies, happ⟩ := applies_of_set hs hset
  have hquery : query.descriptors = [] ∧ query.text = Escape.encodeChars (braced list).toList := by
    have hload := happlies.accepts.load
    rw [load_braced w h] at hload
    split at hload
    · cases hload
    · obtain rfl := Except.ok.inj hload
      exact ⟨rfl, rfl⟩
  obtain ⟨hplain, htext⟩ := hquery
  rw [← htext] at hparse
  obtain rfl := Except.ok.inj (hparse.symm.trans happlies.accepts.parse)
  have hparams : s'.registry.params = s.registry.params := by
    rw [happlies.params, hplain]
    rfl
  have hrouted := happlies.routed
  rw [hparams] at hrouted
  obtain rfl := happlies.hooked (by simp [hplain])
  exact ⟨routed, happ, happlies.tasks, hparams, hrouted⟩

/-- A list of selections in two parts is applied exactly when its parts are applied one after the
other. The routes of the first part come before those of the second, and nothing else is changed. -/
theorem set_split (hs : s.Reachable) (w : Workspace) (app : App) {a b : String}
    (ha : Unannotated a) (hb : Unannotated b) {na nb : List Char} {da db : Document}
    (hna : QueryText.normalize (braced a).toList = .ok na)
    (hnb : QueryText.normalize (braced b).toList = .ok nb)
    (hda : Document.parse na = .ok da) (hdb : Document.parse nb = .ok db)
    (hdisjoint : ∀ x ∈ da.selections, ∀ y ∈ db.selections, x.name ≠ y.name) :
    ((∃ s' app', s.set w app (braced (a ++ " " ++ b)) = (.ok (), s', app')) ↔
      ∃ s₁ app₁ s₂ app₂, s.set w app (braced a) = (.ok (), s₁, app₁) ∧
        s₁.set w app₁ (braced b) = (.ok (), s₂, app₂)) ∧
    ∀ s' app' s₁ app₁ s₂ app₂, s.set w app (braced (a ++ " " ++ b)) = (.ok (), s', app') →
      s.set w app (braced a) = (.ok (), s₁, app₁) → s₁.set w app₁ (braced b) = (.ok (), s₂, app₂) →
      ∃ first second, app₁ = app.extend ⟨first, []⟩ ∧ app₂ = app₁.extend ⟨second, []⟩ ∧
        app' = app.extend ⟨first ++ second, []⟩ ∧ s'.registry.params = s₂.registry.params := by
  rw [normalize_braced ha] at hna
  rw [normalize_braced hb] at hnb
  obtain rfl := Except.ok.inj hna
  obtain rfl := Except.ok.inj hnb
  have hboth := parse_braced_append ha hb hda hdb
  have hsc := hs.consistent
  constructor
  · rw [set_braced_ok_iff hsc w app (ha.append hb) hboth, List.forall_mem_append]
    constructor
    · rintro ⟨hfirst, hsecond⟩
      obtain ⟨s₁, app₁, hset₁⟩ := (set_braced_ok_iff hsc w app ha hda).mpr hfirst
      obtain ⟨-, -, htasks, hparams, -⟩ := of_set_braced hsc ha hda hset₁
      have hsecond' : ∀ sel ∈ db.selections, s₁.registry.Serves sel := fun sel hsel =>
        (Registry.serves_congr htasks hparams).mpr (hsecond sel hsel)
      obtain ⟨s₂, app₂, hset₂⟩ := (set_braced_ok_iff (hsc.of_set hset₁) w app₁ hb hdb).mpr hsecond'
      exact ⟨s₁, app₁, s₂, app₂, hset₁, hset₂⟩
    · rintro ⟨s₁, app₁, s₂, app₂, hset₁, hset₂⟩
      obtain ⟨-, -, htasks, hparams, -⟩ := of_set_braced hsc ha hda hset₁
      have hsecond := (set_braced_ok_iff (hsc.of_set hset₁) w app₁ hb hdb).mp ⟨s₂, app₂, hset₂⟩
      exact ⟨(set_braced_ok_iff hsc w app ha hda).mp ⟨s₁, app₁, hset₁⟩, fun sel hsel =>
        (Registry.serves_congr htasks hparams).mp (hsecond sel hsel)⟩
  · intro s' app' s₁ app₁ s₂ app₂ hset hset₁ hset₂
    have hs₁ := hsc.of_set hset₁
    obtain ⟨routed, rfl, htasks, hparams, hrouted⟩ := of_set_braced hsc (ha.append hb) hboth hset
    obtain ⟨first, rfl, htasks₁, hparams₁, hfirst⟩ := of_set_braced hsc ha hda hset₁
    obtain ⟨second, rfl, htasks₂, hparams₂, hsecond⟩ := of_set_braced hs₁ hb hdb hset₂
    have hnames : ∀ n ∈ fieldNames da.selections, n ∉ fieldNames db.selections := by
      intro n hn hn'
      obtain ⟨x, hx, rfl⟩ := Vocabulary.mem_fieldNames.mp hn
      obtain ⟨y, hy, hname⟩ := Vocabulary.mem_fieldNames.mp hn'
      exact hdisjoint x hx y hy hname.symm
    have hroutes : routesOf (Selection.pathAnswers (da.selections ++ db.selections)) =
        routesOf (Selection.pathAnswers da.selections) ++
          routesOf (Selection.pathAnswers db.selections) := by
      rw [Selection.pathAnswers_append hnames, routesOf, routesOf, routesOf, List.flatMap_append]
    rw [hroutes] at hrouted
    rw [hparams₁] at hsecond
    -- Each of the three registries makes the same entry of a route.
    have hmade {r : Registry} (hr : r.Consistent) (htasks : r.tasks = s.registry.tasks)
        (route : PathRoute) (entry : RouteEntry) (h : r.EntryFor s.registry.params route entry) :
        s.registry.Makes route entry := ⟨r, hr, htasks, h⟩
    have hsame : routed = first ++ second := by
      have hboth := List.rel_append (hfirst.imp (hmade hs₁.registry htasks₁))
        (hsecond.imp (hmade (hs₁.of_set hset₂).registry (htasks₂.trans htasks₁)))
      have hwhole := hrouted.imp (hmade (hsc.of_set hset).registry htasks)
      exact List.right_unique_forall₂' Registry.rightUnique_makes hwhole hboth
    refine ⟨first, second, rfl, rfl, by rw [hsame], ?_⟩
    rw [hparams, hparams₂, hparams₁]

theorem set_split_greetings : ∃ s₁ app₁ s₂ app₂ s' app',
    greeting.set ⟨"/", []⟩ {} (braced "/a \x7b GET \x7b hello \x7d \x7d") = (.ok (), s₁, app₁) ∧
    s₁.set ⟨"/", []⟩ app₁ (braced "/b \x7b GET \x7b hello \x7d \x7d") = (.ok (), s₂, app₂) ∧
    greeting.set ⟨"/", []⟩ {} (braced ("/a \x7b GET \x7b hello \x7d \x7d" ++ " " ++
      "/b \x7b GET \x7b hello \x7d \x7d")) = (.ok (), s', app') ∧
    app' = app₂ := by
  have hs := reachable_greeting.consistent
  have hpa : RoutePath.IsText "/a" := ⟨by decide, List.all_eq_true.mp (by decide)⟩
  have hpb : RoutePath.IsText "/b" := ⟨by decide, List.all_eq_true.mp (by decide)⟩
  have ha : RouteBlock.queryText (greetAt "/a") = braced "/a \x7b GET \x7b hello \x7d \x7d" :=
    queryText_greetAt "/a"
  have hb : RouteBlock.queryText (greetAt "/b") = braced "/b \x7b GET \x7b hello \x7d \x7d" :=
    queryText_greetAt "/b"
  have hua : Unannotated "/a \x7b GET \x7b hello \x7d \x7d" := ⟨by simp, by simp⟩
  have hub : Unannotated "/b \x7b GET \x7b hello \x7d \x7d" := ⟨by simp, by simp⟩
  have hda := parse_greetAt hpa
  have hdb := parse_greetAt hpb
  obtain ⟨s₁, app₁, hset₁, htasks, hparams, -⟩ := set_greetAt hs rfl rfl ⟨"/", []⟩ {} hpa
    (by decide +kernel)
  obtain ⟨s₂, app₂, hset₂, -⟩ := set_greetAt (hs.of_set hset₁) htasks hparams ⟨"/", []⟩ app₁ hpb (by decide +kernel)
  rw [ha] at hda hset₁
  rw [hb] at hdb hset₂
  have hdisjoint : ∀ x ∈ (greetDocument "/a").selections, ∀ y ∈ (greetDocument "/b").selections,
      x.name ≠ y.name :=
    List.forall_mem_singleton.mpr (List.forall_mem_singleton.mpr (by decide))
  obtain ⟨hiff, hentries⟩ := set_split reachable_greeting ⟨"/", []⟩ {} hua hub (normalize_braced hua)
    (normalize_braced hub) hda hdb hdisjoint
  obtain ⟨s', app', hset⟩ := hiff.mpr ⟨s₁, app₁, s₂, app₂, hset₁, hset₂⟩
  obtain ⟨first, second, rfl, rfl, rfl, -⟩ := hentries _ _ _ _ _ _ hset hset₁ hset₂
  exact ⟨s₁, _, s₂, _, s', _, hset₁, hset₂, hset, by simp [App.extend]⟩

end Site
end RouteQuery
