import Mathlib.Data.List.Basic
import RouteQuery.Proofs.EscapeRoundTrip
import RouteQuery.Proofs.Listening

/-! Different identifiers stand for different routes, and they are never printed alike: neither in the
labels of entries nor in the news of applied queries. -/
namespace RouteQuery
open Escape Execution Text

/-! ### Identifiers -/

theorem tokenFor?_of_isIdentifier {name : String} (h : isIdentifier name = true) :
    ∀ c ∈ name.toList, tokenFor? c = none := by
  intro c hc
  have hword := List.all_eq_true.mp (all_isWordChar_of_isIdentifier h) c hc
  cases htoken : tokenFor? c with
  | none => rfl
  | some token =>
    rw [isWordChar_of_mem_table (mem_table_of_tokenFor? htoken)] at hword
    cases hword

namespace RoutePath

variable {a b identifier : String}

/-- An identifier is the escaped form of what is printed for it, slashes of a regular expression
included. -/
theorem encode_text_ofIdentifier (h : ∀ c ∈ identifier.toList, tokenFor? c = none) :
    encode (ofIdentifier identifier).text = identifier := by
  unfold ofIdentifier
  split
  · next inner hinner =>
    have hsplit := eq_of_regexSource? hinner
    have hplain : ∀ c ∈ inner, tokenFor? c = none := fun c hc =>
      h c (by rw [hsplit]; exact List.mem_append_right _ (List.mem_append_left _ hc))
    have hslash : encodeChars "/".toList = slashToken.toList := by decide
    have hinside : (String.ofList (decodeChars inner)).toList = decodeChars inner :=
      String.toList_ofList
    rw [encode, text, String.toList_append, String.toList_append, encodeChars_append,
      encodeChars_append, hslash, hinside, encodeChars_decodeChars hplain, List.append_assoc,
      ← hsplit, String.ofList_toList]
  · exact encode_decode h

theorem eq_of_text_eq (ha : isIdentifier a = true) (hb : isIdentifier b = true)
    (h : (ofIdentifier a).text = (ofIdentifier b).text) : a = b := by
  rw [← encode_text_ofIdentifier (tokenFor?_of_isIdentifier ha), h,
    encode_text_ofIdentifier (tokenFor?_of_isIdentifier hb)]

theorem eq_of_ofIdentifier_eq (ha : isIdentifier a = true) (hb : isIdentifier b = true)
    (h : ofIdentifier a = ofIdentifier b) : a = b :=
  eq_of_text_eq ha hb (congrArg text h)

theorem space_not_mem_text (h : isIdentifier identifier = true) :
    ' ' ∉ (ofIdentifier identifier).text.toList := by
  intro hmem
  have hescaped : ' ' ∈ (encode (ofIdentifier identifier).text).toList := by
    rw [encode, String.toList_ofList]
    exact List.mem_flatMap.mpr ⟨' ', hmem, by decide⟩
  rw [encode_text_ofIdentifier (tokenFor?_of_isIdentifier h)] at hescaped
  exact absurd (List.all_eq_true.mp (all_isWordChar_of_isIdentifier h) ' ' hescaped) (by decide)

end RoutePath

/-! ### Labels -/

theorem Text.cut?_append {c : Char} {cs : List Char} (h : c ∉ cs) (rest : List Char) :
    cut? c (cs ++ c :: rest) = some (cs, rest) := by
  induction cs with
  | nil => simp [cut?]
  | cons d ds ih =>
    rw [List.mem_cons, not_or] at h
    rw [List.cons_append, cut?, if_neg (Ne.symm h.1), ih h.2]
    rfl

theorem Text.eq_of_append_cons_eq {c : Char} {xs ys xs' ys' : List Char} (hx : c ∉ xs) (hy : c ∉ ys)
    (h : xs ++ c :: xs' = ys ++ c :: ys') : xs = ys ∧ xs' = ys' := by
  have hcut := congrArg (cut? c) h
  rw [cut?_append hx, cut?_append hy] at hcut
  exact Prod.mk.inj (Option.some.inj hcut)

namespace RouteEntry

variable {w : Workspace} {e f : RouteEntry}

theorem space_not_mem_kind (e : RouteEntry) : ' ' ∉ e.kind.toList := by
  obtain ⟨matcher, method, handler⟩ := e
  cases handler with
  | files directory => simp [kind]
  | tasks chain params =>
    cases method with
    | verb v => cases v <;> simp [kind, Verb.name]
    | any => cases hmode : matcher.mode <;> simp [kind, hmode]

/-- A label can be cut at its first two blanks. -/
theorem text_eq_of_label_eq (he : ' ' ∉ e.matcher.source.text.toList)
    (hf : ' ' ∉ f.matcher.source.text.toList) (h : e.label w = f.label w) :
    e.matcher.source.text = f.matcher.source.text := by
  have hchars := String.toList_inj.mpr h
  have hspace : " ".toList = [' '] := rfl
  have harrow : " -> ".toList = ' ' :: "-> ".toList := rfl
  simp only [label, String.toList_append, hspace, harrow, List.append_assoc, List.cons_append,
    List.nil_append] at hchars
  obtain ⟨-, hrest⟩ := eq_of_append_cons_eq (space_not_mem_kind e) (space_not_mem_kind f) hchars
  obtain ⟨htext, -⟩ := eq_of_append_cons_eq he hf hrest
  exact String.toList_inj.mp htext

end RouteEntry

/-! ### Registered paths -/

/-- The identifier can be added as a path. -/
def Registry.Admits (r : Registry) (identifier : String) : Prop := ∃ r', r.addPath identifier = .ok r'

theorem Registry.isIdentifier_of_admits {r : Registry} {identifier : String}
    (h : r.Admits identifier) : isIdentifier identifier = true := by
  obtain ⟨r', hadd⟩ := h
  by_contra hno
  rw [addPath, if_pos (by simpa using hno)] at hadd
  cases hadd

namespace Site

variable {s s' : Site}

/-- A query leaves the registered paths where they are and adds those in its text, whatever becomes
of it. -/
theorem mem_pathIdentifiers_of_set {w : Workspace} {source : String} {query : PreparedQuery}
    (hload : PreparedQuery.load w source = .ok query) (s : Site) (app : App) (id : String) :
    id ∈ (s.set w app source).2.1.registry.pathIdentifiers ↔
      id ∈ s.registry.pathIdentifiers ∨ id ∈ query.paths := by
  obtain ⟨added, -, hadded, hset⟩ := set_of_load hload s app
  have hpaths : (s.set w app source).2.1.registry.pathIdentifiers =
      s.registry.pathIdentifiers ++ added := by
    rw [hset, ← Registry.pathIdentifiers_withPaths]
    rcases applyQuery_cases (s.setRegistry (s.registry.withPaths added)) w query app with
      ⟨_, _, hs⟩ | ⟨_, _, hs⟩ <;>
    · rw [hs]
      rfl
  rw [hpaths, List.mem_append, hadded]
  by_cases hold : id ∈ s.registry.pathIdentifiers <;> simp [hold]

theorem pathIdentifiers_subset_set (s : Site) (w : Workspace) (app : App) (source : String) :
    s.registry.pathIdentifiers ⊆ (s.set w app source).2.1.registry.pathIdentifiers := by
  cases hload : PreparedQuery.load w source with
  | error fault =>
    rw [set_of_load_error hload]
    exact List.Subset.refl _
  | ok query => exact fun id hid => (mem_pathIdentifiers_of_set hload s app id).mpr (.inl hid)

/-- Apart from queries nothing touches the paths or makes news. -/
theorem Step.set_or_quiet (h : Step s s') :
    (∃ w app source, s' = (s.set w app source).2.1) ∨
      s'.registry.paths = s.registry.paths ∧ s'.ready = s.ready := by
  cases h with
  | addTask hadd =>
    obtain ⟨registry, hregistry, rfl⟩ := Site.of_addTask hadd
    obtain ⟨-, rfl⟩ := Registry.addTask_eq_ok hregistry
    exact .inr ⟨rfl, rfl⟩
  | addNamedTask hadd =>
    obtain ⟨task, -, hadd⟩ := exists_of_bind_eq_ok hadd
    obtain ⟨registry, hregistry, rfl⟩ := Site.of_addTask hadd
    obtain ⟨-, rfl⟩ := Registry.addTask_eq_ok hregistry
    exact .inr ⟨rfl, rfl⟩
  | addStockTasks newId =>
    obtain ⟨added, vocabulary, hadd⟩ := s.addTasks_eq (StockTasks.all newId)
    rw [Site.addStockTasks, hadd]
    exact .inr ⟨rfl, rfl⟩
  | addOptions hadd =>
    obtain ⟨registry, hregistry, rfl⟩ := Site.of_addOptions hadd
    obtain ⟨-, -, rfl⟩ := Registry.addOptions_eq_ok hregistry
    exact .inr ⟨rfl, rfl⟩
  | addHook hadd =>
    obtain ⟨registry, hregistry, rfl⟩ := Site.of_addHook hadd
    obtain ⟨-, -, rfl⟩ := Registry.addHook_eq_ok hregistry
    exact .inr ⟨rfl, rfl⟩
  | set w app source => exact .inl ⟨w, app, source, rfl⟩
  | share context => exact .inr ⟨rfl, rfl⟩

/-! ### News -/

/-- The events that are kept tell of registered paths, and none of them twice of one. -/
def NewsOfPaths (s : Site) : Prop :=
  ∀ ready ∈ s.ready.kept, ready.paths.Nodup ∧
    ∀ path ∈ ready.paths, ∃ id ∈ s.registry.pathIdentifiers, (RoutePath.ofIdentifier id).text = path

theorem NewsOfPaths.mono (h : s.NewsOfPaths) (hready : s'.ready = s.ready)
    (hpaths : s.registry.pathIdentifiers ⊆ s'.registry.pathIdentifiers) : s'.NewsOfPaths := by
  intro ready hmem
  rw [hready] at hmem
  obtain ⟨hnodup, htexts⟩ := h ready hmem
  refine ⟨hnodup, fun path hpath => ?_⟩
  obtain ⟨id, hid, htext⟩ := htexts path hpath
  exact ⟨id, hpaths hid, htext⟩

theorem newsOfPaths_set (hs : s.Consistent) (h : s.NewsOfPaths) (w : Workspace) (app : App)
    (source : String) : (s.set w app source).2.1.NewsOfPaths := by
  have hsubset := s.pathIdentifiers_subset_set w app source
  obtain ⟨result, s', app', hset⟩ : ∃ result s' app', s.set w app source = (result, s', app') :=
    ⟨_, _, _, rfl⟩
  cases result with
  | error fault =>
    rw [hset] at hsubset ⊢
    exact h.mono (ready_of_set_error hset) hsubset
  | ok =>
    obtain ⟨query, d, hooked, routed, happlies, -⟩ := applies_of_set hs hset
    have hknown := mem_pathIdentifiers_of_set happlies.accepts.load s app
    rw [hset] at hsubset hknown ⊢
    have hregistered : ∀ id ∈ fieldNames d.selections, id ∈ s'.registry.pathIdentifiers := by
      intro id hid
      obtain ⟨sel, hsel, rfl⟩ := Vocabulary.mem_fieldNames.mp hid
      obtain ⟨n, hn, children, rfl, -⟩ := happlies.accepts.paths sel hsel
      exact (hknown n).mpr (.inr hn)
    have hidentifier : ∀ id ∈ fieldNames d.selections, isIdentifier id = true := fun id hid =>
      QueryText.isIdentifier_of_isPathIdentifier
        ((hs.of_set hset).registry.isPathIdentifier (hregistered id hid))
    intro ready hmem
    rw [happlies.ready] at hmem
    rcases List.mem_append.mp (List.mem_of_mem_drop hmem) with hold | hnew
    · have hbefore : ({ s with registry := s'.registry } : Site).NewsOfPaths := h.mono rfl hsubset
      exact hbefore ready hold
    · obtain rfl := List.mem_singleton.mp hnew
      refine ⟨?_, fun path hpath => ?_⟩
      · rw [fieldNames_eq_eraseDups] at hidentifier ⊢
        exact (nodup_eraseDups _).map_on fun a ha b hb =>
          RoutePath.eq_of_text_eq (hidentifier a ha) (hidentifier b hb)
      · obtain ⟨id, hid, rfl⟩ := List.mem_map.mp hpath
        exact ⟨id, hregistered id hid, rfl⟩

theorem Reachable.newsOfPaths (h : s.Reachable) : s.NewsOfPaths := by
  induction h with
  | new context => simp [NewsOfPaths]
  | step hs hstep ih =>
    rcases hstep.set_or_quiet with ⟨w, app, source, rfl⟩ | ⟨hpaths, hready⟩
    · exact newsOfPaths_set hs.consistent ih w app source
    · refine ih.mono hready ?_
      rw [Registry.pathIdentifiers, Registry.pathIdentifiers, hpaths]
      exact List.Subset.refl _

/-! ### Told apart -/

/-- The registered paths of a site can be told apart wherever they show. -/
structure TellsApart (s : Site) : Prop where
  paths : ∀ a ∈ s.registry.pathIdentifiers, ∀ b ∈ s.registry.pathIdentifiers, a ≠ b →
    s.registry.path? a ≠ s.registry.path? b
  /-- Entries for different paths have different labels, whatever they do and whenever they were
  added. -/
  labels : ∀ a ∈ s.registry.pathIdentifiers, ∀ b ∈ s.registry.pathIdentifiers, a ≠ b →
    ∀ (w : Workspace) (e f : RouteEntry), s.registry.path? a = some e.matcher.source →
      s.registry.path? b = some f.matcher.source → e.label w ≠ f.label w
  /-- What a subscriber receives can be escaped to read the identifiers of the paths off it, each of
  which is there once. -/
  news : ∀ (subscriber : Ready.Subscriber) (ready : Ready),
    (s.ready.receive subscriber).1 = .event ready → ready.paths.Nodup ∧
      ∀ path ∈ ready.paths, encode path ∈ s.registry.pathIdentifiers ∧
        (s.registry.path? (encode path)).map (·.text) = some path

theorem mem_kept_of_receive {signal : Ready.Signal} {subscriber : Ready.Subscriber} {ready : Ready}
    (h : (signal.receive subscriber).1 = .event ready) : ready ∈ signal.kept := by
  unfold Ready.Signal.receive at h
  split at h
  · cases h
  · split at h
    · next hget =>
      obtain rfl := Ready.Received.event.inj h
      exact List.mem_of_getElem? hget
    · cases h

theorem Reachable.tellsApart (h : s.Reachable) : s.TellsApart := by
  have hs := h.consistent.registry
  have hidentifier : ∀ id ∈ s.registry.pathIdentifiers, isIdentifier id = true := fun id hid =>
    QueryText.isIdentifier_of_isPathIdentifier (hs.isPathIdentifier hid)
  constructor
  · intro a ha b hb hne heq
    rw [hs.path?_eq ha, hs.path?_eq hb] at heq
    exact hne (RoutePath.eq_of_ofIdentifier_eq (hidentifier a ha) (hidentifier b hb)
      (Option.some.inj heq))
  · intro a ha b hb hne w e f he hf hlabel
    rw [hs.path?_eq ha] at he
    rw [hs.path?_eq hb] at hf
    have hea := Option.some.inj he
    have hfb := Option.some.inj hf
    have htext := RouteEntry.text_eq_of_label_eq
      (hea ▸ RoutePath.space_not_mem_text (hidentifier a ha))
      (hfb ▸ RoutePath.space_not_mem_text (hidentifier b hb)) hlabel
    rw [← hea, ← hfb] at htext
    exact hne (RoutePath.eq_of_text_eq (hidentifier a ha) (hidentifier b hb) htext)
  · intro subscriber ready hevent
    obtain ⟨hnodup, htexts⟩ := h.newsOfPaths ready (mem_kept_of_receive hevent)
    refine ⟨hnodup, fun path hpath => ?_⟩
    obtain ⟨id, hid, rfl⟩ := htexts path hpath
    rw [RoutePath.encode_text_ofIdentifier (tokenFor?_of_isIdentifier (hidentifier id hid)),
      hs.path?_eq hid]
    exact ⟨hid, rfl⟩

/-- Reading a text without reserved characters and escaping it again changes nothing. Hence no two
identifiers that can be added as paths stand for the same route or are printed as the same text, and a
program never gets to a site where two registered paths could be confused. -/
theorem Reachable.paths_told_apart (h : s.Reachable) :
    (∀ text : String, (∀ c ∈ text.toList, tokenFor? c = none) → encode (decode text) = text) ∧
    (∀ (r : Registry) (a b : String), r.Admits a → r.Admits b → a ≠ b →
      RoutePath.ofIdentifier a ≠ RoutePath.ofIdentifier b ∧
      (RoutePath.ofIdentifier a).text ≠ (RoutePath.ofIdentifier b).text) ∧
    s.TellsApart := by
  refine ⟨fun text => encode_decode, fun r a b ha hb hne => ?_, h.tellsApart⟩
  have ha := Registry.isIdentifier_of_admits ha
  have hb := Registry.isIdentifier_of_admits hb
  exact ⟨mt (RoutePath.eq_of_ofIdentifier_eq ha hb) hne, mt (RoutePath.eq_of_text_eq ha hb) hne⟩

/-- A path and the regular expression between its slashes: two routes, each with its own news. -/
theorem paths_told_apart_greetings : ∃ s : Site, s.Reachable ∧
    (s.ready.receive ⟨0⟩).1 = .event ⟨1, ["/a"]⟩ ∧
    (s.ready.receive ⟨1⟩).1 = .event ⟨2, ["/a/"]⟩ ∧
    s.registry.path? "_slash_a" = some (.literal "/a") ∧
    s.registry.path? "_slash_a_slash_" = some (.regex "a") ∧ s.TellsApart ∧
    (RoutePath.ofIdentifier "_slash_a").text ≠ (RoutePath.ofIdentifier "_slash_a_slash_").text ∧
    encode (decode "_slash_slash_dot_") = "_slash_slash_dot_" := by
  have hplain : RoutePath.IsText "/a" := ⟨by decide, List.all_eq_true.mp (by decide)⟩
  have hregex : RoutePath.IsText "/a/" := ⟨by decide, List.all_eq_true.mp (by decide)⟩
  obtain ⟨s₁, app₁, hset₁, htasks, hparams, hready₁⟩ :=
    set_greetAt reachable_greeting.consistent rfl rfl ⟨"/", []⟩ {} hplain (by decide +kernel)
  have hs₁ := reachable_greeting.of_set hset₁
  obtain ⟨s₂, app₂, hset₂, -, -, hready₂⟩ :=
    set_greetAt hs₁.consistent htasks hparams ⟨"/", []⟩ app₁ hregex (by decide +kernel)
  have hs₂ := hs₁.of_set hset₂
  rw [RoutePath.ofIdentifier_encode hplain, RoutePath.text_ofText] at hready₁
  rw [RoutePath.ofIdentifier_encode hregex, RoutePath.text_ofText, hready₁] at hready₂
  have hfirst : (s₂.ready.receive ⟨0⟩).1 = .event ⟨1, ["/a"]⟩ := by rw [hready₂]; rfl
  have hsecond : (s₂.ready.receive ⟨1⟩).1 = .event ⟨2, ["/a/"]⟩ := by rw [hready₂]; rfl
  obtain ⟨hback, hdiffer, happart⟩ := hs₂.paths_told_apart
  have hencode₁ : encode "/a" = "_slash_a" := by decide
  have hencode₂ : encode "/a/" = "_slash_a_slash_" := by decide
  have hknown₁ := ((happart.news _ _ hfirst).2 "/a" (by simp)).1
  have hknown₂ := ((happart.news _ _ hsecond).2 "/a/" (by simp)).1
  rw [hencode₁] at hknown₁
  rw [hencode₂] at hknown₂
  refine ⟨s₂, hs₂, hfirst, hsecond, ?_, ?_, happart, ?_, hback _ (tokenFor?_of_isIdentifier (by decide))⟩
  · rw [hs₂.consistent.registry.path?_eq hknown₁, ← hencode₁, RoutePath.ofIdentifier_encode hplain]
    rfl
  · rw [hs₂.consistent.registry.path?_eq hknown₂, ← hencode₂, RoutePath.ofIdentifier_encode hregex]
    rfl
  · exact (hdiffer {} _ _ ⟨_, rfl⟩ ⟨_, rfl⟩ (by decide)).2

end Site
end RouteQuery
