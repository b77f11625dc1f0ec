import RouteQuery.Dispatch
import RouteQuery.Proofs.MountBoundaries
import RouteQuery.Proofs.RequestTargets

/-! Directories that are mounted at plain paths: which requests they are asked, and for what. -/
namespace RouteQuery
open Http Pattern PathTemplate

/-- A path of plain text. -/
def PlainMount (mount : String) : Prop := ∀ c ∈ mount.toList, c ∉ operators

instance (mount : String) : Decidable (PlainMount mount) :=
  List.decidableBAll (· ∉ operators) mount.toList

/-- A path opens with the mount, up to case and to the slashes at the end of the mount, and `rest` is
what follows: nothing, or more from a slash on. -/
def LiesBelow (mount : String) (path rest : List Char) : Prop :=
  ∃ front, path = front ++ rest ∧
    front.map Text.simpleFold = (body mount.toList .mount).map Text.simpleFold ∧
    (rest = [] ∨ rest.head? = some '/')

/-- The expression for a mount of plain text. -/
def plainNode (mount : String) : Node :=
  Part.seqNode (anchor :: (body mount.toList .mount).map plainPart)

section
variable {mount : String} {m : PathMatcher} {path front rest : List Char}

theorem PlainMount.opensPlainly (hplain : PlainMount mount) : OpensPlainly mount := by
  constructor <;> exact fun hfirst => hplain _ (List.mem_of_mem_head? hfirst) (by decide)

/-- Nothing but its size keeps a mount of plain text from being compiled. -/
theorem compile_plain (hplain : PlainMount mount) :
    PathTemplate.compile mount .mount =
      if (plainNode mount).size ≤ Build.maxSize then .ok (plainNode mount, [])
      else .error (.badPattern (String.ofList (source ((body mount.toList .mount).map .plain) .mount))) := by
  have hbody : ∀ c ∈ body mount.toList .mount, c ∉ operators :=
    fun c hc => hplain c ((body_isPrefix _ _).subset hc)
  have hps : pieces 0 (body mount.toList .mount) = .ok ((body mount.toList .mount).map .plain) := by
    have h := pieces_plain_append hbody pieces_nil 0
    rwa [List.append_nil, List.append_nil] at h
  have hassemble : assemble opening [] 0 ((body mount.toList .mount).map .plain ++
      ending (body mount.toList .mount) .mount) =
        some (pushAll opening ((body mount.toList .mount).map plainPart), []) := by
    rw [ending, assemble_plain_append (by simp)]
    rfl
  have hdepth : ∀ part ∈ (body mount.toList .mount).map plainPart, part.depth ≤ 3 := by
    intro part hpart
    obtain ⟨c, -, rfl⟩ := List.mem_map.mp hpart
    exact Nat.zero_le 3
  rw [compile_of_assemble hps hassemble, closing, finish_pushAll hdepth, ← plainNode, ending, List.append_nil]
  split_ifs <;> rfl

theorem matchesAll_plainNode :
    (plainNode mount).MatchesAll front ↔
      front.map Text.simpleFold = (body mount.toList .mount).map Text.simpleFold := by
  constructor
  · rintro ⟨q, hq, hrest⟩
    obtain ⟨_, ⟨-, rfl⟩, hall⟩ := Part.reaches_seqNode_cons.mp hq
    obtain ⟨x, hfold, hpasses, -⟩ := reachesAll_plain.mp hall
    obtain rfl : front = x := by simpa [Point.atStart, hrest] using hpasses.rest
    exact hfold
  · intro hfold
    refine ⟨⟨front.getLast?, [], []⟩, Part.reaches_seqNode_cons.mpr ⟨_, ⟨rfl, rfl⟩,
      reachesAll_plain.mpr ⟨front, hfold, ⟨?_, ?_⟩, rfl⟩⟩, rfl⟩ <;> simp [Point.atStart]

theorem getLast?_body_mount (path : List Char) : (body path .mount).getLast? ≠ some '/' := by
  intro hslash
  rw [body, List.getLast?_reverse] at hslash
  have := Text.stopsAt_dropWhile (· == '/') path.reverse '/' hslash
  cases this

/-- A text like a mount does not end in a slash, so a boundary behind it opens what follows. -/
theorem onBoundary_iff_of_fold
    (hfold : front.map Text.simpleFold = (body mount.toList .mount).map Text.simpleFold) :
    OnBoundary front rest ↔ rest = [] ∨ rest.head? = some '/' := by
  have hlast : front.getLast? ≠ some '/' := by
    intro hslash
    have hmap : (front.map Text.simpleFold).getLast? = some '/' := by
      rw [List.getLast?_map, hslash, Option.map_some, Text.simpleFold_eq_slash_iff.mpr rfl]
    rw [hfold, List.getLast?_map, Option.map_eq_some_iff] at hmap
    obtain ⟨c, hc, hslash'⟩ := hmap
    obtain rfl := Text.simpleFold_eq_slash_iff.mp hslash'
    exact getLast?_body_mount _ hc
  simp [OnBoundary, hlast]

/-- A path has one leading part like the mount at most. -/
theorem append_inj_of_fold {cs front' rest' : List Char} (heq : front ++ rest = front' ++ rest')
    (hfold : front.map Text.simpleFold = cs.map Text.simpleFold)
    (hfold' : front'.map Text.simpleFold = cs.map Text.simpleFold) : front = front' ∧ rest = rest' := by
  refine List.append_inj heq ?_
  rw [← List.length_map Text.simpleFold, hfold, ← hfold', List.length_map]

theorem LiesBelow.rest_eq {rest' : List Char} (h : LiesBelow mount path rest)
    (h' : LiesBelow mount path rest') : rest = rest' := by
  obtain ⟨front, rfl, hfold, -⟩ := h
  obtain ⟨front', hpath, hfold', -⟩ := h'
  exact (append_inj_of_fold hpath hfold hfold').2

theorem of_compile_plain (hplain : PlainMount mount)
    (hm : PathMatcher.compile (.literal mount) .mount = .ok m) : m.node = plainNode mount := by
  have hcompile := (PathMatcher.of_compile_eq_ok hm).1
  rw [compile_plain hplain] at hcompile
  split_ifs at hcompile
  exact (Prod.mk.inj (Except.ok.inj hcompile)).1.symm

theorem liesBelow_iff (hplain : PlainMount mount)
    (hm : PathMatcher.compile (.literal mount) .mount = .ok m) :
    LiesBelow mount path rest ↔ ∃ front, m.Fits path front rest ∧ OnBoundary front rest := by
  simp only [PathMatcher.Fits, of_compile_plain hplain hm, matchesAll_plainNode, LiesBelow, and_assoc]
  refine exists_congr fun front => and_congr_right fun _ => ?_
  exact ⟨fun h => ⟨h.1, (onBoundary_iff_of_fold h.1).mpr h.2⟩,
    fun h => ⟨h.1, (onBoundary_iff_of_fold h.1).mp h.2⟩⟩

/-- A mount of plain text accepts the paths that lie below it, and leaves what follows. -/
theorem matches?_plain_iff (hplain : PlainMount mount)
    (hm : PathMatcher.compile (.literal mount) .mount = .ok m) :
    (∃ found, m.matches? path = some found ∧ found.rest = rest) ↔ LiesBelow mount path rest := by
  have hsound : ∀ found, m.matches? path = some found → LiesBelow mount path found.rest :=
    fun found hfound => (liesBelow_iff hplain hm).mpr
      (PathMatcher.boundary_of_matches? hplain.opensPlainly hm hfound)
  constructor
  · rintro ⟨found, hfound, rfl⟩
    exact hsound found hfound
  · intro hbelow
    obtain ⟨found, hfound⟩ : ∃ found, m.matches? path = some found := by
      rw [← Option.ne_none_iff_exists']
      intro hrefused
      obtain ⟨front, hfits, hboundary⟩ := (liesBelow_iff hplain hm).mp hbelow
      rcases (PathMatcher.refuses_iff hplain.opensPlainly hm).mp hrefused with
        hnone | ⟨q, front', -, hfits', hoff⟩
      · exact hnone front rest hfits
      · have hnode := of_compile_plain hplain hm
        have hfold := matchesAll_plainNode.mp (hnode ▸ hfits.2)
        have hfold' := matchesAll_plainNode.mp (hnode ▸ hfits'.2)
        obtain ⟨rfl, rfl⟩ := append_inj_of_fold (hfits.1.symm.trans hfits'.1) hfold hfold'
        exact hoff hboundary
    exact ⟨found, hfound, (hsound found hfound).rest_eq hbelow⟩

end

/-! ### Entries for directories -/

section
variable {w : Workspace} {entry : RouteEntry} {behind : List RouteEntry} {req : Request}
  {found : PathMatch} {d : StaticFiles}

theorem dispatch_of_refused (h : entry.accepts? req = none) :
    dispatch w (entry :: behind) req = dispatch w behind req := by
  rw [dispatch, h]

/-- Asked for a file, a directory that has an answer gives it, and otherwise the entries behind are
tried. -/
theorem dispatch_files (hfiles : entry.handler = .files d)
    (hmethod : req.method = "GET" ∨ req.method = "HEAD")
    (h : entry.accepts? req = some found) :
    dispatch w (entry :: behind) req =
      let response := d.serve w (found.below req.uri) req.headers
      if response.status = 404 then dispatch w behind req else pure response := by
  rw [dispatch, h]
  simp only [hfiles, StaticFiles.serve?, if_pos hmethod, Option.filter_some]
  by_cases hstatus : (d.serve w (found.below req.uri) req.headers).status = 404 <;> simp [hstatus]

/-- What remains of a target below a mount, with a slash where nothing remains. -/
def remaining (uri : Uri) (rest : List Char) : Uri := ⟨if rest = [] then ['/'] else rest, uri.query⟩

theorem below_eq_remaining (found : PathMatch) (uri : Uri)
    (h : found.rest = [] ∨ found.rest.head? = some '/') : found.below uri = remaining uri found.rest := by
  rw [PathMatch.below, remaining]
  rcases h with h | h
  · simp [h]
  · have hne : found.rest ≠ [] := by
      intro hnil
      rw [hnil] at h
      cases h
    rw [if_pos h, if_neg hne]

theorem serveFiles_eq_ok_iff {app app' : App} {mount : String} :
    app.serveFiles mount d = .ok app' ↔ ∃ m, PathMatcher.compile (.literal mount) .mount = .ok m ∧
      app' = app.push ⟨m, .any, .files d⟩ := by
  constructor
  · intro h
    obtain ⟨m, hm, happ⟩ := exists_of_bind_eq_ok h
    exact ⟨m, hm, (Except.ok.inj happ).symm⟩
  · rintro ⟨m, hm, rfl⟩
    rw [App.serveFiles, hm]
    rfl

theorem compile_plain_isOk_iff {mount : String} (hplain : PlainMount mount) :
    (∃ m, PathMatcher.compile (.literal mount) .mount = .ok m) ↔
      (plainNode mount).size ≤ Build.maxSize := by
  unfold PathMatcher.compile
  simp only [compile_plain hplain]
  split_ifs with hsize <;> simp [hsize]

end

/-- A directory mounted at a plain path is asked about the requests for paths that lie below the mount,
and of them only for what remains of the target: the rest of the path as it was sent, and the query.
Such a target reads back from its text. All other requests go on to the entries behind. -/
theorem directories_get_remaining {mount : String} (hplain : PlainMount mount) (app : App) (d : StaticFiles) :
    ((∃ app', app.serveFiles mount d = .ok app') ↔ (plainNode mount).size ≤ Build.maxSize) ∧
    ∀ app', app.serveFiles mount d = .ok app' → ∃ entry, app' = app.push entry ∧
      ∀ w behind req, req.method = "GET" ∨ req.method = "HEAD" → req.uri.path.head? = some '/' →
        ((entry.accepts? req).isSome ↔ ∃ rest, LiesBelow mount req.uri.path rest) ∧
        (∀ rest, LiesBelow mount req.uri.path rest →
          (dispatch w (entry :: behind) req =
            let response := d.serve w (remaining req.uri rest) req.headers
            if response.status = 404 then dispatch w behind req else pure response) ∧
          (remaining req.uri rest).path.head? = some '/' ∧
          ∀ target, Uri.parse? target = some req.uri →
            Uri.parse? (remaining req.uri rest).text = some (remaining req.uri rest)) ∧
        ((∀ rest, ¬LiesBelow mount req.uri.path rest) →
          dispatch w (entry :: behind) req = dispatch w behind req) := by
  refine ⟨?_, fun app' happ => ?_⟩
  · simp only [serveFiles_eq_ok_iff, ← compile_plain_isOk_iff hplain]
    constructor
    · rintro ⟨app', m, hm, -⟩
      exact ⟨m, hm⟩
    · rintro ⟨m, hm⟩
      exact ⟨_, m, hm, rfl⟩
  obtain ⟨m, hm, rfl⟩ := serveFiles_eq_ok_iff.mp happ
  refine ⟨_, rfl, fun w behind req hmethod hslash => ?_⟩
  have haccepts : ∀ rest, LiesBelow mount req.uri.path rest ↔
      ∃ found, RouteEntry.accepts? ⟨m, .any, .files d⟩ req = some found ∧ found.rest = rest :=
    fun rest => (matches?_plain_iff hplain hm).symm
  refine ⟨?_, fun rest hbelow => ?_, fun houtside => ?_⟩
  · simp only [Option.isSome_iff_exists, haccepts]
    constructor
    · rintro ⟨found, hfound⟩
      exact ⟨_, found, hfound, rfl⟩
    · rintro ⟨rest, found, hfound, -⟩
      exact ⟨found, hfound⟩
  · obtain ⟨found, hfound, rfl⟩ := (haccepts rest).mp hbelow
    obtain ⟨front, hpath, -, hrest⟩ := hbelow
    refine ⟨?_, ?_, fun target htarget => Uri.parse?_text_of_suffix htarget hpath hslash hrest⟩
    · rw [dispatch_files rfl hmethod hfound, below_eq_remaining found req.uri hrest]
    · rw [remaining]
      split
      · rfl
      · next hne => exact hrest.resolve_left hne
  · refine dispatch_of_refused (Option.eq_none_iff_forall_ne_some.mpr fun found hfound => ?_)
    exact houtside found.rest ((haccepts _).mpr ⟨found, hfound, rfl⟩)

/-- A `GET` request without headers. -/
def Http.Request.forPath (path : String) : Request :=
  { method := "GET", uri := ⟨path.toList, none⟩, headers := [], body := [] }

theorem static_gets_remaining :
    PlainMount "/static/" ∧ ∃ entry, App.serveFiles {} "/static/" ⟨"pub", {}⟩ = .ok (App.push {} entry) ∧
      LiesBelow "/static/" "/STATIC/a.css".toList "/a.css".toList ∧
      dispatch ⟨"/site", []⟩ [entry] (.forPath "/STATIC/a.css") =
        (let response := Http.StaticFiles.serve ⟨"pub", {}⟩ ⟨"/site", []⟩ ⟨"/a.css".toList, none⟩ []
          if response.status = 404 then pure .notFound else pure response) ∧
      entry.accepts? (.forPath "/staticx") = none := by
  have hplain : PlainMount "/static/" := by decide
  have hremaining := directories_get_remaining hplain {} ⟨"pub", {}⟩
  obtain ⟨app', happ⟩ := hremaining.1.mpr (by decide +kernel)
  obtain ⟨entry, rfl, hentry⟩ := hremaining.2 app' happ
  have hbelow : LiesBelow "/static/" "/STATIC/a.css".toList "/a.css".toList :=
    ⟨"/STATIC".toList, by decide, by decide +kernel, .inr (by decide)⟩
  have houtside : ¬∃ rest, LiesBelow "/static/" "/staticx".toList rest := by
    rintro ⟨rest, front, hpath, hfold, hrest⟩
    have hsplit : "/static".toList ++ ['x'] = front ++ rest := hpath
    obtain ⟨-, rfl⟩ := append_inj_of_fold hsplit rfl hfold
    exact absurd hrest (by decide)
  have hasked := hentry ⟨"/site", []⟩ [] (.forPath "/STATIC/a.css") (.inl rfl) rfl
  have hrefused := hentry ⟨"/site", []⟩ [] (.forPath "/staticx") (.inl rfl) rfl
  refine ⟨hplain, entry, happ, hbelow, (hasked.2.1 _ hbelow).1, ?_⟩
  rw [← Option.not_isSome_iff_eq_none, hrefused.1]
  exact houtside

end RouteQuery
