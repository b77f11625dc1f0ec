import RouteQuery.Proofs.DirectoryPaths
import RouteQuery.Proofs.DispatchStack
import RouteQuery.Proofs.StaticMounts

/-! Redirects from a directory without a slash at its end. They name what a mount left of the path, so
they lead back to the directory from mounts at the root only. -/
namespace RouteQuery
open Http Pattern PathTemplate

/-! ### The redirect of a directory -/

namespace Http

/-- The target with a slash at the end of its path. -/
def Uri.slashed (uri : Uri) : Uri := { uri with path := uri.path ++ ['/'] }

def Response.redirect (uri : Uri) : Response :=
  { status := 307, headers := [("location", Text.toUtf8 uri.text)] }

/-- A part of a response is no redirect, unless the whole is one. -/
theorem ByteRange.status_apply_ne {whole : Response} (headers : Headers) (h : whole.status ≠ 307) :
    (ByteRange.apply headers whole).status ≠ 307 := by
  unfold ByteRange.apply
  split
  · exact h
  · dsimp only
    split <;> simp

namespace StaticFiles
variable {w : Workspace} {d : StaticFiles} {uri : Uri} {headers : Headers}

theorem status_answerFile_ne (name : String) (headers : Headers)
    (result : Except LookupFault (Workspace.Entry × Option ContentCoding)) :
    (answerFile name headers result).status ≠ 307 := by
  unfold answerFile
  split
  · exact ByteRange.status_apply_ne headers (by simp)
  · decide
  · decide
  · simp [Response.bare]

/-- A redirect names the path that the directory was asked for, with a slash at its end. -/
theorem serve_eq_redirect (h : (d.serve w uri headers).status = 307) :
    d.serve w uri headers = .redirect uri.slashed ∧ uri.path.getLast? ≠ some '/' := by
  unfold serve at h ⊢
  cases hpath : components? uri.path with
  | none => simp [hpath, Response.notFound, Response.bare] at h
  | some path =>
    simp only [hpath] at h ⊢
    split_ifs at h ⊢ with hindex hslash
    · cases h
    · rw [Bool.and_eq_true, decide_eq_true_eq] at hslash
      refine ⟨?_, hslash.2⟩
      have htext : uri.slashed.text = uri.path ++ '/' :: Uri.queryText uri.query := by
        simp [Uri.slashed, Uri.text]
      rw [Response.redirect, htext]
      cases uri.query <;> rfl
    all_goals exact absurd h (status_answerFile_ne _ _ _)

end StaticFiles
end Http

/-! ### Where a redirect leads -/

section
variable {mount : String} {m : PathMatcher} {path : List Char} {found : PathMatch}

theorem suffix_of_matches? (hm : PathMatcher.compile (.literal mount) .mount = .ok m)
    (h : m.matches? path = some found) : found.rest <:+ path := by
  obtain ⟨-, hsource, hmode⟩ := PathMatcher.of_compile_eq_ok hm
  rw [PathMatcher.matches?_mount hsource hmode, Option.map_eq_some_iff] at h
  obtain ⟨q, hq, rfl⟩ := h
  exact suffix_of_searchFrom (Option.filter_eq_some_iff.mp hq).1

/-- The directory is asked for the whole path only if the mount took nothing of it, or the slash that
is put back. -/
theorem below_eq_iff {uri : Uri} {front : List Char} (hpath : uri.path = front ++ found.rest)
    (hslash : uri.path.head? = some '/') :
    found.below uri = uri ↔ front = [] ∨ front = ['/'] ∧ found.rest.head? ≠ some '/' := by
  obtain ⟨path, query⟩ := uri
  dsimp only at hpath hslash
  subst hpath
  simp only [PathMatch.below, Uri.mk.injEq, and_true]
  split_ifs with hrest
  · simp [hrest]
  · constructor
    · intro heq
      have hfront : ['/'] ++ found.rest = front ++ found.rest := heq
      exact .inr ⟨(List.append_cancel_right hfront).symm, hrest⟩
    · rintro (rfl | ⟨rfl, -⟩)
      · exact absurd hslash hrest
      · rfl

/-- A mount of slashes only. -/
def RootMount (mount : String) : Prop := ∀ c ∈ mount.toList, c = '/'

theorem RootMount.plain (hroot : RootMount mount) : PlainMount mount := by
  intro c hc
  rw [hroot c hc]
  decide

theorem rootMount_iff : RootMount mount ↔ body mount.toList .mount = [] := by
  rw [body, List.reverse_eq_nil_iff, List.dropWhile_eq_nil_iff]
  simp [RootMount]

/-- A mount at the root takes nothing of a path. -/
theorem RootMount.matches? (hroot : RootMount mount)
    (hm : PathMatcher.compile (.literal mount) .mount = .ok m) (hslash : path.head? = some '/') :
    ∃ found, m.matches? path = some found ∧ found.rest = path :=
  (matches?_plain_iff hroot.plain hm).mpr ⟨[], rfl, by rw [rootMount_iff.mp hroot], .inr hslash⟩

/-- No other mount of plain text leaves a path as it is. -/
theorem below_eq_iff_rootMount {uri : Uri} (hplain : PlainMount mount)
    (hm : PathMatcher.compile (.literal mount) .mount = .ok m) (hslash : uri.path.head? = some '/')
    (h : m.matches? uri.path = some found) : found.below uri = uri ↔ RootMount mount := by
  obtain ⟨front, hpath, hfold, hrest⟩ := (matches?_plain_iff hplain hm).mp ⟨found, h, rfl⟩
  rw [below_eq_iff hpath hslash, rootMount_iff]
  constructor
  · rintro (rfl | ⟨rfl, -⟩)
    · simpa using hfold.symm
    · have hboundary : OnBoundary ['/'] ['x'] := .inr (.inl rfl)
      exact absurd ((onBoundary_iff_of_fold hfold).mp hboundary) (by decide)
  · intro hnil
    rw [hnil] at hfold
    exact .inl (List.map_eq_nil_iff.mp hfold)

end

/-- When a directory answers with a redirect, the client gets the path that the mount left, with a slash
at its end and the query behind it. That is the path the client asked for, with a slash, just when the
mount took nothing of it, or no more than the slash put back: of mounts of plain text, at the root only.
From there the redirect leads to the same directory through the same entry, and no further. -/
theorem redirects_name_path_below {app app' : App} {mount : String} {d : StaticFiles}
    (happ : app.serveFiles mount d = .ok app') :
    ∃ entry, app' = app.push entry ∧ ∀ w behind req found response,
      req.uri.path.head? = some '/' → entry.accepts? req = some found →
      StaticFiles.serve? w d req found = some response → response.status = 307 →
        dispatch w (entry :: behind) req = pure response ∧
        response = .redirect (found.below req.uri).slashed ∧
        (∃ front, req.uri.path = front ++ found.rest ∧ (found.below req.uri = req.uri ↔
          front = [] ∨ front = ['/'] ∧ found.rest.head? ≠ some '/')) ∧
        (PlainMount mount → (found.below req.uri = req.uri ↔ RootMount mount)) ∧
        (RootMount mount →
          ∃ found', entry.accepts? { req with uri := req.uri.slashed } = some found' ∧
            found'.below req.uri.slashed = req.uri.slashed ∧
            Http.StaticFiles.components? req.uri.slashed.path = Http.StaticFiles.components? req.uri.path ∧
            (d.serve w req.uri.slashed req.headers).status ≠ 307) := by
  obtain ⟨m, hm, rfl⟩ := serveFiles_eq_ok_iff.mp happ
  refine ⟨_, rfl, fun w behind req found response hslash haccepts hserve hstatus => ?_⟩
  have hserves := serves_of_serve? hserve
  have hmatches : m.matches? req.uri.path = some found := haccepts
  obtain ⟨front, hpath⟩ := suffix_of_matches? hm hmatches
  refine ⟨?_, ?_, ⟨front, hpath.symm, below_eq_iff hpath.symm hslash⟩,
    fun hplain => below_eq_iff_rootMount hplain hm hslash hmatches, fun hroot => ?_⟩
  · rw [dispatch, haccepts]
    simp only [hserve]
  · rw [← hserves.response_eq] at hstatus ⊢
    exact (Http.StaticFiles.serve_eq_redirect hstatus).1
  · have hslashed : req.uri.slashed.path.head? = some '/' := by
      rw [Uri.slashed, List.head?_append, hslash, Option.some_or]
    obtain ⟨found', hfound', -⟩ := hroot.matches? hm hslashed
    refine ⟨found', hfound', (below_eq_iff_rootMount hroot.plain hm hslashed hfound').mpr hroot,
      Http.StaticFiles.components?_append_slash _, fun hagain => ?_⟩
    exact (Http.StaticFiles.serve_eq_redirect hagain).2 List.getLast?_concat

/-! ### A directory below `/static` -/

/-- A site with a directory `docs` among its public files. -/
def docsSite : Workspace := ⟨"/site", [(["site", "pub", "docs", "index.html"], [])]⟩

def publicFiles : Http.StaticFiles := ⟨"pub", {}⟩

def staticEntry : RouteEntry :=
  ⟨⟨.literal "/static", .mount, plainNode "/static", []⟩, .any, .files publicFiles⟩

theorem serveFiles_static : App.serveFiles {} "/static" publicFiles = .ok (App.push {} staticEntry) := by
  have hplain : PlainMount "/static" := by decide
  have hcompile := compile_plain hplain
  rw [if_pos (by decide +kernel)] at hcompile
  exact serveFiles_eq_ok_iff.mpr ⟨_, by rw [PathMatcher.compile, hcompile], rfl⟩

theorem accepts?_docs : staticEntry.accepts? (.forPath "/static/docs") = some ⟨[], "/docs".toList⟩ := by
  decide +kernel

theorem components?_docs : Http.StaticFiles.components? "/docs".toList = some ["docs"] := by
  have hdecoded : Text.ofUtf8? (Text.percentDecode (Text.toUtf8 ("/docs".toList.dropWhile (· == '/')))) =
      some "docs".toList := (Text.ofUtf8?_ascii (by decide)).trans (by decide)
  rw [Http.StaticFiles.components?, hdecoded]
  rfl

theorem serve_docs : publicFiles.serve docsSite ⟨"/docs".toList, none⟩ [] =
    .redirect ⟨"/docs/".toList, none⟩ := by
  have hparts : Workspace.parts publicFiles.root ++ ["docs"] = ["pub", "docs"] := by decide
  have hwalk : docsSite.walk ["site"] .directory ["pub", "docs"] = .ok .directory := by decide +kernel
  have horigin : docsSite.origin publicFiles.root = ["site"] := by decide +kernel
  have hdirectory : docsSite.lookupBelow publicFiles.root ["docs"] = .ok .directory := by
    rw [Workspace.lookupBelow, hparts, horigin, Workspace.lookupNames, if_neg (by simp), hwalk]
  simp only [Http.StaticFiles.serve, components?_docs, hdirectory]
  rfl

theorem serve?_docs : StaticFiles.serve? docsSite publicFiles (.forPath "/static/docs")
    ⟨[], "/docs".toList⟩ = some (.redirect ⟨"/docs/".toList, none⟩) := by
  have hserve : publicFiles.serve docsSite
      (PathMatch.below ⟨[], "/docs".toList⟩ (Request.forPath "/static/docs").uri)
      (Request.forPath "/static/docs").headers = .redirect ⟨"/docs/".toList, none⟩ := serve_docs
  rw [StaticFiles.serve?, if_pos (.inl rfl), hserve]
  rfl

/-- The redirect from `/static/docs` leaves `/static`. -/
theorem redirect_leaves_static :
    App.serveFiles {} "/static" publicFiles = .ok (App.push {} staticEntry) ∧
    dispatch docsSite [staticEntry] (.forPath "/static/docs") =
      pure (.redirect ⟨"/docs/".toList, none⟩) ∧
    PathMatch.below ⟨[], "/docs".toList⟩ (Request.forPath "/static/docs").uri ≠
      (Request.forPath "/static/docs").uri := by
  obtain ⟨entry, happ, hredirects⟩ := redirects_name_path_below serveFiles_static
  obtain rfl : staticEntry = entry := List.singleton_inj.mp (congrArg App.entries happ)
  obtain ⟨hdispatch, -, -, hroot, -⟩ := hredirects docsSite [] _ _ _ rfl accepts?_docs serve?_docs rfl
  refine ⟨serveFiles_static, hdispatch, ?_⟩
  rw [ne_eq, hroot (by decide)]
  exact fun hall => absurd (hall 's' (by decide)) (by decide)

/-- The redirect of a directory is not to the path that the client asked for. -/
theorem redirect_drops_mount : ¬∀ app app' mount d entry, App.serveFiles app mount d = .ok app' →
    app' = app.push entry → ∀ w req found response, entry.accepts? req = some found →
      StaticFiles.serve? w d req found = some response → response.status = 307 →
        response.headers.get? "location" = some (Text.toUtf8 req.uri.slashed.text) := by
  intro h
  have hlocation := h _ _ _ _ _ serveFiles_static rfl docsSite _ _ _ accepts?_docs serve?_docs rfl
  exact absurd hlocation (by decide)

end RouteQuery
