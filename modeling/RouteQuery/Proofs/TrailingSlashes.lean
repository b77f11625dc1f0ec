import RouteQuery.Proofs.SegmentRoutes

/-! Slashes at the end. A route compiles to the same expression with a slash behind it and without, and
what it takes of a request path it takes with one slash more as well. -/
namespace RouteQuery
open Pattern

namespace PathTemplate
open Segment (slashPart endPart)

/-! ### Paths with a slash behind them -/

theorem pieces_append_slash (position : Nat) (cs : List Char) :
    pieces position (cs ++ ['/']) = (pieces position cs).map (· ++ [.plain '/']) := by
  have hstop : Text.StopsAt Text.isWordChar ['/'] := Text.stopsAt_cons.mpr (by decide)
  fun_induction pieces position cs with
  | case1 position => exact pieces_ofChar_cons (by decide) pieces_nil position
  | case2 position cs name hname =>
    have htake : (cs ++ ['/']).takeWhile Text.isWordChar = name := Text.takeWhile_append_stop hstop cs
    rw [List.cons_append, pieces, if_pos rfl]
    simp only [htake, hname, if_true]
    rfl
  | case3 position cs name hname ih =>
    have htake : (cs ++ ['/']).takeWhile Text.isWordChar = name := Text.takeWhile_append_stop hstop cs
    rw [List.cons_append, pieces, if_pos rfl]
    simp only [htake, hname, Text.dropWhile_append_stop hstop, ih]
    cases pieces (position + 1 + name.length) (cs.dropWhile Text.isWordChar) <;> rfl
  | case4 position c cs hc ih =>
    rw [List.cons_append, pieces, if_neg hc, ih]
    cases pieces (position + 1) cs <;> rfl

/-- With or without a slash at its end, the pieces of a route end in one that may be missing. -/
theorem pieces_ending {path : List Char} {ps : List Piece} (h : pieces 0 path = .ok ps) :
    ∃ front, ps ++ ending path .route = front ++ [.plain '/', .question] := by
  unfold ending routeEnd
  split_ifs with hlast
  · obtain ⟨path, rfl⟩ := List.getLast?_eq_some_iff.mp hlast
    rw [pieces_append_slash] at h
    obtain ⟨front, -, rfl⟩ := exists_of_map_eq_ok h
    exact ⟨front, by simp⟩
  · exact ⟨ps, rfl⟩

/-- A slash behind a path makes no difference to the route. -/
theorem compile_append_slash {path : String} (h : path.toList.getLast? ≠ some '/') :
    compile (path ++ "/") .route = compile path .route := by
  have htext : (path ++ "/").toList = path.toList ++ ['/'] := String.toList_append
  unfold compile
  simp only [htext, body, pieces_append_slash, routeEnd, List.getLast?_concat]
  cases pieces 0 path.toList with
  | error fault => rfl
  | ok ps => simp [h, Except.map, bind, Except.bind]

/-! ### What a route allows at the end of a request path -/

theorem assemble_append_slash {b : Build} {keys : List String} {wildcards : Nat} {ps : List Piece} :
    assemble b keys wildcards (ps ++ [.plain '/', .question]) =
      (assemble b keys wildcards ps).map fun (b, keys) => (b.push slashPart, keys) := by
  -- What operators and parameters look ahead to is not changed by the slash behind it.
  have hquestion : ∀ {ps qs : List Piece}, ps ++ [.plain '/', .question] = .question :: qs →
      ∃ qs', ps = .question :: qs' := by
    intro ps qs heq
    cases ps with
    | nil => simp at heq
    | cons p ps => exact ⟨ps, by rw [(List.cons.inj heq).1]⟩
  have hoptional : ∀ {ps qs : List Piece} {name : String},
      ps ++ [.plain '/', .question] = .param name :: .question :: qs →
      ∃ qs', ps = .param name :: .question :: qs' := by
    intro ps qs name heq
    cases ps with
    | nil => simp at heq
    | cons p ps =>
      obtain ⟨rfl, hrest⟩ := List.cons.inj heq
      obtain ⟨qs', rfl⟩ := hquestion hrest
      exact ⟨qs', rfl⟩
  fun_induction assemble b keys wildcards ps with
  | case1 b keys wildcards => exact Segment.assemble_ending b keys wildcards
  | case4 b keys wildcards c rest _ hplain ih =>
    rw [List.cons_append, assemble]
    · exact ih
    all_goals
      intro name qs heq
      obtain ⟨qs', hrest⟩ := hoptional heq
      exact hplain name qs' hrest
  | case5 b keys wildcards name rest ih | case6 b keys wildcards rest ih
  | case7 b keys wildcards rest ih => rw [List.cons_append, assemble, ih]
  | case2 b keys wildcards name rest ih | case8 b keys wildcards rest ih
  | case9 b keys wildcards rest ih | case11 b keys wildcards rest ih =>
    simp only [List.cons_append, assemble, bind, Option.map_bind]
    exact congrArg _ (funext ih)
  | case3 b keys wildcards name rest hgreedy ih | case10 b keys wildcards rest hgreedy ih
  | case12 b keys wildcards rest hgreedy ih =>
    simp only [List.cons_append]
    rw [assemble]
    · simp only [bind, Option.map_bind]
      exact congrArg _ (funext ih)
    · intro qs heq
      obtain ⟨qs', hrest⟩ := hquestion heq
      exact hgreedy qs' hrest

/-- Behind the parts for its text a route allows one slash, and there the request path must end. -/
theorem of_compile_route {path : String} {node : Node} {keys : List String}
    (h : compile path .route = .ok (node, keys)) :
    ∃ front : List Part, (∀ part ∈ front, part.node.LooksBack) ∧
      node = Part.seqNode (front ++ [slashPart, endPart]) := by
  obtain ⟨ps, b, keys', hps, hassemble, hfinish, -⟩ := of_compile_eq_ok h
  obtain ⟨front, hfront⟩ := pieces_ending hps
  have hsplit : assemble opening [] 0 (front ++ [.plain '/', .question]) = some (b, keys') := by
    rw [← hfront]
    exact hassemble
  rw [assemble_append_slash, Option.map_eq_some_iff] at hsplit
  obtain ⟨⟨b, keys''⟩, hb, hpush⟩ := hsplit
  obtain ⟨rfl, -⟩ := Prod.mk.inj hpush
  have hback : LevelLooksBack b.level := (looksBack_of_assemble hb).1
  refine ⟨b.level.parts.reverse.filterMap id, fun part hpart => hback.2 part (by simpa using hpart), ?_⟩
  obtain ⟨-, rfl⟩ := Build.of_finish_eq_some hfinish
  have hbranches : ((b.push slashPart).push endPart).level.branches = [] := hback.1
  have hparts : ((b.push slashPart).push endPart).level.parts =
      some endPart :: some slashPart :: b.level.parts := rfl
  rw [closing, ← endPart, Level.whole_node hbranches, hparts]
  simp

/-- What is matched in a path without a slash at its end is matched in the path with one as well. -/
theorem reaches_append_slash {path : String} {node : Node} {keys : List String} {p q : Point}
    (h : compile path .route = .ok (node, keys)) (hlast : p.rest.getLast? ≠ some '/')
    (hreaches : node.Reaches p q) : ∃ q', node.Reaches (p.extend ['/']) q' := by
  obtain ⟨front, hback, rfl⟩ := of_compile_route h
  obtain ⟨s, hs, hending⟩ := reachesAll_append.mp (Part.reaches_seqNode.mp hreaches)
  obtain ⟨s', hslash, _, ⟨hend, -⟩, -⟩ := hending
  have hrest : s'.rest = [] := Segment.holds_endText.mp hend
  obtain ⟨tail, htail, hpasses, -⟩ := Segment.reaches_slashPart.mp hslash
  obtain ⟨x, hx⟩ := (Part.reaches_seqNode.mpr hs).passes
  have hp : p.rest = x ++ tail := by rw [hx.rest, hpasses.rest, hrest, List.append_nil]
  obtain rfl : tail = [] := by
    refine htail.resolve_right fun hslash => hlast ?_
    rw [hp, hslash, List.getLast?_concat]
  have hs' : s.rest = [] := by rw [hpasses.rest, hrest, List.append_nil]
  let end' : Point := ⟨some '/', [], s.captured⟩
  have htaken : slashPart.node.Reaches (s.extend ['/']) end' :=
    Segment.reaches_slashPart.mpr ⟨['/'], .inr rfl, ⟨by simp [Point.extend, hs', end'], rfl⟩, rfl⟩
  exact ⟨end', Part.reaches_seqNode.mpr (reachesAll_append.mpr
    ⟨s.extend ['/'], hs.extend hback ['/'], end', htaken, end', ⟨rfl, rfl⟩, rfl⟩)⟩

end PathTemplate

namespace PathMatcher
open PathTemplate

theorem compile_append_slash {path : String} (h : path.toList.getLast? ≠ some '/') :
    (∃ cause, compile (.literal path) .route = .error (.invalidPath (.literal path) cause) ∧
      compile (.literal (path ++ "/")) .route = .error (.invalidPath (.literal (path ++ "/")) cause)) ∨
    ∃ m, compile (.literal path) .route = .ok m ∧
      compile (.literal (path ++ "/")) .route = .ok { m with source := .literal (path ++ "/") } := by
  unfold compile
  simp only [PathTemplate.compile_append_slash h]
  cases PathTemplate.compile path .route with
  | error cause => exact .inl ⟨cause, rfl, rfl⟩
  | ok result => exact .inr ⟨_, rfl, rfl⟩

theorem exists_matches?_append_slash {path : String} {m : PathMatcher} {text : List Char}
    {found : PathMatch} (hm : compile (.literal path) .route = .ok m) (hlast : text.getLast? ≠ some '/')
    (h : m.matches? text = some found) : ∃ found, m.matches? (text ++ ['/']) = some found := by
  obtain ⟨hcompile, -, hmode⟩ := of_compile_eq_ok hm
  rw [matches?_route hmode, Option.map_eq_some_iff] at h
  obtain ⟨q, hq, -⟩ := h
  obtain ⟨x, p, hp, -, hreaches⟩ := reaches_of_searchFrom hq
  have htext : text = x ++ p.rest := hp.rest
  have hrest : p.rest.getLast? ≠ some '/' := by
    intro hslash
    refine hlast ?_
    rw [htext, List.getLast?_append, hslash, Option.some_or]
  obtain ⟨q', hq'⟩ := reaches_append_slash hcompile hrest hreaches
  have hp' : Point.Passes ⟨none, text ++ ['/'], []⟩ x (p.extend ['/']) :=
    ⟨by simp [htext, Point.extend], hp.before⟩
  obtain ⟨s, hs⟩ := exists_searchFrom hp' hq'
  exact ⟨m.found s, by rw [matches?_route hmode, search, hs, Option.map_some]⟩

/-- A route and the route with a slash behind it are refused for the same cause, or they take the same
request paths with the same keys, parameters and end. A route that takes a request path takes it with a
slash behind it as well. -/
theorem routes_ignore_final_slash :
    (∀ path : String, path.toList.getLast? ≠ some '/' →
      (∃ cause, compile (.literal path) .route = .error (.invalidPath (.literal path) cause) ∧
        compile (.literal (path ++ "/")) .route = .error (.invalidPath (.literal (path ++ "/")) cause)) ∨
      ∃ m m', compile (.literal path) .route = .ok m ∧ compile (.literal (path ++ "/")) .route = .ok m' ∧
        m'.keys = m.keys ∧ ∀ text, m'.matches? text = m.matches? text) ∧
    ∀ path m, compile (.literal path) .route = .ok m → ∀ text found, text.getLast? ≠ some '/' →
      m.matches? text = some found → ∃ found', m.matches? (text ++ ['/']) = some found' := by
  refine ⟨fun path hpath => ?_, fun path m hm text found hlast h => exists_matches?_append_slash hm hlast h⟩
  refine (compile_append_slash hpath).imp_right fun ⟨m, hm, hm'⟩ => ⟨m, _, hm, hm', rfl, fun text => ?_⟩
  have hmode : m.mode = .route := (of_compile_eq_ok hm).2.2
  have hmode' : ({ m with source := .literal (path ++ "/") } : PathMatcher).mode = .route := hmode
  exact (matches?_route hmode' text).trans (matches?_route hmode text).symm

/-- The matcher for `/user/:id?`. -/
def optionalUser : PathMatcher :=
  let user := "/user".toList.map plainPart
  ⟨.literal "/user/:id?", .route, Part.seqNode (anchor :: user ++ [⟨.iterate (segmentPart 1).node 0 (some 1) true, 6⟩,
    Segment.slashPart, Segment.endPart]), ["id"]⟩

theorem compile_optionalUser : compile (.literal "/user/:id?") .route = .ok optionalUser := by
  have hquestion : ∀ position, pieces position ['?'] = .ok [.question] :=
    pieces_ofChar_cons (by decide) pieces_nil
  have hname : ∀ position, pieces position (':' :: (['i', 'd'] ++ ['?'])) = .ok [.param "id", .question] :=
    pieces_param_append (by decide) (List.all_eq_true.mp (by decide)) (Text.stopsAt_cons.mpr (by decide))
      hquestion
  have huser : ∀ c ∈ "/user/".toList, c ∉ operators := by simp [operators]
  have hps : pieces 0 (body "/user/:id?".toList .route) =
      .ok ("/user/".toList.map .plain ++ [.param "id", .question]) :=
    pieces_plain_append huser hname 0
  exact compile_of_pieces hps rfl rfl

theorem optionalUser_ignores_final_slash :
    "/user/:id?".toList.getLast? ≠ some '/' ∧ compile (.literal "/user/:id?") .route = .ok optionalUser ∧
    (∃ m, compile (.literal ("/user/:id?" ++ "/")) .route = .ok m ∧ m.keys = ["id"] ∧
      ∀ text, m.matches? text = optionalUser.matches? text) ∧
    "/user/7".toList.getLast? ≠ some '/' ∧
    optionalUser.matches? "/user/7".toList = some ⟨[("id", "7")], []⟩ ∧
    ∃ found, optionalUser.matches? ("/user/7".toList ++ ['/']) = some found := by
  have hpath : "/user/:id?".toList.getLast? ≠ some '/' := by decide
  have htext : "/user/7".toList.getLast? ≠ some '/' := by decide
  have hfound : optionalUser.matches? "/user/7".toList = some ⟨[("id", "7")], []⟩ := by decide +kernel
  refine ⟨hpath, compile_optionalUser, ?_, htext, hfound,
    routes_ignore_final_slash.2 _ _ compile_optionalUser _ _ htext hfound⟩
  rcases routes_ignore_final_slash.1 _ hpath with ⟨cause, hrefused, -⟩ | ⟨m, m', hm, hm', hkeys, hall⟩
  · rw [compile_optionalUser] at hrefused
    cases hrefused
  · obtain rfl := Except.ok.inj (compile_optionalUser.symm.trans hm)
    exact ⟨m', hm', hkeys, hall⟩

end PathMatcher
end RouteQuery
