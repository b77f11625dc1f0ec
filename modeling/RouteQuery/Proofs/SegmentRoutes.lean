import Mathlib.Data.List.Forall2
import RouteQuery.Proofs.PieceMatches

/-! Routes made of segments: a request path matches segment by segment, plain segments up to case, and
each parameter takes one whole segment. -/
namespace RouteQuery
open Pattern PathTemplate

/-- A segment that stands for itself. -/
structure PlainText where
  chars : List Char
  nonempty : chars ≠ []
  plain : ∀ c ∈ chars, c ≠ '/' ∧ c ∉ operators

structure ParamName where
  chars : List Char
  nonempty : chars ≠ []
  word : ∀ c ∈ chars, Text.isWordChar c = true

inductive Segment where
  | plain (text : PlainText)
  /-- `:name` -/
  | param (name : ParamName)

namespace Segment

def chars : Segment → List Char
  | plain text => text.chars
  | param name => ':' :: name.chars

/-- Texts with a slash before each. -/
def join (texts : List (List Char)) : List Char := texts.flatMap ('/' :: ·)

/-- The path that the segments spell, with a slash at its end or without one. -/
def path (segments : List Segment) (slash : Bool) : String :=
  String.ofList (join (segments.map chars) ++ if slash then ['/'] else [])

/-- What a segment of a request path must be. -/
def Accepts : Segment → List Char → Prop
  | plain text, x => x.map Text.simpleFold = text.chars.map Text.simpleFold
  | param _, x => x ≠ [] ∧ '/' ∉ x

/-- The parameters with the segments of a request path that stand in their places. -/
def params : List Segment → List (List Char) → List (String × String)
  | plain _ :: segments, _ :: texts => params segments texts
  | param name :: segments, x :: texts =>
    (String.ofList name.chars, String.ofList x) :: params segments texts
  | _, _ => []

/-! ### The expression for segments -/

def names : List Segment → List String
  | [] => []
  | plain _ :: segments => names segments
  | param name :: segments => String.ofList name.chars :: names segments

def pieces : List Segment → List Piece
  | [] => []
  | plain text :: segments => ('/' :: text.chars).map .plain ++ pieces segments
  | param name :: segments => .plain '/' :: .param (String.ofList name.chars) :: pieces segments

/-- The parts for the segments behind `groups` parameters. -/
def parts (groups : Nat) : List Segment → List Part
  | [] => []
  | plain text :: segments => ('/' :: text.chars).map plainPart ++ parts groups segments
  | param _ :: segments => plainPart '/' :: paramPart (groups + 1) :: parts (groups + 1) segments

/-- What the groups for the segments capture, in order. -/
def captures (groups : Nat) : List Segment → List (List Char) → List (Nat × List Char)
  | plain _ :: segments, _ :: texts => captures groups segments texts
  | param _ :: segments, x :: texts => (groups + 1, x) :: captures (groups + 1) segments texts
  | _, _ => []

variable {segments : List Segment}

theorem pieces_join {rest : List Char} {ps : List Piece} (hstop : Text.StopsAt Text.isWordChar rest)
    (hrest : ∀ position, PathTemplate.pieces position rest = .ok ps) (position : Nat) :
    PathTemplate.pieces position (join (segments.map chars) ++ rest) = .ok (pieces segments ++ ps) := by
  induction segments generalizing position with
  | nil => exact hrest position
  | cons segment segments ih =>
    have hslash : ∀ c ∈ ['/'], c ∉ operators := List.forall_mem_singleton.mpr (by decide)
    have hnext : Text.StopsAt Text.isWordChar (join (segments.map chars) ++ rest) := by
      cases segments with
      | nil => exact hstop
      | cons segment segments => exact Text.stopsAt_cons.mpr (by decide)
    cases segment with
    | plain text =>
      have hplain : ∀ c ∈ '/' :: text.chars, c ∉ operators :=
        List.forall_mem_cons.mpr ⟨by decide, fun c hc => (text.plain c hc).2⟩
      have h := pieces_plain_append hplain ih position
      simpa [join, chars, pieces] using h
    | param name =>
      have hparam := pieces_param_append name.nonempty name.word hnext ih
      have h := pieces_plain_append hslash hparam position
      simpa [join, chars, pieces] using h

theorem assemble_pieces {b : Build} {keys : List String} {wildcards : Nat} {rest : List Piece}
    (hrest : ∀ p ∈ rest.head?, ∃ c, p = .plain c) :
    assemble b keys wildcards (pieces segments ++ rest) =
      assemble (pushAll b (parts keys.length segments)) ((names segments).reverse ++ keys) wildcards
        rest := by
  induction segments generalizing b keys with
  | nil => rfl
  | cons segment segments ih =>
    have hplain : ∀ p ∈ (pieces segments ++ rest).head?, ∃ c, p = .plain c := by
      cases segments with
      | nil => exact hrest
      | cons segment segments => cases segment <;> simp [pieces]
    cases segment with
    | plain text =>
      rw [pieces, List.append_assoc, assemble_plain_append, ih]
      · simp [parts, names, pushAll]
      · intro name behind heq
        obtain ⟨c, hc⟩ := hplain (.param name) (by rw [heq]; rfl)
        cases hc
    | param name =>
      rw [pieces, List.cons_append, List.cons_append, assemble_plain, assemble, ih]
      · simp [parts, names, pushAll]
      · intro name' behind heq
        obtain ⟨-, hbehind⟩ := List.cons.inj heq
        obtain ⟨c, hc⟩ := hplain .question (by rw [hbehind]; rfl)
        cases hc

/-! ### What the segments match -/

theorem reachesAll_slash {parts : List Part} {p q : Point} :
    ReachesAll (plainPart '/' :: parts) p q ↔
      ∃ s, p.Passes ['/'] s ∧ s.captured = p.captured ∧ ReachesAll parts s q := by
  constructor
  · rintro ⟨s, hs, hparts⟩
    obtain ⟨c, hc, hpasses, hcaptured⟩ := reaches_one.mp hs
    obtain rfl : c = '/' :=
      Text.simpleFold_eq_slash_iff.mp ((contains_like.mp hc).trans (Text.simpleFold_eq_slash_iff.mpr rfl))
    exact ⟨s, hpasses, hcaptured, hparts⟩
  · rintro ⟨s, hpasses, hcaptured, hparts⟩
    exact ⟨s, reaches_one.mpr ⟨'/', contains_like.mpr rfl, hpasses, hcaptured⟩, hparts⟩

theorem reachesAll_parts {groups : Nat} {p q : Point} :
    ReachesAll (parts groups segments) p q ↔
      ∃ texts, List.Forall₂ Accepts segments texts ∧ p.Passes (join texts) q ∧
        q.captured = (captures groups segments texts).reverse ++ p.captured := by
  induction segments generalizing groups p with
  | nil =>
    simp only [parts, ReachesAll, List.forall₂_nil_left_iff, exists_eq_left, join, List.flatMap_nil,
      Point.passes_nil, captures, List.reverse_nil, List.nil_append]
    exact ⟨fun h => h ▸ ⟨.refl q, rfl⟩, fun h => h.1.eq h.2⟩
  | cons segment segments ih =>
    simp only [List.forall₂_cons_left_iff]
    cases segment with
    | plain text =>
      rw [parts, List.map_cons, List.cons_append, reachesAll_slash]
      simp only [reachesAll_append, reachesAll_plain, ih]
      constructor
      · rintro ⟨s, hslash, hs, s', ⟨x, hx, hpasses, hs'⟩, texts, htexts, hrest, hq⟩
        refine ⟨x :: texts, ⟨x, texts, hx, htexts, rfl⟩, hslash.trans (hpasses.trans hrest), ?_⟩
        rw [captures, hq, hs', hs]
      · rintro ⟨_, ⟨x, texts, hx, htexts, rfl⟩, hpasses, hq⟩
        obtain ⟨s, hslash, hrest, hs⟩ := Point.Passes.split (x := ['/']) hpasses p.captured
        obtain ⟨s', hx', hrest, hs'⟩ := Point.Passes.split (y := join texts) hrest p.captured
        exact ⟨s, hslash, hs, s', ⟨x, hx, hx', hs'.trans hs.symm⟩, texts, htexts, hrest,
          by rw [hq, hs', captures]⟩
    | param name =>
      rw [parts, reachesAll_slash]
      simp only [ReachesAll, reaches_paramPart, ih]
      constructor
      · rintro ⟨s, hslash, hs, s', ⟨x, hne, hfree, hpasses, hs'⟩, texts, htexts, hrest, hq⟩
        refine ⟨x :: texts, ⟨x, texts, ⟨hne, hfree⟩, htexts, rfl⟩,
          hslash.trans (hpasses.trans hrest), ?_⟩
        rw [captures, hq, hs', hs]
        simp
      · rintro ⟨_, ⟨x, texts, ⟨hne, hfree⟩, htexts, rfl⟩, hpasses, hq⟩
        obtain ⟨s, hslash, hrest, hs⟩ := Point.Passes.split (x := ['/']) hpasses p.captured
        obtain ⟨s', hx', hrest, hs'⟩ := Point.Passes.split (y := join texts) hrest
          ((groups + 1, x) :: p.captured)
        exact ⟨s, hslash, hs, s', ⟨x, hne, hfree, hx', by rw [hs', hs]⟩, texts, htexts, hrest,
          by rw [hq, hs', captures]; simp⟩

theorem Accepts.no_slash {segment : Segment} {x : List Char} (h : segment.Accepts x) : '/' ∉ x := by
  cases segment with
  | plain text =>
    intro hmem
    have hslash : '/' ∈ text.chars.map Text.simpleFold := by
      rw [← h, ← Text.simpleFold_eq_slash_iff.mpr rfl]
      exact List.mem_map_of_mem hmem
    obtain ⟨c, hc, hfold⟩ := List.mem_map.mp hslash
    exact (text.plain c hc).1 (Text.simpleFold_eq_slash_iff.mp hfold)
  | param name => exact h.2

/-- A request path is cut into segments in one way only. -/
theorem texts_eq {texts texts' : List (List Char)} {tail tail' : List Char}
    (h : List.Forall₂ Accepts segments texts) (h' : List.Forall₂ Accepts segments texts')
    (htail : Text.StopsAt (· ≠ '/') tail) (htail' : Text.StopsAt (· ≠ '/') tail')
    (heq : join texts ++ tail = join texts' ++ tail') : texts = texts' := by
  have hstop : ∀ {texts : List (List Char)} {tail}, Text.StopsAt (· ≠ '/') tail →
      Text.StopsAt (· ≠ '/') (join texts ++ tail) := by
    intro texts tail htail
    cases texts with
    | nil => exact htail
    | cons x texts => exact Text.stopsAt_cons.mpr (by decide)
  have hfirst : ∀ {segment : Segment} {x rest}, segment.Accepts x → Text.StopsAt (· ≠ '/') rest →
      (x ++ rest).takeWhile (· ≠ '/') = x := by
    intro segment x rest hx hrest
    rw [Text.takeWhile_append_stop hrest, List.takeWhile_eq_self_iff]
    intro c hc
    have hne : c ≠ '/' := fun hslash => hx.no_slash (hslash ▸ hc)
    simpa using hne
  induction h generalizing texts' with
  | nil => cases h'; rfl
  | @cons segment x segments texts hx _ ih =>
    cases h' with
    | @cons _ x' _ texts' hx' hrest' =>
      have hcut : x ++ (join texts ++ tail) = x' ++ (join texts' ++ tail') := by
        simpa [join] using heq
      have hsame : x = x' := by
        rw [← hfirst hx (hstop htail), hcut, hfirst hx' (hstop htail')]
      subst hsame
      rw [ih hrest' (List.append_cancel_left hcut)]

/-! ### Captures as parameters -/

theorem lt_of_mem_captures {groups index : Nat} {texts : List (List Char)} {x : List Char}
    (h : (index, x) ∈ captures groups segments texts) : groups < index := by
  fun_induction captures groups segments texts with
  | case1 groups _ segments _ texts ih => exact ih h
  | case2 groups name segments y texts ih =>
    rcases List.mem_cons.mp h with h | h
    · exact Nat.lt_of_lt_of_eq (Nat.lt_succ_self _) (Prod.mk.inj h).1.symm
    · exact Nat.lt_trans (Nat.lt_succ_self _) (ih h)
  | case3 => cases h

theorem lookup_captures {groups index : Nat} {texts : List (List Char)} {x : List Char}
    (h : (index, x) ∈ captures groups segments texts) :
    (captures groups segments texts).reverse.lookup index = some x := by
  fun_induction captures groups segments texts with
  | case1 groups _ segments _ texts ih => exact ih h
  | case2 groups name segments y texts ih =>
    rw [List.reverse_cons, List.lookup_append]
    rcases List.mem_cons.mp h with h | h
    · obtain ⟨rfl, rfl⟩ := Prod.mk.inj h
      have hnone : (captures (groups + 1) segments texts).reverse.lookup (groups + 1) = none := by
        rw [List.lookup_eq_none_iff]
        intro capture hcapture
        have := lt_of_mem_captures (List.mem_reverse.mp hcapture)
        rw [bne_iff_ne]
        omega
      rw [hnone]
      simp
    · rw [ih h]
      rfl
  | case3 => cases h

theorem params_of_lookup {groups : Nat} {texts : List (List Char)} {captured : List (Nat × List Char)}
    (htexts : List.Forall₂ Accepts segments texts)
    (h : ∀ index x, (index, x) ∈ captures groups segments texts → captured.lookup index = some x) :
    ((names segments).zipIdx (groups + 1)).filterMap (fun (key, i) =>
      (captured.lookup i).map fun value => (key, String.ofList value)) = params segments texts := by
  induction htexts generalizing groups with
  | nil => rfl
  | @cons segment x segments texts _ _ ih =>
    cases segment with
    | plain text => exact ih h
    | param name =>
      have hfirst := h (groups + 1) x (by rw [captures]; exact List.mem_cons_self)
      have hbehind : ∀ index y, (index, y) ∈ captures (groups + 1) segments texts →
          captured.lookup index = some y :=
        fun index y hy => h index y (by rw [captures]; exact List.mem_cons_of_mem _ hy)
      have hrest := ih hbehind
      simp only [names, List.zipIdx_cons, List.filterMap_cons, hfirst, Option.map_some, params]
      exact congrArg _ hrest

/-! ### Routes -/

theorem getLast?_join {texts : List (List Char)} (h : ∀ x ∈ texts, x ≠ [] ∧ '/' ∉ x) :
    (join texts).getLast? ≠ some '/' := by
  induction texts with
  | nil => simp [join]
  | cons x texts ih =>
    rw [List.forall_mem_cons] at h
    obtain ⟨⟨hne, hfree⟩, htexts⟩ := h
    obtain ⟨c, cs, rfl⟩ := List.exists_cons_of_ne_nil hne
    have hlast : (join ((c :: cs) :: texts)).getLast? = (join texts).getLast?.or (c :: cs).getLast? := by
      rw [join, List.flatMap_cons, ← join, List.getLast?_append, List.getLast?_cons_cons]
    intro hslash
    rw [hlast, Option.or_eq_some_iff] at hslash
    rcases hslash with hslash | ⟨-, hslash⟩
    · exact ih htexts hslash
    · exact hfree (List.mem_of_getLast? hslash)

theorem chars_ne_nil (segment : Segment) : segment.chars ≠ [] := by
  cases segment with
  | plain text => exact text.nonempty
  | param name => exact List.cons_ne_nil _ _

theorem no_slash_chars (segment : Segment) : '/' ∉ segment.chars := by
  cases segment with
  | plain text => exact fun hslash => (text.plain _ hslash).1 rfl
  | param name =>
    intro hslash
    rcases List.mem_cons.mp hslash with hcolon | hslash
    · exact absurd hcolon (by decide)
    · exact absurd (name.word _ hslash) (by decide +kernel)

/-- Whether or not a route ends in a slash, its pieces end in one that may be missing. -/
theorem pieces_path (segments : List Segment) (slash : Bool) :
    ∃ ps, PathTemplate.pieces 0 (body (path segments slash).toList .route) = .ok ps ∧
      ps ++ ending (body (path segments slash).toList .route) .route =
        pieces segments ++ [.plain '/', .question] := by
  have htext : (path segments slash).toList = join (segments.map chars) ++ if slash then ['/'] else [] :=
    String.toList_ofList
  simp only [body, ending, routeEnd, htext]
  cases slash with
  | true =>
    have hslash : ∀ position, PathTemplate.pieces position ['/'] = .ok [.plain '/'] :=
      fun position => by simp [PathTemplate.pieces, Piece.ofChar]
    refine ⟨_, pieces_join (Text.stopsAt_cons.mpr (by decide)) hslash 0, ?_⟩
    rw [if_pos rfl, List.getLast?_append]
    simp
  | false =>
    have hlast : (join (segments.map chars)).getLast? ≠ some '/' := by
      refine getLast?_join fun x hx => ?_
      obtain ⟨segment, -, rfl⟩ := List.mem_map.mp hx
      exact ⟨segment.chars_ne_nil, segment.no_slash_chars⟩
    refine ⟨_, pieces_join (Text.stopsAt_nil _) (fun _ => by rw [PathTemplate.pieces]) 0, ?_⟩
    simp only [if_neg Bool.false_ne_true, List.append_nil, if_neg hlast]

/-- One slash or none. -/
def slashPart : Part := ⟨.iterate (.one (.like '/')) 0 (some 1) true, 1⟩

def endPart : Part := .atom (.look .endText)

/-- The expression for a route of these segments. -/
def expression (segments : List Segment) : Node :=
  Part.seqNode (anchor :: (parts 0 segments ++ [slashPart, endPart]))

theorem assemble_ending (b : Build) (keys : List String) (wildcards : Nat) :
    assemble b keys wildcards [.plain '/', .question] = some (b.push slashPart, keys) := by
  rw [assemble_plain (by simp), assemble]
  · rfl
  · simp

theorem depth_of_mem_parts {groups : Nat} {part : Part} (h : part ∈ parts groups segments) :
    part.depth ≤ 3 := by
  fun_induction parts groups segments with
  | case1 => cases h
  | case2 groups text segments ih =>
    rcases List.mem_append.mp h with h | h
    · obtain ⟨c, -, rfl⟩ := List.mem_map.mp h
      exact Nat.zero_le 3
    · exact ih h
  | case3 groups name segments ih =>
    rcases List.mem_cons.mp h with rfl | h
    · exact Nat.zero_le 3
    rcases List.mem_cons.mp h with rfl | h
    · exact Nat.le_refl 3
    · exact ih h

/-- Nothing but its size keeps a route of segments from being compiled. -/
theorem compile_path (segments : List Segment) (slash : Bool) :
    compile (path segments slash) .route =
      if (expression segments).size ≤ Build.maxSize then .ok (expression segments, names segments)
      else .error (.badPattern (String.ofList
        (source (pieces segments ++ [.plain '/', .question]) .route))) := by
  obtain ⟨ps, hps, hending⟩ := pieces_path segments slash
  have hassemble : assemble opening [] 0 (ps ++ ending (body (path segments slash).toList .route) .route) =
      some ((pushAll opening (parts 0 segments)).push slashPart, (names segments).reverse ++ []) := by
    rw [hending, assemble_pieces (by simp), assemble_ending]
    rfl
  have hclosing : closing ((pushAll opening (parts 0 segments)).push slashPart) .route =
      pushAll opening (parts 0 segments ++ [slashPart, endPart]) := by
    rw [pushAll_append]
    rfl
  have hdepth : ∀ part ∈ parts 0 segments ++ [slashPart, endPart], part.depth ≤ 3 := by
    intro part hpart
    rcases List.mem_append.mp hpart with hpart | hpart
    · exact depth_of_mem_parts hpart
    · have hends : ∀ part ∈ [slashPart, endPart], part.depth ≤ 3 := by simp [slashPart, endPart, Part.atom]
      exact hends part hpart
  rw [compile_of_assemble hps hassemble, hending, hclosing, finish_pushAll hdepth, ← expression]
  split_ifs <;> simp

theorem reaches_slashPart {p q : Point} :
    slashPart.node.Reaches p q ↔
      ∃ tail, (tail = [] ∨ tail = ['/']) ∧ p.Passes tail q ∧ q.captured = p.captured := by
  constructor
  · rintro ⟨n, -, hmost, hn⟩
    obtain ⟨x, rfl, hx, hpasses, hcaptured⟩ := repeats_one.mp hn
    refine ⟨x, ?_, hpasses, hcaptured⟩
    have hlength : x.length ≤ 1 := hmost 1 rfl
    match x with
    | [] => exact .inl rfl
    | [c] =>
      have hc := contains_like.mp (hx c List.mem_cons_self)
      rw [Text.simpleFold_eq_slash_iff.mpr rfl, Text.simpleFold_eq_slash_iff] at hc
      exact .inr (hc ▸ rfl)
    | _ :: _ :: _ => simp at hlength
  · rintro ⟨tail, htail, hpasses, hcaptured⟩
    refine ⟨tail.length, Nat.zero_le _, ?_, repeats_one.mpr ⟨tail, rfl, ?_, hpasses, hcaptured⟩⟩
    · rcases htail with rfl | rfl <;> simp
    · rcases htail with rfl | rfl <;> simp [contains_like]

theorem holds_endText {before : Option Char} {rest : List Char} :
    Assertion.endText.holds before rest.head? = true ↔ rest = [] := by
  cases rest <;> simp [Assertion.holds]

/-- The expression for a route of segments takes a path in full, and only such paths as consist of
accepted segments and at most one slash behind them. -/
theorem reaches_expression {text : List Char} {q : Point} :
    (expression segments).Reaches (Point.atStart text) q ↔
      ∃ texts tail, List.Forall₂ Accepts segments texts ∧ (tail = [] ∨ tail = ['/']) ∧
        (Point.atStart text).Passes (join texts ++ tail) q ∧ q.rest = [] ∧
        q.captured = (captures 0 segments texts).reverse := by
  rw [expression, Part.reaches_seqNode_cons]
  constructor
  · rintro ⟨_, ⟨-, rfl⟩, hall⟩
    obtain ⟨s, hs, s', hs', _, ⟨hend, rfl⟩, rfl⟩ := reachesAll_append.mp hall
    obtain ⟨texts, htexts, hpasses, hcaptured⟩ := reachesAll_parts.mp hs
    obtain ⟨tail, htail, hpasses', hcaptured'⟩ := reaches_slashPart.mp hs'
    refine ⟨texts, tail, htexts, htail, hpasses.trans hpasses', ?_, ?_⟩
    · exact holds_endText.mp hend
    · rw [hcaptured', hcaptured]
      simp [Point.atStart]
  · rintro ⟨texts, tail, htexts, htail, hpasses, hrest, hcaptured⟩
    obtain ⟨s, hs, hs', hsame⟩ := hpasses.split (captures 0 segments texts).reverse
    refine ⟨_, ⟨rfl, rfl⟩, reachesAll_append.mpr ⟨s, reachesAll_parts.mpr ⟨texts, htexts, hs, ?_⟩,
      q, reaches_slashPart.mpr ⟨tail, htail, hs', hcaptured.trans hsame.symm⟩, q, ⟨?_, rfl⟩, rfl⟩⟩
    · rw [hsame]
      simp [Point.atStart]
    · exact holds_endText.mpr hrest

/-! ### Requests -/

variable {slash : Bool} {m : PathMatcher}

theorem of_compile (h : PathMatcher.compile (.literal (path segments slash)) .route = .ok m) :
    m.node = expression segments ∧ m.keys = names segments ∧ m.mode = .route := by
  obtain ⟨hcompile, -, hmode⟩ := PathMatcher.of_compile_eq_ok h
  rw [compile_path] at hcompile
  split_ifs at hcompile
  obtain ⟨hnode, hkeys⟩ := Prod.mk.inj (Except.ok.inj hcompile)
  exact ⟨hnode.symm, hkeys.symm, hmode⟩

theorem compile_isOk_iff : (∃ m, PathMatcher.compile (.literal (path segments slash)) .route = .ok m) ↔
    (expression segments).size ≤ Build.maxSize := by
  unfold PathMatcher.compile
  simp only [compile_path]
  split_ifs with hsize <;> simp [hsize]

/-- What a match of the expression gives are the segments of a path in their places. -/
theorem texts_of_search {text : List Char} {q : Point}
    (h : PathMatcher.compile (.literal (path segments slash)) .route = .ok m)
    (hq : search m.node text = some q) :
    ∃ texts tail, List.Forall₂ Accepts segments texts ∧ (tail = [] ∨ tail = ['/']) ∧
      text = join texts ++ tail ∧ m.found q = ⟨params segments texts, []⟩ := by
  obtain ⟨hnode, hkeys, hmode⟩ := of_compile h
  have hreaches := reaches_of_search (hnode ▸ anchored_seqNode _) hq
  rw [hnode, reaches_expression] at hreaches
  obtain ⟨texts, tail, htexts, htail, hpasses, hrest, hcaptured⟩ := hreaches
  have hlookup : ∀ index x, (index, x) ∈ captures 0 segments texts →
      (captures 0 segments texts).reverse.lookup index = some x := fun _ _ => lookup_captures
  have hparams := params_of_lookup htexts hlookup
  refine ⟨texts, tail, htexts, htail, by simpa [hrest, Point.atStart] using hpasses.rest, ?_⟩
  rw [PathMatcher.found, hkeys, hrest, hcaptured]
  exact congrArg (PathMatch.mk · []) hparams

theorem exists_search_of_texts {texts : List (List Char)} {tail : List Char}
    (h : PathMatcher.compile (.literal (path segments slash)) .route = .ok m)
    (htexts : List.Forall₂ Accepts segments texts) (htail : tail = [] ∨ tail = ['/']) :
    ∃ q, search m.node (join texts ++ tail) = some q := by
  have hnode := (of_compile h).1
  have hreaches : (expression segments).Reaches (Point.atStart (join texts ++ tail))
      ⟨(join texts ++ tail).getLast?, [], (captures 0 segments texts).reverse⟩ :=
    reaches_expression.mpr ⟨texts, tail, htexts, htail, ⟨by simp [Point.atStart], by simp [Point.atStart]⟩,
      rfl, rfl⟩
  exact exists_search (hnode ▸ anchored_seqNode _) (hnode ▸ hreaches)

/-- A route of segments is refused only for its size. It takes the request paths that consist of
accepted segments, as many as it has, with at most one slash behind them, takes them in full, and its
parameters are the segments in their places. -/
theorem routes_match_segmentwise (segments : List Segment) (slash : Bool) :
    ((∃ m, PathMatcher.compile (.literal (path segments slash)) .route = .ok m) ↔
      (expression segments).size ≤ Build.maxSize) ∧
    ∀ m, PathMatcher.compile (.literal (path segments slash)) .route = .ok m →
      ∀ text found, m.matches? text = some found ↔
        ∃ texts, List.Forall₂ Accepts segments texts ∧
          (text = join texts ∨ text = join texts ++ ['/']) ∧ found = ⟨params segments texts, []⟩ := by
  refine ⟨compile_isOk_iff, fun m hm text found => ?_⟩
  rw [PathMatcher.matches?_route (of_compile hm).2.2, Option.map_eq_some_iff]
  constructor
  · rintro ⟨q, hq, rfl⟩
    obtain ⟨texts, tail, htexts, htail, htext, hfound⟩ := texts_of_search hm hq
    refine ⟨texts, htexts, ?_, hfound⟩
    rcases htail with rfl | rfl
    · exact .inl (htext.trans (List.append_nil _))
    · exact .inr htext
  · rintro ⟨texts, htexts, htext, rfl⟩
    obtain ⟨tail, htail, rfl⟩ : ∃ tail, (tail = [] ∨ tail = ['/']) ∧ text = join texts ++ tail := by
      rcases htext with rfl | rfl
      · exact ⟨[], .inl rfl, (List.append_nil _).symm⟩
      · exact ⟨['/'], .inr rfl, rfl⟩
    obtain ⟨q, hq⟩ := exists_search_of_texts hm htexts htail
    obtain ⟨texts', tail', htexts', htail', htext, hfound⟩ := texts_of_search hm hq
    have hstop : ∀ tail : List Char, tail = [] ∨ tail = ['/'] → Text.StopsAt (· ≠ '/') tail := by
      rintro _ (rfl | rfl) <;> simp
    obtain rfl := texts_eq htexts htexts' (hstop tail htail) (hstop tail' htail') htext
    exact ⟨q, hq, hfound⟩

/-- `/user/:id/posts/:post_id` -/
def posts : List Segment :=
  [.plain ⟨['u', 's', 'e', 'r'], by decide, by simp [operators]⟩,
    .param ⟨['i', 'd'], by decide, List.all_eq_true.mp (by decide)⟩,
    .plain ⟨['p', 'o', 's', 't', 's'], by decide, by simp [operators]⟩,
    .param ⟨['p', 'o', 's', 't', '_', 'i', 'd'], by decide, List.all_eq_true.mp (by decide)⟩]

theorem posts_match_segmentwise :
    path posts false = "/user/:id/posts/:post_id" ∧
    ∃ m, PathMatcher.compile (.literal (path posts false)) .route = .ok m ∧
      m.matches? "/User/42/POSTS/x-y/".toList = some ⟨[("id", "42"), ("post_id", "x-y")], []⟩ := by
  obtain ⟨m, hm⟩ := (routes_match_segmentwise posts false).1.mpr (by decide +kernel)
  refine ⟨by decide, m, hm, ((routes_match_segmentwise posts false).2 m hm _ _).mpr
    ⟨["User".toList, "42".toList, "POSTS".toList, "x-y".toList], ?_, .inr (by decide), by decide⟩⟩
  exact .cons (by unfold Accepts; decide +kernel) (.cons ⟨by decide, by decide⟩
    (.cons (by unfold Accepts; decide +kernel) (.cons ⟨by decide, by decide⟩ .nil)))

end Segment
end RouteQuery
