import RouteQuery.Proofs.Escaping
import RouteQuery.Proofs.PathPatterns

/-! The names of parameters, from the text of a path to the groups of its pattern and to the
identifier that it was decoded from. -/
namespace RouteQuery
open Text

theorem Text.occursIn_iff {part whole : List Char} : occursIn part whole = true ↔ part <:+: whole := by
  induction whole with
  | nil => rw [occursIn, List.isEmpty_iff, List.infix_nil]
  | cons c cs ih => rw [occursIn, Bool.or_eq_true, List.isPrefixOf_iff_prefix, ih, List.infix_cons_iff]

namespace Escape

/-- No token decodes to a word character, so a word that opens a decoded text was there before. -/
theorem prefix_of_prefix_decodeChars {word cs : List Char} (h : ∀ c ∈ word, isWordChar c = true)
    (hword : word <+: decodeChars cs) : word <+: cs := by
  induction word generalizing cs with
  | nil => exact List.nil_prefix
  | cons c word ih =>
    rw [List.forall_mem_cons] at h
    cases cs with
    | nil => simp at hword
    | cons d ds =>
      rw [decodeChars] at hword
      split at hword
      · next reserved rest hlead =>
        obtain ⟨token, hmem, -⟩ := of_leadingToken?_eq_some hlead
        have hreserved := isWordChar_of_mem_table hmem
        rw [← (List.cons_prefix_cons.mp hword).1, h.1] at hreserved
        cases hreserved
      · obtain ⟨rfl, hrest⟩ := List.cons_prefix_cons.mp hword
        exact List.cons_prefix_cons.mpr ⟨rfl, ih h.2 hrest⟩

/-- A parameter in a decoded text stands in the text as the token of the colon and the name. -/
theorem colonToken_infix {cs before after name : List Char} (hcolon : ':' ∉ cs)
    (hname : ∀ c ∈ name, isWordChar c = true)
    (h : decodeChars cs = before ++ ':' :: (name ++ after)) :
    colonToken.toList ++ name <:+: cs := by
  fun_induction decodeChars cs generalizing before with
  | case1 => simp at h
  | case2 c cs reserved rest hlead ih =>
    obtain ⟨token, hmem, hcs⟩ := of_leadingToken?_eq_some hlead
    rw [hcs] at hcolon ⊢
    cases before with
    | nil =>
      obtain ⟨rfl, hrest⟩ := List.cons.inj h
      have htoken : token = colonToken := by
        revert hmem
        simp [table, colonToken]
      have hprefix : name <+: rest := prefix_of_prefix_decodeChars hname ⟨after, hrest.symm⟩
      rw [htoken]
      exact (List.prefix_append_right_inj _ |>.mpr hprefix).isInfix
    | cons b before =>
      obtain ⟨-, hrest⟩ := List.cons.inj h
      have hinfix := ih (fun hmem => hcolon (List.mem_append_right _ hmem)) hrest
      exact hinfix.trans (List.suffix_append ..).isInfix
  | case3 c cs hlead ih =>
    cases before with
    | nil =>
      obtain ⟨rfl, -⟩ := List.cons.inj h
      exact absurd List.mem_cons_self hcolon
    | cons b before =>
      obtain ⟨-, hrest⟩ := List.cons.inj h
      have hinfix := ih (fun hmem => hcolon (List.mem_cons_of_mem _ hmem)) hrest
      exact hinfix.trans (List.suffix_cons ..).isInfix

end Escape

namespace PathTemplate

theorem Piece.ofChar_ne_param (c : Char) (name : String) : Piece.ofChar c ≠ .param name := by
  unfold Piece.ofChar
  repeat' split
  all_goals simp

/-- A parameter is a colon in the text of the path with word characters behind it. -/
theorem of_param_mem_pieces {position : Nat} {cs : List Char} {ps : List Piece} {name : String}
    (h : pieces position cs = .ok ps) (hmem : .param name ∈ ps) :
    (∀ c ∈ name.toList, isWordChar c = true) ∧
      ∃ before after, cs = before ++ ':' :: (name.toList ++ after) := by
  fun_induction pieces position cs generalizing ps with
  | case1 =>
    obtain rfl := Except.ok.inj h
    cases hmem
  | case2 => cases h
  | case3 position cs word hword =>
    rename_i ih
    obtain ⟨rest, hrest, hps⟩ := exists_of_bind_eq_ok h
    obtain rfl := Except.ok.inj hps
    have hsplit : cs.takeWhile isWordChar ++ cs.dropWhile isWordChar = cs :=
      List.takeWhile_append_dropWhile
    rcases List.mem_cons.mp hmem with hname | hmem
    · obtain rfl := Piece.param.inj hname
      rw [String.toList_ofList]
      exact ⟨fun c hc => List.mem_takeWhile_imp hc, [], cs.dropWhile isWordChar, by
        rw [List.nil_append, hsplit]⟩
    · obtain ⟨hchars, before, after, hcs⟩ := ih hrest hmem
      refine ⟨hchars, ':' :: (cs.takeWhile isWordChar ++ before), after, ?_⟩
      rw [List.cons_append, List.append_assoc, ← hcs, hsplit]
  | case4 position c cs hc ih =>
    obtain ⟨rest, hrest, hps⟩ := exists_of_bind_eq_ok h
    obtain rfl := Except.ok.inj hps
    rcases List.mem_cons.mp hmem with hname | hmem
    · exact absurd hname.symm (Piece.ofChar_ne_param c name)
    · obtain ⟨hchars, before, after, rfl⟩ := ih hrest hmem
      exact ⟨hchars, c :: before, after, rfl⟩

/-- The names of the groups that pieces make, in order. -/
def Piece.keys (wildcards : Nat) : List Piece → List String
  | [] => []
  | .param name :: rest => name :: keys wildcards rest
  | .wildcard :: rest => toString wildcards :: keys (wildcards + 1) rest
  | _ :: rest => keys wildcards rest

theorem keys_of_assemble {b b' : Pattern.Build} {keys keys' : List String} {wildcards : Nat}
    {ps : List Piece} (h : assemble b keys wildcards ps = some (b', keys')) :
    keys' = (Piece.keys wildcards ps).reverse ++ keys := by
  fun_induction assemble b keys wildcards ps with
  | case1 =>
    obtain ⟨-, rfl⟩ := Prod.mk.inj (Option.some.inj h)
    rfl
  | case4 b keys wildcards c rest _ _ ih => exact ih h
  | case7 b keys wildcards rest ih => exact ih h
  | case5 b keys wildcards name rest ih => simpa [Piece.keys] using ih h
  | case6 b keys wildcards rest ih => simpa [Piece.keys] using ih h
  | case2 b keys wildcards name rest ih | case3 b keys wildcards name rest _ ih =>
    obtain ⟨b₁, -, hrest⟩ := Option.bind_eq_some_iff.mp h
    simpa [Piece.keys] using ih b₁ hrest
  -- Operators and groups may fail, but they make no group of their own.
  | case8 b keys wildcards rest ih | case9 b keys wildcards rest ih
  | case10 b keys wildcards rest _ ih | case11 b keys wildcards rest ih
  | case12 b keys wildcards rest _ ih =>
    obtain ⟨b₁, -, hrest⟩ := Option.bind_eq_some_iff.mp h
    exact ih b₁ hrest

theorem Piece.keys_append {wildcards : Nat} {ps qs : List Piece}
    (h : ∀ wildcards, Piece.keys wildcards qs = []) :
    Piece.keys wildcards (ps ++ qs) = Piece.keys wildcards ps := by
  fun_induction Piece.keys wildcards ps with
  | case1 => exact h _
  | case2 wildcards name rest ih => rw [List.cons_append, Piece.keys, ih]
  | case3 wildcards rest ih => rw [List.cons_append, Piece.keys, ih]
  | case4 wildcards p rest hparam hwildcard ih =>
    rw [List.cons_append, Piece.keys, ih]
    · exact hparam
    · exact hwildcard

theorem Piece.keys_append_ending (wildcards : Nat) (ps : List Piece) (path : List Char) (mode : MatchMode) :
    Piece.keys wildcards (ps ++ ending path mode) = Piece.keys wildcards ps := by
  refine Piece.keys_append fun wildcards => ?_
  cases mode with
  | mount => rfl
  | route =>
    unfold ending routeEnd
    split_ifs <;> rfl

/-- A path that compiles has a group for each of its parameters and wildcards, in order. -/
theorem keys_of_compile {path : String} {mode : MatchMode} {node : Pattern.Node} {keys : List String}
    (h : compile path mode = .ok (node, keys)) :
    ∃ ps, pieces 0 (body path.toList mode) = .ok ps ∧ keys = Piece.keys 0 ps := by
  obtain ⟨ps, b, keys', hps, hassemble, -, rfl⟩ := of_compile_eq_ok h
  refine ⟨ps, hps, ?_⟩
  rw [keys_of_assemble hassemble, List.append_nil, List.reverse_reverse, Piece.keys_append_ending]

end PathTemplate

theorem PathMatcher.keys_of_compile {text : String} {m : PathMatcher}
    (h : compile (.literal text) .route = .ok m) :
    ∃ ps, PathTemplate.pieces 0 text.toList = .ok ps ∧ m.keys = PathTemplate.Piece.keys 0 ps := by
  exact PathTemplate.keys_of_compile (of_compile_eq_ok h).1

end RouteQuery
