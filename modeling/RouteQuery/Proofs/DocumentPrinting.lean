import RouteQuery.Document
import RouteQuery.Proofs.Lexing
import RouteQuery.Proofs.Outcomes

/-! Documents from the tokens that spell them, and the names that parsed documents use. -/
namespace RouteQuery

namespace Selection

def tokens : List Selection → List Token
  | [] => []
  | leaf n :: rest => .name n :: tokens rest
  | branch n children :: rest =>
    .name n :: .openBrace :: (tokens children ++ .closeBrace :: tokens rest)

/-- No set below the selections is empty. -/
def Filled : List Selection → Prop
  | [] => True
  | leaf _ :: rest => Filled rest
  | branch _ children :: rest => children ≠ [] ∧ Filled children ∧ Filled rest

end Selection

namespace Document

/-- The tokens of selections are read as these selections, whatever has been read before. The place
of an open nested set comes back to what it was. -/
theorem selectionSet_tokens {selections inner : List Selection}
    {outer : List (String × List Selection)} {nested : Option (List Char)} {ls rest : List Lexeme}
    (hfilled : Selection.Filled selections) (hnested : nested.isNone = outer.isEmpty)
    (h : ls.map (·.token) = Selection.tokens selections) :
    selectionSet inner outer nested (ls ++ rest) =
      selectionSet (selections.reverse ++ inner) outer nested rest := by
  fun_induction Selection.tokens selections generalizing inner outer nested ls rest with
  | case1 =>
    obtain rfl := List.map_eq_nil_iff.mp h
    rfl
  | case2 n selections ih =>
    rw [Selection.Filled] at hfilled
    obtain ⟨s₁, ls, rfl, h₁⟩ := exists_of_map_token_eq_cons h
    rw [List.cons_append, selectionSet, ih hfilled hnested h₁]
    simp
  | case3 n children selections ihc ih =>
    rw [Selection.Filled] at hfilled
    obtain ⟨hne, hchildren, hselections⟩ := hfilled
    obtain ⟨s₁, ls, rfl, h₁⟩ := exists_of_map_token_eq_cons h
    obtain ⟨s₂, ls, rfl, h₂⟩ := exists_of_map_token_eq_cons h₁
    obtain ⟨inside, ls, rfl, hinside, h₃⟩ := List.map_eq_append_iff.mp h₂
    obtain ⟨s₃, ls, rfl, h₄⟩ := exists_of_map_token_eq_cons h₃
    have hback : (if outer.isEmpty then none else nested.or (some s₂)) = nested := by
      cases outer <;> cases nested <;> simp_all
    obtain ⟨last, before, hrev⟩ := List.exists_cons_of_ne_nil (List.reverse_ne_nil_iff.mpr hne)
    have hlast : (last :: before).reverse = children := by rw [← hrev, List.reverse_reverse]
    have hopen : (nested.or (some s₂)).isNone = ((n, inner) :: outer).isEmpty := by
      cases nested <;> rfl
    have hset : selectionSet [] ((n, inner) :: outer) (nested.or (some s₂))
        (inside ++ ⟨.closeBrace, s₃⟩ :: (ls ++ rest)) = _ := ihc hchildren hopen hinside
    rw [List.append_nil, hrev, selectionSet] at hset
    simp only [List.cons_append, List.append_assoc]
    rw [selectionSet, selectionSet, hset, hlast, hback, ih hselections hnested h₄]
    simp

/-- A set is read from its tokens and its closing brace. -/
theorem selectionSet_of_tokens {selections : List Selection} {ls : List Lexeme}
    (hne : selections ≠ []) (hfilled : Selection.Filled selections)
    (h : ls.map (·.token) = Selection.tokens selections ++ [.closeBrace]) :
    selectionSet [] [] none ls = .ok (selections, []) := by
  obtain ⟨inside, ls, rfl, hinside, hclose⟩ := List.map_eq_append_iff.mp h
  obtain ⟨start, ls, rfl, hnil⟩ := exists_of_map_token_eq_cons hclose
  obtain rfl := List.map_eq_nil_iff.mp hnil
  obtain ⟨last, before, hrev⟩ := List.exists_cons_of_ne_nil (List.reverse_ne_nil_iff.mpr hne)
  rw [selectionSet_tokens hfilled rfl hinside, List.append_nil, hrev, selectionSet, ← hrev,
    List.reverse_reverse]

theorem parse_of_tokens {selections : List Selection} {text : List Char} (hne : selections ≠ [])
    (hfilled : Selection.Filled selections)
    (h : tokens text = .openBrace :: (Selection.tokens selections ++ [.closeBrace])) :
    parse text = .ok ⟨none, selections⟩ := by
  obtain ⟨start, ls, hls, hset⟩ := exists_of_map_token_eq_cons h
  rw [parse, hls, ofLexemes, selectionSet_of_tokens hne hfilled hset]
  rfl

/-- Every name of a set has been read, before or among the tokens. -/
theorem names_of_selectionSet {P : String → Prop} {inner selections : List Selection}
    {outer : List (String × List Selection)} {nested : Option (List Char)} {ls rest : List Lexeme}
    (h : selectionSet inner outer nested ls = .ok (selections, rest))
    (hinner : ∀ s ∈ inner, P s.name) (houter : ∀ o ∈ outer, P o.1 ∧ ∀ s ∈ o.2, P s.name)
    (hls : ∀ n, Token.name n ∈ ls.map (·.token) → P n) : ∀ s ∈ selections, P s.name := by
  fun_induction selectionSet inner outer nested ls with
  | case1 => simp at h
  | case2 inner outer nested start rest n ih =>
    refine ih h ?_ houter fun m hm => hls m (by simp [hm])
    simpa [Selection.name] using ⟨hls n (by simp), hinner⟩
  | case3 outer nested start rest n before ih =>
    refine ih h (by simp) ?_ fun m hm => hls m (by simp [hm])
    simp only [List.mem_cons, forall_eq_or_imp] at hinner ⊢
    exact ⟨hinner, houter⟩
  | case4 nested start rest s before =>
    obtain ⟨rfl, -⟩ := Prod.mk.inj (Except.ok.inj h)
    exact fun t ht => hinner t (List.mem_reverse.mp ht)
  | case5 nested start rest s before n outerBefore outer ih =>
    simp only [List.mem_cons, forall_eq_or_imp] at houter
    refine ih h ?_ houter.2 fun m hm => hls m (by simp [hm])
    simpa [Selection.name] using houter.1
  | case6 => simp at h

theorem names_of_selectionsOnly {P : String → Prop} {selections : List Selection} {ls : List Lexeme}
    (h : selectionsOnly ls = .ok selections) (hls : ∀ n, Token.name n ∈ ls.map (·.token) → P n) :
    ∀ s ∈ selections, P s.name := by
  unfold selectionsOnly at h
  split at h
  · next rest =>
    split at h
    · next found hset =>
      obtain rfl := Except.ok.inj h
      exact names_of_selectionSet hset (by simp) (by simp) fun n hn => hls n (by simp [hn])
    · simp at h
    · simp at h
  · simp at h

/-- The fields that a document selects at its top are names of its text. -/
theorem mem_tokens_of_parse {text : List Char} {d : Document} (h : parse text = .ok d) :
    ∀ s ∈ d.selections, .name s.name ∈ tokens text := by
  have hread : ofLexemes text (lexemes text) = .ok d := by
    unfold parse at h
    exact eq_ok_of_mapError h
  have htokens : ∀ n, Token.name n ∈ (lexemes text).map (·.token) → .name n ∈ tokens text :=
    fun _ hn => hn
  unfold ofLexemes at hread
  split at hread
  · next start rest hls =>
    split at hread
    · next selections hset =>
      obtain rfl := Except.ok.inj hread
      exact names_of_selectionSet hset (by simp) (by simp)
        fun n hn => htokens n (by rw [hls]; simp [hn])
    · simp at hread
    · simp at hread
  · next word start rest hls =>
    split at hread
    · split at hread
      · next operation _ rest =>
        obtain ⟨selections, hset, rfl⟩ := exists_of_map_eq_ok hread
        exact names_of_selectionsOnly hset fun n hn => htokens n (by rw [hls]; simp [hn])
      · obtain ⟨selections, hset, rfl⟩ := exists_of_map_eq_ok hread
        exact names_of_selectionsOnly hset fun n hn => htokens n (by rw [hls]; simp [hn])
    · simp at hread
  · simp at hread

end Document
end RouteQuery
