import RouteQuery.Proofs.DocumentPrinting

/-! Documents and the tokens that they were read from. Reading loses nothing, and it leaves no set
empty. -/
namespace RouteQuery
open Text

/-- Words and braces are all that a query is made of; the other tokens belong to schemas. -/
def Token.InQuery : Token → Prop
  | .name _ | .openBrace | .closeBrace => True
  | _ => False

namespace Selection

theorem tokens_append (xs ys : List Selection) : tokens (xs ++ ys) = tokens xs ++ tokens ys := by
  fun_induction tokens xs with
  | case1 => rfl
  | case2 n rest ih => simp [tokens, ih]
  | case3 n children rest _ ih => simp [tokens, ih]

theorem filled_append {xs ys : List Selection} : Filled (xs ++ ys) ↔ Filled xs ∧ Filled ys := by
  fun_induction Filled xs with
  | case1 => simp
  | case2 n rest ih => simp [Filled, ih]
  | case3 n children rest _ ih => simp [Filled, ih, and_assoc]

theorem inQuery_of_mem_tokens {selections : List Selection} {t : Token}
    (h : t ∈ tokens selections) : t.InQuery := by
  fun_induction tokens selections with
  | case1 => cases h
  | case2 name rest ih =>
    rcases List.mem_cons.mp h with rfl | h
    · trivial
    · exact ih h
  | case3 name children rest ihc ih =>
    simp only [List.mem_cons, List.mem_append] at h
    rcases h with rfl | rfl | h | rfl | h
    · trivial
    · trivial
    · exact ihc h
    · trivial
    · exact ih h

theorem stray_not_mem_tokens (selections : List Selection) : .stray ∉ tokens selections :=
  fun h => inQuery_of_mem_tokens h

end Selection

namespace Document
open Selection

/-- The tokens behind the first brace up to where reading has come. -/
def opened (inner : List Selection) : List (String × List Selection) → List Token
  | [] => Selection.tokens inner.reverse
  | (n, before) :: outer =>
    opened before outer ++ .name n :: .openBrace :: Selection.tokens inner.reverse

theorem opened_cons (s : Selection) (inner : List Selection)
    (outer : List (String × List Selection)) :
    opened (s :: inner) outer = opened inner outer ++ Selection.tokens [s] := by
  cases outer <;> simp [opened, Selection.tokens_append]

/-- What a set is read from: its tokens, up to its closing brace. -/
theorem tokens_of_selectionSet {inner selections : List Selection}
    {outer : List (String × List Selection)} {nested : Option (List Char)} {ls rest : List Lexeme}
    (h : selectionSet inner outer nested ls = .ok (selections, rest)) :
    ∃ read, ls = read ++ rest ∧
      opened inner outer ++ read.map (·.token) = Selection.tokens selections ++ [.closeBrace] := by
  fun_induction selectionSet inner outer nested ls with
  | case1 => simp at h
  | case2 inner outer nested start rest n ih =>
    obtain ⟨read, rfl, hread⟩ := ih h
    refine ⟨⟨.name n, start⟩ :: read, rfl, ?_⟩
    rw [← hread, opened_cons]
    simp [Selection.tokens]
  | case3 outer nested start rest n before ih =>
    obtain ⟨read, rfl, hread⟩ := ih h
    refine ⟨⟨.openBrace, start⟩ :: read, rfl, ?_⟩
    rw [← hread, opened_cons]
    simp [opened, Selection.tokens]
  | case4 nested start rest s before =>
    obtain ⟨rfl, rfl⟩ := Prod.mk.inj (Except.ok.inj h)
    exact ⟨[⟨.closeBrace, start⟩], rfl, rfl⟩
  | case5 nested start rest s before n outerBefore outer ih =>
    obtain ⟨read, rfl, hread⟩ := ih h
    refine ⟨⟨.closeBrace, start⟩ :: read, rfl, ?_⟩
    rw [← hread, opened_cons (.branch n _)]
    simp [opened, Selection.tokens]
  | case6 => simp at h

/-- A set is read only when something stands in it and in all sets below. -/
theorem filled_of_selectionSet {inner selections : List Selection}
    {outer : List (String × List Selection)} {nested : Option (List Char)} {ls rest : List Lexeme}
    (h : selectionSet inner outer nested ls = .ok (selections, rest))
    (hinner : Filled inner.reverse) (houter : ∀ o ∈ outer, Filled o.2.reverse) :
    selections ≠ [] ∧ Filled selections := by
  fun_induction selectionSet inner outer nested ls with
  | case1 => simp at h
  | case2 inner outer nested start rest n ih =>
    refine ih h ?_ houter
    rw [List.reverse_cons, filled_append]
    exact ⟨hinner, by simp [Filled]⟩
  | case3 outer nested start rest n before ih =>
    rw [List.reverse_cons, filled_append] at hinner
    exact ih h (by simp [Filled]) (List.forall_mem_cons.mpr ⟨hinner.1, houter⟩)
  | case4 nested start rest s before =>
    obtain ⟨rfl, -⟩ := Prod.mk.inj (Except.ok.inj h)
    exact ⟨by simp, hinner⟩
  | case5 nested start rest s before n outerBefore outer ih =>
    obtain ⟨hbefore, houter⟩ := List.forall_mem_cons.mp houter
    refine ih h ?_ houter
    rw [List.reverse_cons, filled_append, Filled]
    exact ⟨hbefore, by simp, hinner, by simp [Filled]⟩
  | case6 => simp at h

/-- What is behind the words of an operation: a set in braces and nothing else. -/
def Spells (ts : List Token) (selections : List Selection) : Prop :=
  ts = .openBrace :: (Selection.tokens selections ++ [.closeBrace]) ∧ selections ≠ [] ∧
    Filled selections

theorem spells_of_selectionSet {start : List Char} {ls : List Lexeme} {selections : List Selection}
    (h : selectionSet [] [] none ls = .ok (selections, [])) :
    Spells ((⟨.openBrace, start⟩ :: ls : List Lexeme).map (·.token)) selections := by
  obtain ⟨read, hls, htokens⟩ := tokens_of_selectionSet h
  have hread : read.map (·.token) = Selection.tokens selections ++ [.closeBrace] := by
    simpa [opened, Selection.tokens] using htokens
  refine ⟨?_, filled_of_selectionSet h (by simp [Filled]) (by simp)⟩
  rw [hls, List.append_nil, List.map_cons, hread]

theorem spells_of_selectionsOnly {ls : List Lexeme} {selections : List Selection}
    (h : selectionsOnly ls = .ok selections) : Spells (ls.map (·.token)) selections := by
  unfold selectionsOnly at h
  split at h
  · split at h
    · next hset =>
      obtain rfl := Except.ok.inj h
      exact spells_of_selectionSet hset
    · simp at h
    · simp at h
  · simp at h

/-- A document is read from words and, behind them, the set in braces that spells it. If there are
words they are `query` and the name of the operation, if it has one. -/
theorem spells_of_parse {text : List Char} {d : Document} (h : parse text = .ok d) :
    ∃ head set, tokens text = head ++ set ∧ Spells set d.selections ∧
      (head = [] ∧ d.operation = none ∨
        head = .name "query" :: d.operation.toList.map Token.name) := by
  have hread : ofLexemes text (lexemes text) = .ok d := by
    unfold parse at h
    exact eq_ok_of_mapError h
  unfold ofLexemes at hread
  split at hread
  · next start rest hls =>
    split at hread
    · next hset =>
      obtain rfl := Except.ok.inj hread
      exact ⟨[], tokens text, rfl, by rw [tokens, hls]; exact spells_of_selectionSet hset,
        .inl ⟨rfl, rfl⟩⟩
    · simp at hread
    · simp at hread
  · next word start rest hls =>
    split at hread
    · next hword =>
      subst hword
      split at hread
      · next operation _ rest =>
        obtain ⟨selections, hset, rfl⟩ := exists_of_map_eq_ok hread
        exact ⟨[.name "query", .name operation], rest.map (·.token), by rw [tokens, hls]; rfl,
          spells_of_selectionsOnly hset, .inr rfl⟩
      · next rest _ =>
        obtain ⟨selections, hset, rfl⟩ := exists_of_map_eq_ok hread
        exact ⟨[.name "query"], _, by rw [tokens, hls]; rfl, spells_of_selectionsOnly hset, .inr rfl⟩
    · simp at hread
  · simp at hread

/-- No set of a document is empty. -/
theorem filled_of_parse {text : List Char} {d : Document} (h : parse text = .ok d) :
    d.selections ≠ [] ∧ Filled d.selections := by
  obtain ⟨_, _, _, hspells, _⟩ := spells_of_parse h
  exact hspells.2

/-- A text that opens with a brace is read from the tokens of its selections. -/
theorem tokens_of_parse {text : List Char} {d : Document} {ts : List Token}
    (h : parse text = .ok d) (hbrace : tokens text = .openBrace :: ts) :
    ts = Selection.tokens d.selections ++ [.closeBrace] := by
  obtain ⟨head, set, htokens, hspells, ⟨rfl, -⟩ | rfl⟩ := spells_of_parse h
  · rw [List.nil_append, hspells.1, hbrace] at htokens
    exact (List.cons.inj htokens).2
  · rw [hbrace] at htokens
    cases (List.cons.inj htokens).1

end Document
end RouteQuery
