import RouteQuery.Proofs.DocumentReading
import RouteQuery.Proofs.QueryPrinting
import RouteQuery.Proofs.Tokenizing

/-! The grammar of queries. A text is read as a document just when it splits into words and braces that
derive the document, and every layout of a document is read as that document. -/
namespace RouteQuery
open Text

/-! ### Splitting a text -/

/-- How a text splits into longest words and braces, with separators and comments between them. -/
inductive SplitsInto : List Char → List Token → Prop
  | nil : SplitsInto [] []
  | separator {c : Char} {cs : List Char} {ts : List Token} (blank : c ∈ separators)
      (rest : SplitsInto cs ts) : SplitsInto (c :: cs) ts
  | comment {comment cs : List Char} {ts : List Token} (line : ∀ c ∈ comment, c ≠ '\n' ∧ c ≠ '\r')
      (ends : EndsLine cs) (rest : SplitsInto cs ts) : SplitsInto ('#' :: (comment ++ cs)) ts
  | word {name : String} {cs : List Char} {ts : List Token} (valid : isIdentifier name = true)
      (longest : StopsAt isWordChar cs) (rest : SplitsInto cs ts) :
      SplitsInto (name.toList ++ cs) (.name name :: ts)
  | openBrace {cs : List Char} {ts : List Token} (rest : SplitsInto cs ts) :
      SplitsInto ('{' :: cs) (.openBrace :: ts)
  | closeBrace {cs : List Char} {ts : List Token} (rest : SplitsInto cs ts) :
      SplitsInto ('}' :: cs) (.closeBrace :: ts)

theorem SplitsInto.splits {cs : List Char} {ts : List Token} (h : SplitsInto cs ts) : Splits cs ts := by
  induction h with
  | nil => exact .nil
  | separator blank _ ih => exact .separator blank ih
  | comment line ends _ ih => exact .comment line ends ih
  | word valid longest _ ih => exact .word valid longest ih
  | openBrace _ ih | closeBrace _ ih => exact .symbol (by simp [symbols]) ih

theorem Splits.splitsInto {cs : List Char} {ts : List Token} (h : Splits cs ts)
    (hquery : ∀ t ∈ ts, t.InQuery) : SplitsInto cs ts := by
  induction h with
  | nil => exact .nil
  | separator blank _ ih => exact .separator blank (ih hquery)
  | comment line ends _ ih => exact .comment line ends (ih hquery)
  | word valid longest _ ih => exact .word valid longest (ih (List.forall_mem_cons.mp hquery).2)
  | symbol single _ ih =>
    obtain ⟨ht, hts⟩ := List.forall_mem_cons.mp hquery
    simp only [symbols, List.mem_cons, Prod.mk.injEq, List.not_mem_nil, or_false] at single
    rcases single with ⟨rfl, rfl⟩ | ⟨rfl, rfl⟩ | ⟨rfl, rfl⟩ | ⟨rfl, rfl⟩
    · exact .openBrace (ih hts)
    · exact .closeBrace (ih hts)
    · exact ht.elim
    · exact ht.elim

theorem SplitsInto.tokens_eq {cs : List Char} {ts : List Token} (h : SplitsInto cs ts) :
    tokens cs = ts := h.splits.tokens_eq

theorem splitsInto_tokens {cs : List Char} (h : ∀ t ∈ tokens cs, t.InQuery) :
    SplitsInto cs (tokens cs) :=
  (splits_tokens fun hstray => h _ hstray).splitsInto h

/-! ### The grammar -/

mutual
/-- The rule `Selection := Name SelectionSet?`. -/
inductive IsSelection : List Token → Selection → Prop
  | leaf (name : String) : IsSelection [.name name] (.leaf name)
  | branch (name : String) {ts : List Token} {children : List Selection}
      (set : IsSelectionSet ts children) : IsSelection (.name name :: ts) (.branch name children)

/-- The rule `SelectionSet := { Selection+ }`. -/
inductive IsSelectionSet : List Token → List Selection → Prop
  | braces {ts : List Token} {selections : List Selection} (inside : IsSelections ts selections) :
      IsSelectionSet (.openBrace :: (ts ++ [.closeBrace])) selections

/-- One selection or more, `Selection+`. -/
inductive IsSelections : List Token → List Selection → Prop
  | one {ts : List Token} {s : Selection} (first : IsSelection ts s) : IsSelections ts [s]
  | more {ts us : List Token} {s : Selection} {selections : List Selection} (first : IsSelection ts s)
      (rest : IsSelections us selections) : IsSelections (ts ++ us) (s :: selections)
end

/-- The rule `Document := ("query" Name?)? SelectionSet`. -/
inductive IsDocument : List Token → Document → Prop
  | bare {ts : List Token} {selections : List Selection} (set : IsSelectionSet ts selections) :
      IsDocument ts ⟨none, selections⟩
  | unnamed {ts : List Token} {selections : List Selection} (set : IsSelectionSet ts selections) :
      IsDocument (.name "query" :: ts) ⟨none, selections⟩
  | named (name : String) {ts : List Token} {selections : List Selection}
      (set : IsSelectionSet ts selections) :
      IsDocument (.name "query" :: .name name :: ts) ⟨some name, selections⟩

mutual
theorem IsSelection.tokens_eq {ts : List Token} {s : Selection} :
    IsSelection ts s → ts = Selection.tokens [s] ∧ Selection.Filled [s]
  | .leaf name => ⟨by simp [Selection.tokens], by simp [Selection.Filled]⟩
  | .branch name set => by
    obtain ⟨rfl, hne, hfilled⟩ := set.spells
    exact ⟨by simp [Selection.tokens], by simp [Selection.Filled, hne, hfilled]⟩

theorem IsSelectionSet.spells {ts : List Token} {selections : List Selection} :
    IsSelectionSet ts selections → Document.Spells ts selections
  | .braces inside => by
    obtain ⟨rfl, hne, hfilled⟩ := inside.tokens_eq
    exact ⟨rfl, hne, hfilled⟩

theorem IsSelections.tokens_eq {ts : List Token} {selections : List Selection} :
    IsSelections ts selections →
      ts = Selection.tokens selections ∧ selections ≠ [] ∧ Selection.Filled selections
  | .one first => by
    obtain ⟨rfl, hfilled⟩ := first.tokens_eq
    exact ⟨rfl, List.cons_ne_nil _ _, hfilled⟩
  | .more first rest => by
    obtain ⟨rfl, hfilled⟩ := first.tokens_eq
    obtain ⟨rfl, -, hrest⟩ := rest.tokens_eq
    exact ⟨(Selection.tokens_append [_] _).symm, List.cons_ne_nil _ _,
      Selection.filled_append.mpr ⟨hfilled, hrest⟩⟩
end

theorem IsSelections.cons {ts : List Token} {s : Selection} {selections : List Selection}
    (first : IsSelection ts s)
    (h : selections ≠ [] → IsSelections (Selection.tokens selections) selections) :
    IsSelections (ts ++ Selection.tokens selections) (s :: selections) := by
  cases selections with
  | nil => simpa [Selection.tokens] using IsSelections.one first
  | cons next selections => exact .more first (h (List.cons_ne_nil _ _))

theorem isSelections_tokens {selections : List Selection} (hne : selections ≠ [])
    (h : Selection.Filled selections) : IsSelections (Selection.tokens selections) selections := by
  fun_induction Selection.tokens selections with
  | case1 => exact absurd rfl hne
  | case2 name rest ih =>
    rw [Selection.Filled] at h
    exact .cons (.leaf name) fun hrest => ih hrest h
  | case3 name children rest ihc ih =>
    rw [Selection.Filled] at h
    obtain ⟨hchildren, hfilled, hrest⟩ := h
    have hset := IsSelectionSet.braces (ihc hchildren hfilled)
    simpa using IsSelections.cons (.branch name hset) fun hne => ih hne hrest

theorem isSelectionSet_iff {ts : List Token} {selections : List Selection} :
    IsSelectionSet ts selections ↔ Document.Spells ts selections := by
  constructor
  · exact IsSelectionSet.spells
  · rintro ⟨rfl, hne, hfilled⟩
    exact .braces (isSelections_tokens hne hfilled)

namespace Document

/-- The words in front of a set: `query` has to stand before a name, and otherwise may. -/
def words (keyword : Bool) : Option String → List Token
  | some name => [.name "query", .name name]
  | none => if keyword then [.name "query"] else []

def tokens (keyword : Bool) (d : Document) : List Token :=
  words keyword d.operation ++ .openBrace :: (Selection.tokens d.selections ++ [.closeBrace])

theorem of_mem_words {keyword : Bool} {operation : Option String} {t : Token}
    (h : t ∈ words keyword operation) :
    t = .name "query" ∨ ∃ name ∈ operation, t = .name name := by
  cases operation <;> cases keyword <;> simp_all [words]

theorem mem_tokens {keyword : Bool} {d : Document} {t : Token} : t ∈ d.tokens keyword ↔
    t ∈ words keyword d.operation ∨ t = .openBrace ∨ t ∈ Selection.tokens d.selections ∨
      t = .closeBrace := by
  simp [tokens]

/-- Documents are derived from their tokens, if no set in them is empty. -/
theorem isDocument_iff {ts : List Token} {d : Document} : IsDocument ts d ↔
    d.selections ≠ [] ∧ Selection.Filled d.selections ∧ ∃ keyword, ts = d.tokens keyword := by
  constructor
  · rintro (set | set | ⟨name, set⟩)
    all_goals obtain ⟨rfl, hne, hfilled⟩ := set.spells
    · exact ⟨hne, hfilled, false, rfl⟩
    · exact ⟨hne, hfilled, true, rfl⟩
    · exact ⟨hne, hfilled, true, rfl⟩
  · obtain ⟨operation, selections⟩ := d
    rintro ⟨hne, hfilled, keyword, rfl⟩
    have hset := isSelectionSet_iff.mpr ⟨rfl, hne, hfilled⟩
    cases operation with
    | some name => exact .named name hset
    | none =>
      cases keyword with
      | true => exact .unnamed hset
      | false => exact .bare hset

theorem isDocument_of_parse {text : List Char} {d : Document} (h : parse text = .ok d) :
    IsDocument (RouteQuery.tokens text) d := by
  obtain ⟨head, set, htokens, hspells, hhead⟩ := spells_of_parse h
  obtain ⟨operation, selections⟩ := d
  have hset : IsSelectionSet set selections := isSelectionSet_iff.mpr hspells
  rw [htokens]
  rcases hhead with ⟨rfl, rfl⟩ | rfl
  · exact .bare hset
  · cases operation with
    | none => exact .unnamed hset
    | some name => exact .named name hset

theorem selectionSet_of_spells {ls : List Lexeme} {selections : List Selection}
    (h : Spells (ls.map (·.token)) selections) :
    ∃ start rest, ls = ⟨.openBrace, start⟩ :: rest ∧
      selectionSet [] [] none rest = .ok (selections, []) := by
  obtain ⟨htokens, hne, hfilled⟩ := h
  obtain ⟨start, rest, rfl, hset⟩ := exists_of_map_token_eq_cons htokens
  exact ⟨start, rest, rfl, selectionSet_of_tokens hne hfilled hset⟩

/-- Tokens that derive a document are read as this document, wherever they stand. -/
theorem ofLexemes_of_isDocument {text : List Char} {ls : List Lexeme} {d : Document}
    (h : IsDocument (ls.map (·.token)) d) : ofLexemes text ls = .ok d := by
  generalize hts : ls.map (·.token) = ts at h
  cases h with
  | bare set =>
    subst hts
    obtain ⟨start, rest, rfl, hset⟩ := selectionSet_of_spells set.spells
    rw [ofLexemes, hset]
  | unnamed set =>
    obtain ⟨start, ls, rfl, rfl⟩ := exists_of_map_token_eq_cons hts
    obtain ⟨brace, rest, rfl, hset⟩ := selectionSet_of_spells set.spells
    simp only [ofLexemes, selectionsOnly, hset, if_true]
    rfl
  | named name set =>
    obtain ⟨start, ls, rfl, hname⟩ := exists_of_map_token_eq_cons hts
    obtain ⟨place, ls, rfl, rfl⟩ := exists_of_map_token_eq_cons hname
    obtain ⟨brace, rest, rfl, hset⟩ := selectionSet_of_spells set.spells
    simp only [ofLexemes, selectionsOnly, hset, if_true]
    rfl

theorem parse_of_isDocument {text : List Char} {d : Document}
    (h : IsDocument (RouteQuery.tokens text) d) : parse text = .ok d := by
  rw [parse, ofLexemes_of_isDocument h]
  rfl

theorem inQuery_of_mem_tokens {keyword : Bool} {d : Document} {t : Token}
    (h : t ∈ d.tokens keyword) : t.InQuery := by
  rcases mem_tokens.mp h with h | rfl | h | rfl
  · rcases of_mem_words h with rfl | ⟨name, -, rfl⟩ <;> trivial
  · trivial
  · exact Selection.inQuery_of_mem_tokens h
  · trivial

end Document

/-! ### Layouts -/

/-- What may stand between tokens: separators, and comments with the ends of their lines. -/
inductive Gap : List Char → Prop
  | nil : Gap []
  | separator {c : Char} {cs : List Char} (blank : c ∈ separators) (rest : Gap cs) : Gap (c :: cs)
  | comment {comment cs : List Char} (line : ∀ c ∈ comment, c ≠ '\n' ∧ c ≠ '\r') (ends : EndsLine cs)
      (goesOn : cs ≠ []) (rest : Gap cs) : Gap ('#' :: (comment ++ cs))

/-- A token as it is written. No text is kept of a stray character. -/
def Token.text : Token → List Char
  | .name word => word.toList
  | .openBrace => ['{']
  | .closeBrace => ['}']
  | .colon => [':']
  | .bang => ['!']
  | .stray => []

/-- Tokens written out, each with the text behind it. -/
def written (laid : List (Token × List Char)) : List Char :=
  laid.flatMap fun (token, behind) => token.text ++ behind

/-- Between tokens there are gaps, and not empty ones between words. Only at the end of the text may a
comment be left open. -/
def Spaced : List (Token × List Char) → Prop
  | [] => True
  | [(_, behind)] => SplitsInto behind []
  | (t, gap) :: (u, behind) :: rest =>
    Gap gap ∧ (∀ word next, t = .name word → u = .name next → gap ≠ []) ∧ Spaced ((u, behind) :: rest)

theorem EndsLine.append {cs : List Char} (h : EndsLine cs) (hne : cs ≠ []) (rest : List Char) :
    EndsLine (cs ++ rest) := by
  rcases h with rfl | h | h
  · exact absurd rfl hne
  · exact .inr (.inl (h.trans (List.prefix_append cs rest)))
  · exact .inr (.inr (h.trans (List.prefix_append cs rest)))

theorem Gap.splitsInto {gap cs : List Char} {ts : List Token} (h : Gap gap) (hcs : SplitsInto cs ts) :
    SplitsInto (gap ++ cs) ts := by
  induction h with
  | nil => exact hcs
  | separator blank _ ih => exact .separator blank ih
  | comment line ends goesOn _ ih =>
    rw [List.cons_append, List.append_assoc]
    exact .comment line (ends.append goesOn cs) ih

theorem isWordChar_of_mem_separators {c : Char} (h : c ∈ separators) : isWordChar c = false := by
  simp only [separators, List.mem_cons, List.not_mem_nil, or_false] at h
  rcases h with rfl | rfl | rfl | rfl | rfl <;> rfl

theorem Gap.stopsAt {gap : List Char} (h : Gap gap) (hne : gap ≠ []) (cs : List Char) :
    StopsAt isWordChar (gap ++ cs) := by
  cases h with
  | nil => exact absurd rfl hne
  | separator blank => simpa using isWordChar_of_mem_separators blank
  | comment => simp [isWordChar]

theorem SplitsInto.stopsAt {cs : List Char} (h : SplitsInto cs []) : StopsAt isWordChar cs := by
  cases h with
  | nil => simp
  | separator blank => simpa using isWordChar_of_mem_separators blank
  | comment => simp [isWordChar]

theorem SplitsInto.token {t : Token} {cs : List Char} {ts : List Token} (h : SplitsInto cs ts)
    (ht : t.InQuery) (hword : ∀ name, t = .name name → isIdentifier name = true ∧ StopsAt isWordChar cs) :
    SplitsInto (t.text ++ cs) (t :: ts) := by
  cases t with
  | name name => exact .word (hword name rfl).1 (hword name rfl).2 h
  | openBrace => exact .openBrace h
  | closeBrace => exact .closeBrace h
  | colon | bang | stray => exact ht.elim

/-- A layout splits into its tokens. -/
theorem Spaced.splitsInto {laid : List (Token × List Char)} (h : Spaced laid)
    (hquery : ∀ t ∈ laid.map (·.1), t.InQuery)
    (hvalid : ∀ name, .name name ∈ laid.map (·.1) → isIdentifier name = true) :
    SplitsInto (written laid) (laid.map (·.1)) := by
  fun_induction Spaced laid with
  | case1 => exact .nil
  | case2 t behind =>
    have htoken : SplitsInto (t.text ++ behind) [t] := h.token (hquery t List.mem_cons_self)
      fun name hname => ⟨hvalid name (by simp [hname]), h.stopsAt⟩
    simpa [written] using htoken
  | case3 t gap u behind rest ih =>
    obtain ⟨hgap, hapart, hrest⟩ := h
    rw [List.map_cons, List.forall_mem_cons] at hquery
    have hsplit := ih hrest hquery.2 fun name hname => hvalid name (List.mem_cons_of_mem _ hname)
    have htoken : SplitsInto (t.text ++ (gap ++ written ((u, behind) :: rest)))
        (t :: ((u, behind) :: rest).map (·.1)) := by
      refine (hgap.splitsInto hsplit).token hquery.1 fun name hname => ⟨hvalid name (by simp [hname]), ?_⟩
      by_cases hempty : gap = []
      · -- Without a gap a brace comes next.
        cases u with
        | name next => exact absurd hempty (hapart name next hname rfl)
        | openBrace | closeBrace => simp [hempty, written, Token.text, isWordChar]
        | colon | bang | stray => exact (hquery.2 _ List.mem_cons_self).elim
      · exact hgap.stopsAt hempty _
    simpa [written] using htoken

namespace Document

/-- A document that can be written down: no set is empty, and all names are valid. -/
structure Printable (d : Document) : Prop where
  nonempty : d.selections ≠ []
  filled : Selection.Filled d.selections
  operation : ∀ name ∈ d.operation, isIdentifier name = true
  names : Selection.AllNames (isIdentifier · = true) d.selections

theorem Printable.isIdentifier_of_mem {d : Document} (h : d.Printable) {keyword : Bool} {name : String}
    (hmem : .name name ∈ d.tokens keyword) : isIdentifier name = true := by
  rcases mem_tokens.mp hmem with hmem | hbrace | hmem | hbrace
  · rcases of_mem_words hmem with hname | ⟨operation, hoperation, hname⟩
    · rw [Token.name.inj hname]
      decide
    · exact Token.name.inj hname ▸ h.operation operation hoperation
  · cases hbrace
  · exact h.names.of_mem_tokens hmem
  · cases hbrace

/-- A text is read as a document just when it splits into words and braces that derive the document;
both the tokens and the document are the only ones. Hence a document that can be written down comes back
from every layout of its tokens. -/
theorem parse_exactly_grammar :
    (∀ text d, parse text = .ok d ↔ ∃ ts, SplitsInto text ts ∧ IsDocument ts d) ∧
    (∀ text ts ts', SplitsInto text ts → SplitsInto text ts' → ts = ts') ∧
    (∀ ts d d', IsDocument ts d → IsDocument ts d' → d = d') ∧
    ∀ d : Document, d.Printable → ∀ keyword lead laid, Gap lead → Spaced laid →
      laid.map (·.1) = d.tokens keyword → parse (lead ++ written laid) = .ok d := by
  have hiff : ∀ text d, parse text = .ok d ↔ ∃ ts, SplitsInto text ts ∧ IsDocument ts d := by
    intro text d
    constructor
    · intro h
      have hd := isDocument_of_parse h
      obtain ⟨-, -, keyword, htokens⟩ := isDocument_iff.mp hd
      exact ⟨_, splitsInto_tokens fun t ht => inQuery_of_mem_tokens (htokens ▸ ht), hd⟩
    · rintro ⟨ts, hsplit, hd⟩
      exact parse_of_isDocument (hsplit.tokens_eq ▸ hd)
  refine ⟨hiff, fun text ts ts' h h' => h.tokens_eq.symm.trans h'.tokens_eq, ?_, ?_⟩
  · intro ts d d' h h'
    have hls : (ts.map fun t => (⟨t, []⟩ : Lexeme)).map (·.token) = ts := by simp [Function.comp_def]
    have hread : ofLexemes [] (ts.map fun t => ⟨t, []⟩) = .ok d := ofLexemes_of_isDocument (hls.symm ▸ h)
    have hread' : ofLexemes [] (ts.map fun t => ⟨t, []⟩) = .ok d' := ofLexemes_of_isDocument (hls.symm ▸ h')
    exact Except.ok.inj (hread.symm.trans hread')
  · intro d hd keyword lead laid hlead hlaid htokens
    have hsplit := hlaid.splitsInto (htokens ▸ fun t ht => inQuery_of_mem_tokens ht)
      (htokens ▸ fun name hmem => hd.isIdentifier_of_mem hmem)
    exact (hiff _ _).mpr ⟨_, hlead.splitsInto hsplit,
      isDocument_iff.mpr ⟨hd.nonempty, hd.filled, keyword, htokens⟩⟩

/-- The document `query Routes { a { b c } }`. -/
def listing : Document := ⟨some "Routes", [.branch "a" [.leaf "b", .leaf "c"]]⟩

/-- Its tokens with little between them, and a comment at the end. -/
def listingLayout : List (Token × List Char) :=
  [(.name "query", ['\t']), (.name "Routes", []), (.openBrace, []), (.name "a", []), (.openBrace, []),
    (.name "b", [',']), (.name "c", ['#', 'c', '\r', '\n']), (.closeBrace, []),
    (.closeBrace, [' ', '#', 'e', 'n', 'd'])]

theorem listing_read_from_layout :
    listing.Printable ∧ Gap ['\n'] ∧ Spaced listingLayout ∧
    parse "\nquery\tRoutes\x7ba\x7bb,c#c\r\n\x7d\x7d #end".toList = .ok listing ∧
    ∃ ts, SplitsInto "\nquery\tRoutes\x7ba\x7bb,c#c\r\n\x7d\x7d #end".toList ts ∧
      IsDocument ts listing := by
  obtain ⟨hiff, -, -, hlayouts⟩ := parse_exactly_grammar
  have hprintable : listing.Printable := by
    refine ⟨by simp [listing], by simp [listing, Selection.Filled], ?_, ?_⟩
    · simp [listing, isIdentifier, isWordStart, isWordChar]
    · simp [listing, Selection.AllNames, isIdentifier, isWordStart]
  have hseparator : ∀ c ∈ separators, Gap [c] := fun c hc => .separator hc .nil
  have hcomment : Gap ('#' :: (['c'] ++ ['\r', '\n'])) :=
    .comment (by simp) (.inr (.inr (List.prefix_refl _))) (List.cons_ne_nil _ _)
      (.separator (by simp [separators]) (hseparator _ (by simp [separators])))
  have hopen : SplitsInto ('#' :: (['e', 'n', 'd'] ++ [])) [] := .comment (by simp) (.inl rfl) .nil
  have hend : SplitsInto [' ', '#', 'e', 'n', 'd'] [] := .separator (by simp [separators]) hopen
  have hlead : Gap ['\n'] := hseparator _ (by simp [separators])
  have hspaced : Spaced listingLayout := by
    simp only [listingLayout, Spaced]
    refine ⟨hseparator _ (by simp [separators]), by simp, .nil, by simp, .nil, by simp, .nil, by simp, .nil,
      by simp, hseparator _ (by simp [separators]), by simp, hcomment, by simp, .nil, by simp, hend⟩
  have htokens : listingLayout.map (·.1) = listing.tokens true := by
    simp [listingLayout, listing, tokens, words, Selection.tokens]
  have hparse := hlayouts listing hprintable true ['\n'] listingLayout hlead hspaced htokens
  exact ⟨hprintable, hlead, hspaced, hparse, (hiff _ _).mp hparse⟩

end Document
end RouteQuery
