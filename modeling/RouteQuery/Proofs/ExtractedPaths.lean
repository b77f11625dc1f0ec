import RouteQuery.Proofs.DocumentReading
import RouteQuery.Proofs.QueryPrinting

/-! The path identifiers of a query, next to the document that the query is read as. They are searched
for in all words of the text, so the names of operations, verbs and tasks can bring in others than the
paths of the document. -/
namespace RouteQuery
open QueryText

namespace Selection

/-- All names, each before those below it. -/
def names : List Selection → List String
  | [] => []
  | leaf n :: rest => n :: names rest
  | branch n children :: rest => n :: (names children ++ names rest)

/-- The names below the first level. -/
def namesBelow (selections : List Selection) : List String :=
  selections.flatMap fun s => names s.children

theorem names_cons (s : Selection) (rest : List Selection) :
    names (s :: rest) = s.name :: (names s.children ++ names rest) := by
  cases s <;> simp [names, name, children]

theorem filterMap_tokens (selections : List Selection) :
    (tokens selections).filterMap Token.pathIdentifier? =
      (names selections).filterMap (identifierIn? ·.toList) := by
  fun_induction tokens selections with
  | case1 => simp [names]
  | case2 n rest ih => rw [names, List.filterMap_cons, List.filterMap_cons, ih]; rfl
  | case3 n children rest ihc ih =>
    simp only [names, List.filterMap_cons, List.filterMap_append, ihc, ih]
    rfl

/-- With no identifiers below the first level those of the first level are all that there are. -/
theorem filterMap_names {find : String → Option String} {selections : List Selection}
    (hfound : ∀ s ∈ selections, find s.name = some s.name)
    (hnone : ∀ n ∈ namesBelow selections, find n = none) :
    (names selections).filterMap find = selections.map name := by
  induction selections with
  | nil => simp [names]
  | cons s rest ih =>
    rw [List.forall_mem_cons] at hfound
    rw [namesBelow, List.flatMap_cons, List.forall_mem_append] at hnone
    rw [names_cons, List.filterMap_cons_some hfound.1, List.filterMap_append,
      List.filterMap_eq_nil_iff.mpr hnone.1, ih hfound.2 hnone.2, List.nil_append, List.map_cons]

end Selection

namespace Document

/-- The names of a document as they stand in its text, without the word `query`. -/
def names (d : Document) : List String := d.operation.toList ++ Selection.names d.selections

theorem filterMap_tokens_of_parse {text : List Char} {d : Document} (h : parse text = .ok d) :
    .stray ∉ tokens text ∧ (tokens text).filterMap Token.pathIdentifier? =
      d.names.filterMap (identifierIn? ·.toList) := by
  obtain ⟨head, set, htokens, ⟨rfl, -⟩, hhead⟩ := spells_of_parse h
  have hset : (Token.openBrace :: (Selection.tokens d.selections ++ [.closeBrace])).filterMap
      Token.pathIdentifier? =
        (Selection.names d.selections).filterMap (identifierIn? ·.toList) := by
    rw [List.filterMap_cons_none rfl, List.filterMap_append, Selection.filterMap_tokens]
    exact List.append_nil _
  have hplain := Selection.stray_not_mem_tokens d.selections
  rw [htokens, names]
  rcases hhead with ⟨rfl, hnone⟩ | rfl
  · rw [hnone, List.nil_append, hset]
    exact ⟨by simp [hplain], rfl⟩
  · have hquery : Token.pathIdentifier? (.name "query") = none := by decide
    rw [List.filterMap_append, List.filterMap_append, hset, List.filterMap_cons_none hquery,
      List.filterMap_map]
    exact ⟨by simp [hplain], rfl⟩

end Document

namespace Escape

/-- A name that begins with the token of a reserved character. -/
def OpensWithToken (name : String) : Prop := ∃ entry ∈ table, entry.2.toList <+: name.toList

instance : DecidablePred OpensWithToken := fun _ => inferInstanceAs (Decidable (∃ entry ∈ table, _))

theorem identifierIn?_of_opensWithToken {name : String} (h : OpensWithToken name) :
    identifierIn? name.toList = some name := by
  obtain ⟨entry, hmem, rest, hname⟩ := h
  have htokens : ∀ entry ∈ table, isPathIdentifier entry.2 = true := by decide
  obtain ⟨cs, htoken, hopen, -⟩ := isPathIdentifier_iff.mp (htokens entry hmem)
  have hopens : opensIdentifier (cs ++ rest) = true := by
    match cs, hopen with
    | d :: e :: cs, hopen => exact hopen
  rw [← hname, htoken, List.cons_append, identifierIn?, if_pos ⟨rfl, hopens⟩, ← List.cons_append,
    ← htoken, hname, String.ofList_toList]

end Escape

namespace QueryText
open Escape

variable {raw text : List Char} {d : Document}

/-- The search finds what is in the names of the document, operation, verbs and tasks included. -/
theorem pathIdentifiers_of_parse (hnormal : normalize raw = .ok text)
    (hparse : Document.parse text = .ok d) :
    pathIdentifiers text = d.names.filterMap (identifierIn? ·.toList) := by
  obtain ⟨hstray, hfound⟩ := Document.filterMap_tokens_of_parse hparse
  rw [pathIdentifiers_eq_of_tokens (hash_not_mem_of_normalize hnormal) hstray, hfound]

theorem openBrace_mem_of_parse (hparse : Document.parse text = .ok d) : '{' ∈ text := by
  obtain ⟨head, set, htokens, ⟨rfl, -⟩, -⟩ := Document.spells_of_parse hparse
  exact openBrace_mem_of_mem_tokens (by rw [htokens]; simp)

/-- What is extracted from a query that can be read: the identifiers in its names, each once, in the
order of the text. They are the names on the first level if these begin with tokens and no other name
has one in it. That there are none is an error, and it arises just when no name at all has one in it. -/
theorem extractPaths_of_parse (hnormal : normalize raw = .ok text)
    (hparse : Document.parse text = .ok d) :
    (extractPaths text =
      match d.names.filterMap (identifierIn? ·.toList) with
      | [] => .error .noPaths
      | found => .ok found.eraseDups) ∧
    ((∀ s ∈ d.selections, OpensWithToken s.name) →
      (∀ n ∈ d.operation.toList ++ Selection.namesBelow d.selections,
        identifierIn? n.toList = none) →
      extractPaths text = .ok (d.selections.map Selection.name).eraseDups) ∧
    (extractPaths text = .error .noPaths ↔ ∀ n ∈ d.names, identifierIn? n.toList = none) := by
  have hextract := extractPaths_eq (openBrace_mem_of_parse hparse)
  rw [pathIdentifiers_of_parse hnormal hparse] at hextract
  refine ⟨hextract, ?_, ?_⟩
  · intro hopens hnone
    rw [List.forall_mem_append] at hnone
    have hfound : d.names.filterMap (identifierIn? ·.toList) = d.selections.map Selection.name := by
      rw [Document.names, List.filterMap_append, List.filterMap_eq_nil_iff.mpr hnone.1,
        Selection.filterMap_names (fun s hs => identifierIn?_of_opensWithToken (hopens s hs)) hnone.2,
        List.nil_append]
    obtain ⟨s, rest, hsel⟩ := List.exists_cons_of_ne_nil (Document.filled_of_parse hparse).1
    rw [hextract, hfound, hsel, List.map_cons]
  · rw [hextract, ← List.filterMap_eq_nil_iff]
    cases d.names.filterMap (identifierIn? ·.toList) <;> simp

def listing : String :=
  "query list \x7b # none\n\x7b /a \x7b GET \x7b x \x7d \x7d /b \x7b GET \x7b y_2 \x7d \x7d" ++
    " /a \x7b POST \x7b x \x7d \x7d \x7d @param id: y_2"

def listed : List Selection :=
  [.branch "_slash_a" [.branch "GET" [.leaf "x"]], .branch "_slash_b" [.branch "GET" [.leaf "y_2"]],
    .branch "_slash_a" [.branch "POST" [.leaf "x"]]]

theorem extractPaths_listing : ∃ text, normalize listing.toList = .ok text ∧
    Document.parse text = .ok ⟨none, listed⟩ ∧ extractPaths text = .ok ["_slash_a", "_slash_b"] := by
  have hnormal : normalize listing.toList =
      .ok (Escape.encodeChars (stripDescriptors (stripComments listing.toList))) := by
    rw [normalize, validate_of_openBrace (by decide +kernel)]
    rfl
  have htokens : tokens (Escape.encodeChars (stripDescriptors (stripComments listing.toList))) =
      .openBrace :: (Selection.tokens listed ++ [.closeBrace]) := by
    simp only [listed, Selection.tokens]
    decide +kernel
  have hparse := Document.parse_of_tokens (by simp [listed]) (by simp [listed, Selection.Filled])
    htokens
  have hothers : Selection.namesBelow listed = ["GET", "x", "GET", "y_2", "POST", "x"] := by
    simp [listed, Selection.namesBelow, Selection.names, Selection.children]
  exact ⟨_, hnormal, hparse, (extractPaths_of_parse hnormal hparse).2.1 (by decide)
    (by rw [hothers]; decide)⟩

/-- The words of tasks are searched as well: a path that does not exist is extracted next to the one
that does, and one is extracted where there is none. -/
theorem extractPaths_of_task :
    (normalize "\x7b /echo \x7b POST \x7b echo_body \x7d \x7d \x7d".toList =
      .ok "\x7b _slash_echo \x7b POST \x7b echo_body \x7d \x7d \x7d".toList ∧
    Document.parse "\x7b _slash_echo \x7b POST \x7b echo_body \x7d \x7d \x7d".toList =
      .ok ⟨none, [.branch "_slash_echo" [.branch "POST" [.leaf "echo_body"]]]⟩ ∧
    extractPaths "\x7b _slash_echo \x7b POST \x7b echo_body \x7d \x7d \x7d".toList =
      .ok ["_slash_echo", "_body"]) ∧
    normalize "\x7b GET \x7b echo_body \x7d \x7d".toList =
      .ok "\x7b GET \x7b echo_body \x7d \x7d".toList ∧
    Document.parse "\x7b GET \x7b echo_body \x7d \x7d".toList =
      .ok ⟨none, [.branch "GET" [.leaf "echo_body"]]⟩ ∧
    extractPaths "\x7b GET \x7b echo_body \x7d \x7d".toList = .ok ["_body"] := by
  refine ⟨⟨by decide +kernel, ?_, by decide +kernel⟩, by decide +kernel, ?_, by decide +kernel⟩
  all_goals
    refine Document.parse_of_tokens (by simp) (by simp [Selection.Filled]) ?_
    simp only [Selection.tokens]
    decide +kernel

end QueryText
end RouteQuery
