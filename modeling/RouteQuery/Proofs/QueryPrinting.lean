import RouteQuery.Proofs.DocumentPrinting
import RouteQuery.Proofs.Escaping
import RouteQuery.Proofs.FirstOccurrence
import RouteQuery.Proofs.Lines
import RouteQuery.Site

/-! Queries written out, and what becomes of their texts on the way to the parser. -/
namespace RouteQuery
open Text

namespace Descriptor

theorem annotated_of_not_mem {query : List Char} (h : '@' ∉ query) :
    (lines query).filter (·.contains '@') = [] := by
  refine List.filter_eq_nil_iff.mpr fun line hline => ?_
  rw [List.contains_iff_mem]
  exact fun hat => h (mem_of_mem_lines hline '@' hat)

theorem parseAll_of_not_mem {query : List Char} (h : '@' ∉ query) : parseAll query = .ok [] := by
  rw [parseAll, annotated_of_not_mem h]
  rfl

theorem parseAll_of_line {line rest : List Char} {d : Descriptor} (hline : '\n' ∉ line)
    (hparse : parseLine ('@' :: line) = .ok d) (hrest : '@' ∉ rest) :
    parseAll ('@' :: line ++ '\n' :: rest) = .ok [d] := by
  have hfirst : '\n' ∉ '@' :: line := by simpa using hline
  rw [parseAll, lines_of_line hfirst, List.filter_cons_of_pos (by simp), annotated_of_not_mem hrest,
    List.mapM_cons, List.dropWhile_cons_of_neg (by simp), hparse]
  rfl

end Descriptor

namespace QueryText

theorem stripComments_of_not_mem {query : List Char} (h : '#' ∉ query) :
    stripComments query = query := by
  have hsame : ∀ line ∈ lines query, (if line.contains '#' then [] else line) = line := by
    intro line hline
    rw [if_neg]
    rw [List.contains_iff_mem]
    exact fun hhash => h (mem_of_mem_lines hline '#' hhash)
  rw [stripComments, List.map_congr_left hsame, List.map_id', unlines_lines]

theorem stripDescriptors_of_not_mem {query : List Char} (h : '@' ∉ query) :
    stripDescriptors query = query := by
  have hsame : ∀ line ∈ lines query, line.takeWhile (· ≠ '@') = line := by
    intro line hline
    refine List.takeWhile_eq_self_iff.mpr fun c hc => ?_
    have hne : c ≠ '@' := fun heq => h (heq ▸ mem_of_mem_lines hline c hc)
    simpa using hne
  rw [stripDescriptors, List.map_congr_left hsame, List.map_id', unlines_lines]

theorem stripDescriptors_of_line {line rest : List Char} (hline : '\n' ∉ line)
    (hrest : '@' ∉ rest) : stripDescriptors ('@' :: line ++ '\n' :: rest) = '\n' :: rest := by
  have hfirst : '\n' ∉ '@' :: line := by simpa using hline
  have hsame := stripDescriptors_of_not_mem hrest
  rw [stripDescriptors] at hsame
  have hne : (lines rest).map (·.takeWhile (· ≠ '@')) ≠ [] := by
    simpa [lines] using splitAt_ne_nil (· == '\n') rest
  rw [stripDescriptors, lines_of_line hfirst, List.map_cons, List.takeWhile_cons_of_neg (by simp),
    unlines, List.intercalate_cons_of_ne_nil hne, ← unlines, hsame]
  rfl

theorem hash_not_mem_stripComments (query : List Char) : '#' ∉ stripComments query := by
  intro h
  rcases of_mem_unlines h with hfeed | ⟨kept, hkept, hmem⟩
  · exact absurd hfeed (by decide)
  · obtain ⟨line, -, rfl⟩ := List.mem_map.mp hkept
    split at hmem
    · cases hmem
    · next hnone => exact hnone (List.contains_iff_mem.mpr hmem)

theorem mem_of_mem_stripDescriptors {query : List Char} {c : Char} (hc : c ≠ '\n')
    (h : c ∈ stripDescriptors query) : c ∈ query := by
  rcases of_mem_unlines h with hfeed | ⟨kept, hkept, hmem⟩
  · exact absurd hfeed hc
  · obtain ⟨line, hline, rfl⟩ := List.mem_map.mp hkept
    exact mem_of_mem_lines hline c (List.takeWhile_subset _ hmem)

/-- Normalized texts have no comments. -/
theorem hash_not_mem_of_normalize {raw text : List Char} (h : normalize raw = .ok text) :
    '#' ∉ text := by
  unfold normalize at h
  obtain ⟨-, -, htext⟩ := exists_of_bind_eq_ok h
  obtain rfl := Except.ok.inj htext
  exact Escape.hash_not_mem_encodeChars fun hmem =>
    hash_not_mem_stripComments raw (mem_of_mem_stripDescriptors (by decide) hmem)

theorem validate_of_openBrace {query : List Char} (h : '{' ∈ query) : validate query = .ok () := by
  have hblank : query.all isBlank ≠ true := by
    rw [ne_eq, List.all_eq_true]
    exact fun hall => absurd (hall _ h) (by decide)
  rw [validate, if_neg hblank]

theorem extractPaths_eq {query : List Char} (h : '{' ∈ query) :
    extractPaths query = match pathIdentifiers query with
      | [] => .error .noPaths
      | paths => .ok paths.eraseDups := by
  rw [extractPaths, validate_of_openBrace h, distinct_eq_eraseDups]
  cases pathIdentifiers query with
  | nil => rfl
  | cons path paths =>
    simp only [List.eraseDups_cons]
    rfl

end QueryText

namespace PreparedQuery

/-- The descriptors of a text are read, and what is left of it without them is escaped. -/
theorem load_of_stripped {w : Workspace} {source : String} {text : List Char}
    {descriptors : List Descriptor} (hsource : '{' ∈ source.toList)
    (hparse : Descriptor.parseAll source.toList = .ok descriptors)
    (hstrip : QueryText.stripDescriptors (QueryText.stripComments source.toList) = text)
    (htext : '{' ∈ text) :
    load w source = match QueryText.pathIdentifiers (Escape.encodeChars text) with
      | [] => .error .noPaths
      | paths => .ok ⟨descriptors, Escape.encodeChars text, paths.eraseDups⟩ := by
  have hescaped : '{' ∈ Escape.encodeChars text := List.mem_flatMap.mpr ⟨'{', htext, by decide⟩
  have hload : w.loadQuery source = .ok source.toList := by
    rw [Workspace.loadQuery, String.contains_char_eq, if_pos (by simpa using hsource)]
  have hnormal : QueryText.normalize source.toList = .ok (Escape.encodeChars text) := by
    rw [QueryText.normalize, QueryText.validate_of_openBrace hsource, hstrip]
    rfl
  rw [load, hload]
  change ofText source.toList = _
  rw [ofText, hparse, hnormal]
  change (do return (⟨descriptors, _, ← QueryText.extractPaths _⟩ : PreparedQuery)) = _
  rw [QueryText.extractPaths_eq hescaped]
  cases QueryText.pathIdentifiers (Escape.encodeChars text) <;> rfl

/-- A text with a brace and without annotations is only escaped. -/
theorem load_of_plain {w : Workspace} {source : String} (hbrace : '{' ∈ source.toList)
    (hat : '@' ∉ source.toList) (hhash : '#' ∉ source.toList) :
    load w source = match QueryText.pathIdentifiers (Escape.encodeChars source.toList) with
      | [] => .error .noPaths
      | paths => .ok ⟨[], Escape.encodeChars source.toList, paths.eraseDups⟩ := by
  have hstrip : QueryText.stripDescriptors (QueryText.stripComments source.toList) =
      source.toList := by
    rw [QueryText.stripComments_of_not_mem hhash, QueryText.stripDescriptors_of_not_mem hat]
  exact load_of_stripped hbrace (Descriptor.parseAll_of_not_mem hat) hstrip hbrace

/-- An annotation in front of such a text becomes an empty line. -/
theorem load_of_annotated {w : Workspace} {source : String} {line rest : List Char} {d : Descriptor}
    (hsource : source.toList = '@' :: line ++ '\n' :: rest) (hline : '\n' ∉ line)
    (hparse : Descriptor.parseLine ('@' :: line) = .ok d) (hbrace : '{' ∈ rest) (hat : '@' ∉ rest)
    (hhash : '#' ∉ line ++ rest) :
    load w source = match QueryText.pathIdentifiers (Escape.encodeChars rest) with
      | [] => .error .noPaths
      | paths => .ok ⟨[d], '\n' :: Escape.encodeChars rest, paths.eraseDups⟩ := by
  have hplain : '#' ∉ source.toList := by
    rw [hsource]
    simpa using hhash
  have hstrip : QueryText.stripDescriptors (QueryText.stripComments source.toList) =
      '\n' :: rest := by
    rw [QueryText.stripComments_of_not_mem hplain, hsource,
      QueryText.stripDescriptors_of_line hline hat]
  have hdescriptors := Descriptor.parseAll_of_line hline hparse hat
  rw [← hsource] at hdescriptors
  have hescaped : Escape.encodeChars ('\n' :: rest) = '\n' :: Escape.encodeChars rest := rfl
  rw [load_of_stripped (by simp [hsource, hbrace]) hdescriptors hstrip
    (List.mem_cons_of_mem _ hbrace), hescaped, QueryText.pathIdentifiers_cons_of_ne (by simp)]

end PreparedQuery

namespace Selection

/-- Selections as a query spells them. -/
def text : List Selection → String
  | [] => ""
  | leaf n :: rest => n ++ " " ++ text rest
  | branch n children :: rest => n ++ " \x7b " ++ text children ++ "\x7d " ++ text rest

def AllNames (P : String → Prop) : List Selection → Prop
  | [] => True
  | leaf n :: rest => P n ∧ AllNames P rest
  | branch n children :: rest => P n ∧ AllNames P children ∧ AllNames P rest

theorem AllNames.of_mem_tokens {P : String → Prop} {selections : List Selection}
    {name : String} (h : AllNames P selections) (hmem : .name name ∈ tokens selections) : P name := by
  fun_induction tokens selections with
  | case1 => cases hmem
  | case2 n rest ih =>
    rw [AllNames] at h
    rcases List.mem_cons.mp hmem with hname | hmem
    · exact Token.name.inj hname ▸ h.1
    · exact ih h.2 hmem
  | case3 n children rest ihc ih =>
    rw [AllNames] at h
    simp only [List.mem_cons, List.mem_append, Token.name.injEq, reduceCtorEq, false_or] at hmem
    rcases hmem with rfl | hmem | hmem
    · exact h.1
    · exact ihc h.2.1 hmem
    · exact ih h.2.2 hmem

theorem tokens_text {selections : List Selection}
    (h : AllNames (isIdentifier · = true) selections) (rest : List Char) :
    RouteQuery.tokens ((text selections).toList ++ rest) =
      tokens selections ++ RouteQuery.tokens rest := by
  fun_induction text selections generalizing rest with
  | case1 => simp [tokens]
  | case2 n selections ih =>
    rw [AllNames] at h
    have hstop : StopsAt isWordChar (' ' :: ((text selections).toList ++ rest)) := by
      simp [isWordChar]
    simp only [String.toList_append, List.append_assoc]
    change RouteQuery.tokens (n.toList ++ ' ' :: ((text selections).toList ++ rest)) = _
    rw [tokens_name h.1 hstop, tokens_space, ih h.2, tokens, List.cons_append]
  | case3 n children selections ihc ih =>
    rw [AllNames] at h
    have hstop : StopsAt isWordChar (' ' :: '{' :: ' ' :: ((text children).toList ++
        '}' :: ' ' :: ((text selections).toList ++ rest))) := by
      simp [isWordChar]
    simp only [String.toList_append, List.append_assoc]
    change RouteQuery.tokens (n.toList ++ ' ' :: '{' :: ' ' :: ((text children).toList ++
      '}' :: ' ' :: ((text selections).toList ++ rest))) = _
    rw [tokens_name h.1 hstop, tokens_space, tokens_openBrace, tokens_space, ihc h.2.1,
      tokens_closeBrace, tokens_space, ih h.2.2, tokens]
    simp only [List.cons_append, List.append_assoc]

end Selection
end RouteQuery
