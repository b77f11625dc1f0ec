import RouteQuery.Proofs.DescriptorDelimiters
import RouteQuery.Proofs.Finding
import RouteQuery.Proofs.Lines
import RouteQuery.Proofs.PathExtraction

/-! The regular expressions by which a query is read: what the functions on queries and descriptors compute
is what the expressions match. -/
namespace RouteQuery
open Pattern Text

namespace QueryText

/-! ### Expressions -/

/-- The rest of a line, `.*`. -/
def restOfLine : Node := .iterate (.one (.negated (.single '\n'))) 0 none true

def letter : CharClass := .union (.union .nothing (.table [(65, 90)])) (.table [(97, 122)])

def wordCharacter : CharClass := .union (.union letter (.table [(48, 57)])) (.single '_')

/-- A run of word characters, `[A-Za-z0-9_]+`. -/
def wordRun : Node := .iterate (.one wordCharacter) 1 none true

def delimiter : CharClass := .union (.union .nothing (.single ':')) (.single ';')

def descriptorLine : Node := .seq (.one (.single '@')) restOfLine

def commentLine : Node :=
  .seq (.seq (.seq (.seq (.look .startLine) restOfLine) (.one (.single '#'))) restOfLine) (.look .endLine)

def pathIdentifier : Node := .seq (.seq (.one (.single '_')) (.one letter)) wordRun

def descriptorName : Node := .seq (.seq (.look .startText) (.one (.single '@'))) (.group 1 wordRun)

def descriptorValue : Node := .seq (.group 1 wordRun) (.one delimiter)

def descriptorArgs : Node := .seq (.one delimiter) (.group 1 restOfLine)

theorem parse?_descriptorLine : parse? "@.*".toList = some ⟨descriptorLine, []⟩ := rfl

theorem parse?_commentLine : parse? "(?m)^.*#.*$".toList = some ⟨commentLine, []⟩ := rfl

theorem parse?_pathIdentifier : parse? "_[A-Za-z][A-Za-z0-9_]+".toList = some ⟨pathIdentifier, []⟩ := rfl

theorem parse?_descriptorName : parse? "^@([A-Za-z0-9_]+)".toList = some ⟨descriptorName, []⟩ := rfl

theorem parse?_descriptorValue : parse? "([A-Za-z0-9_]+)[:;]".toList = some ⟨descriptorValue, []⟩ := rfl

theorem parse?_descriptorArgs : parse? "[:;](.*)".toList = some ⟨descriptorArgs, []⟩ := rfl

theorem contains_union (a b : CharClass) (c : Char) :
    (CharClass.union a b).contains c = (a.contains c || b.contains c) := rfl

theorem contains_single (c d : Char) : (CharClass.single d).contains c = (c == d) := by
  rw [Bool.eq_iff_iff, PathTemplate.contains_single, beq_iff_eq]

theorem contains_letter : letter.contains = Char.isAlpha := by
  funext c
  have hupper : (CharClass.table [(65, 90)]).contains c = c.isUpper := by
    change _ = decide (65 ≤ c.val ∧ c.val ≤ 90)
    rw [Bool.decide_and]
    exact Bool.or_false _
  have hlower : (CharClass.table [(97, 122)]).contains c = c.isLower := Bool.or_false _
  rw [letter, contains_union, contains_union, hupper, hlower]
  rfl

theorem contains_wordCharacter : wordCharacter.contains = isWordChar := by
  funext c
  have hdigit : (CharClass.table [(48, 57)]).contains c = c.isDigit := Bool.or_false _
  rw [wordCharacter, contains_union, contains_union, contains_letter, hdigit, contains_single]
  rfl

theorem contains_delimiter : delimiter.contains = Descriptor.isDelimiter := by
  funext c
  rw [delimiter, contains_union, contains_union, contains_single, contains_single]
  rfl

theorem contains_notFeed : (CharClass.negated (.single '\n')).contains = fun c => decide (c ≠ '\n') := by
  funext c
  rw [Bool.eq_iff_iff, PathTemplate.contains_negated_single, decide_eq_true_eq]

variable {before : Option Char} {cs : List Char} {captured : List (Nat × List Char)}

theorem ends_single (c d : Char) :
    ends (.one (.single d)) ⟨before, c :: cs, captured⟩ = if c = d then [⟨some c, cs, captured⟩] else [] := by
  rw [ends_one_cons]
  simp only [PathTemplate.contains_single]

/-- What stands before a line feed or the end of a text. -/
abbrev AtLineEnd (tail : List Char) : Prop := StopsAt (fun c => decide (c ≠ '\n')) tail

variable {line tail : List Char}

theorem exists_head?_restOfLine (before : Option Char) (captured : List (Nat × List Char))
    (hline : '\n' ∉ line) (htail : AtLineEnd tail) :
    ∃ b, (ends restOfLine ⟨before, line ++ tail, captured⟩).head? = some ⟨b, tail, captured⟩ := by
  have hall : ∀ c ∈ line, decide (c ≠ '\n') = true := fun c hc => by simpa using ne_of_mem_of_not_mem hc hline
  rw [restOfLine, head?_ends_any, contains_notFeed, dropWhile_append_stop htail, List.dropWhile_eq_nil_iff.mpr hall]
  exact ⟨_, rfl⟩

/-! ### Texts line by line -/

/-- An expression whose matches keep to their lines is looked for in each line on its own: `f` are the matches
of a line and `g` is what is kept of it. -/
theorem cuts_lines {node : Node} {f : List Char → List (List Char)} {g : List Char → List Char}
    (hend : ∀ b, (ends node ⟨b, [], []⟩).head? = none)
    (hfeed : ∀ b cs, (ends node ⟨b, '\n' :: cs, []⟩).head? = none)
    (hlines : ∀ line tail found kept before, '\n' ∉ line → AtLineEnd tail → (before = none ∨ before = some '\n') →
      (∀ b, node.Cuts b tail found kept) → node.Cuts before (line ++ tail) (f line ++ found) (g line ++ kept))
    (text : List Char) : node.Cuts none text ((lines text).flatMap f) (unlines ((lines text).map g)) := by
  obtain ⟨hne, hfeeds, htext⟩ := isLines_lines text
  generalize lines text = ls at hne hfeeds htext
  subst htext
  have hall : ∀ before, before = none ∨ before = some '\n' →
      node.Cuts before (unlines ls) (ls.flatMap f) (unlines (ls.map g)) := by
    induction ls with
    | nil => exact absurd rfl hne
    | cons line ls ih =>
      obtain ⟨hline, hls⟩ := List.forall_mem_cons.mp hfeeds
      intro before hbefore
      by_cases hlast : ls = []
      · subst hlast
        have hcuts := hlines line [] [] [] before hline (stopsAt_nil _) hbefore fun b => .nil (hend b)
        simpa using hcuts
      · rw [List.flatMap_cons, List.map_cons, unlines_cons line hlast,
          unlines_cons (g line) (by simpa using hlast)]
        exact hlines line _ _ _ before hline (by simp) hbefore fun b =>
          .skip (hfeed b _) (ih hlast hls _ (.inr rfl))
  exact hall none (.inl rfl)

/-! ### Annotations -/

theorem head?_descriptorLine_of_ne (before : Option Char) {c : Char} (h : c ≠ '@') :
    (ends descriptorLine ⟨before, c :: cs, captured⟩).head? = none :=
  head?_ends_seq_of_none (by rw [ends_single, if_neg h]; rfl) _

theorem exists_head?_descriptorLine (before : Option Char) (hline : '\n' ∉ line) (htail : AtLineEnd tail) :
    ∃ b, (ends descriptorLine ⟨before, '@' :: (line ++ tail), []⟩).head? = some ⟨b, tail, []⟩ := by
  obtain ⟨b, hrest⟩ := exists_head?_restOfLine (some '@') [] hline htail
  exact ⟨b, head?_ends_seq_of_some (by rw [ends_single, if_pos rfl]; rfl) hrest⟩

/-- On a line the descriptor starts at the first `@`. -/
theorem cuts_descriptorLine_line {found : List (List Char)} {kept : List Char} (before : Option Char)
    (hline : '\n' ∉ line) (htail : AtLineEnd tail) (h : ∀ b, descriptorLine.Cuts b tail found kept) :
    descriptorLine.Cuts before (line ++ tail)
      ((if line.contains '@' then [line.dropWhile (· ≠ '@')] else []) ++ found)
      (line.takeWhile (· ≠ '@') ++ kept) := by
  induction line generalizing before with
  | nil => exact h before
  | cons c line ih =>
    have hrest : '\n' ∉ line := fun h => hline (List.mem_cons_of_mem c h)
    by_cases hc : c = '@'
    · subst hc
      obtain ⟨b, hhead⟩ := exists_head?_descriptorLine before hrest htail
      simpa using Node.Cuts.take (x := '@' :: line) (q := ⟨b, tail, []⟩) hhead (List.cons_ne_nil _ _) (h b)
    · simpa [hc, Ne.symm hc] using Node.Cuts.skip (head?_descriptorLine_of_ne before hc) (ih (some c) hrest)

theorem flatMap_ite {α β : Type} (p : α → Bool) (f : α → β) (xs : List α) :
    (xs.flatMap fun x => if p x then [f x] else []) = (xs.filter p).map f := by
  induction xs with
  | nil => rfl
  | cons x xs ih =>
    rw [List.flatMap_cons, ih]
    cases hx : p x <;> simp [hx]

/-- The descriptors of a query, each from its `@` to the end of its line, and what is left without them. -/
theorem findsAll_descriptorLine (query : List Char) :
    FindsAll "@.*" query (((lines query).filter (·.contains '@')).map (·.dropWhile (· ≠ '@')))
      (stripDescriptors query) := by
  have hcuts := cuts_lines (fun _ => rfl) (fun b _ => head?_descriptorLine_of_ne b (by decide))
    (fun _ _ _ _ before hline htail _ h => cuts_descriptorLine_line before hline htail h) query
  rw [flatMap_ite] at hcuts
  exact ⟨_, parse?_descriptorLine, hcuts⟩

theorem stripDescriptors_of_findsAll {query kept : List Char} {found : List (List Char)}
    (h : FindsAll "@.*" query found kept) : stripDescriptors query = kept :=
  ((findsAll_descriptorLine query).unique h).2

theorem parseAll_of_findsAll {query kept : List Char} {found : List (List Char)}
    (h : FindsAll "@.*" query found kept) : Descriptor.parseAll query = found.mapM Descriptor.parseLine := by
  rw [← ((findsAll_descriptorLine query).unique h).1, List.mapM_map]
  rfl

/-! ### Comments -/

/-- Where the expression goes on behind a `#` on the rest of the line, the longest way first. -/
def hashIn (captured : List (Nat × List Char)) (before : Option Char) (cs : List Char) : Option Point :=
  (ends restOfLine ⟨before, cs, captured⟩).findSome? fun q => (ends (.one (.single '#')) q).head?

theorem hashIn_cons (before : Option Char) {c : Char} (hc : c ≠ '\n') :
    hashIn captured before (c :: cs) = (hashIn captured (some c) cs).or
      (if c = '#' then some ⟨some c, cs, captured⟩ else none) := by
  have hcontains : (CharClass.negated (.single '\n')).contains c = true := by simpa [contains_notFeed] using hc
  rw [hashIn, restOfLine, ends_any, findSome?_runEnds_cons, hcontains, if_pos rfl, ends_single, hashIn, restOfLine,
    ends_any]
  split <;> rfl

theorem hashIn_of_atLineEnd (before : Option Char) (h : AtLineEnd tail) : hashIn captured before tail = none := by
  cases tail with
  | nil => rfl
  | cons c cs =>
    obtain rfl : c = '\n' := by simpa using stopsAt_cons.mp h
    rfl

theorem hashIn_of_notMem (before : Option Char) (hline : '\n' ∉ line) (htail : AtLineEnd tail) (h : '#' ∉ line) :
    hashIn captured before (line ++ tail) = none := by
  induction line generalizing before with
  | nil => exact hashIn_of_atLineEnd before htail
  | cons c line ih =>
    simp only [List.mem_cons, not_or] at hline h
    rw [List.cons_append, hashIn_cons before (Ne.symm hline.1), ih _ hline.2 h.2, if_neg (Ne.symm h.1)]
    rfl

/-- The last `#` of the line is taken. -/
theorem exists_hashIn (captured : List (Nat × List Char)) (before : Option Char) (hline : '\n' ∉ line) (htail : AtLineEnd tail) (h : '#' ∈ line) :
    ∃ rest, '\n' ∉ rest ∧ hashIn captured before (line ++ tail) = some ⟨some '#', rest ++ tail, captured⟩ := by
  induction line generalizing before with
  | nil => cases h
  | cons c line ih =>
    simp only [List.mem_cons, not_or] at hline
    rw [List.cons_append, hashIn_cons before (Ne.symm hline.1)]
    by_cases hlater : '#' ∈ line
    · obtain ⟨rest, hrest, hhash⟩ := ih (some c) hline.2 hlater
      exact ⟨rest, hrest, by rw [hhash]; rfl⟩
    · obtain rfl : '#' = c := (List.mem_cons.mp h).resolve_right hlater
      exact ⟨line, hline.2, by rw [hashIn_of_notMem _ hline.2 htail hlater, if_pos rfl]; rfl⟩

/-- At the start of a line the expression goes on to its last `#`, elsewhere nowhere. -/
theorem head?_toHash (before : Option Char) (cs : List Char) :
    (ends (.seq (.seq (.look .startLine) restOfLine) (.one (.single '#'))) ⟨before, cs, captured⟩).head? =
      if before = none ∨ before = some '\n' then hashIn captured before cs else none := by
  have hlook : ends (.look .startLine) ⟨before, cs, captured⟩ =
      if before = none ∨ before = some '\n' then [⟨before, cs, captured⟩] else [] := by
    simp [ends, Assertion.holds]
  rw [head?_ends_seq, ends, hlook]
  split
  · rw [List.flatMap_singleton, hashIn, restOfLine, ends_any, firstArrivals_of_pairwise pairwise_runEnds]
  · rfl

theorem head?_commentLine_of_notMem (before : Option Char) (hline : '\n' ∉ line) (htail : AtLineEnd tail)
    (h : '#' ∉ line) : (ends commentLine ⟨before, line ++ tail, []⟩).head? = none := by
  refine head?_ends_seq_of_none (head?_ends_seq_of_none ?_ _) _
  rw [head?_toHash, hashIn_of_notMem before hline htail h, ite_self]

theorem exists_head?_commentLine (hbefore : before = none ∨ before = some '\n') (hline : '\n' ∉ line)
    (htail : AtLineEnd tail) (h : '#' ∈ line) :
    ∃ b, (ends commentLine ⟨before, line ++ tail, []⟩).head? = some ⟨b, tail, []⟩ := by
  obtain ⟨rest, hrest, hhash⟩ := exists_hashIn [] before hline htail h
  obtain ⟨b, hend⟩ := exists_head?_restOfLine (some '#') [] hrest htail
  have hlook : (ends (.look .endLine) ⟨b, tail, []⟩).head? = some ⟨b, tail, []⟩ := by
    have hholds : Assertion.holds b tail.head? .endLine = true := by
      cases tail with
      | nil => rfl
      | cons c cs =>
        obtain rfl : c = '\n' := by simpa using stopsAt_cons.mp htail
        rfl
    rw [ends, if_pos hholds, List.head?_cons]
  refine ⟨b, head?_ends_seq_of_some (head?_ends_seq_of_some ?_ hend) hlook⟩
  rw [head?_toHash, if_pos hbefore, hhash]

theorem cuts_commentLine_line {found : List (List Char)} {kept : List Char}
    (hbefore : before = none ∨ before = some '\n') (hline : '\n' ∉ line) (htail : AtLineEnd tail)
    (h : ∀ b, commentLine.Cuts b tail found kept) :
    commentLine.Cuts before (line ++ tail) ((if line.contains '#' then [line] else []) ++ found)
      ((if line.contains '#' then [] else line) ++ kept) := by
  by_cases hhash : '#' ∈ line
  · obtain ⟨b, hhead⟩ := exists_head?_commentLine hbefore hline htail hhash
    simpa [hhash] using Node.Cuts.take (q := ⟨b, tail, []⟩) hhead (List.ne_nil_of_mem hhash) (h b)
  · have hskip : ∀ before, commentLine.Cuts before (line ++ tail) found (line ++ kept) := by
      clear hbefore
      induction line with
      | nil => exact h
      | cons c line ih =>
        have hskipped := ih (fun h => hline (List.mem_cons_of_mem c h)) (fun h => hhash (List.mem_cons_of_mem c h))
        intro before
        have hnone := head?_commentLine_of_notMem before hline htail hhash
        rw [List.cons_append] at hnone
        exact .skip hnone (hskipped (some c))
    simpa [hhash] using hskip before

/-- The lines of a query with a `#`, and what is left without them. -/
theorem findsAll_commentLine (query : List Char) :
    FindsAll "(?m)^.*#.*$" query ((lines query).filter (·.contains '#')) (stripComments query) := by
  have hnone (b : Option Char) {tail : List Char} (h : AtLineEnd tail) :
      (ends commentLine ⟨b, tail, []⟩).head? = none := by
    have hempty := head?_commentLine_of_notMem b (List.not_mem_nil : '\n' ∉ []) h List.not_mem_nil
    rwa [List.nil_append] at hempty
  have hcuts := cuts_lines (fun b => hnone b (stopsAt_nil _)) (fun b _ => hnone b (by simp))
    (fun _ _ _ _ _ hline htail hbefore h => cuts_commentLine_line hbefore hline htail h) query
  rw [flatMap_ite, List.map_id'] at hcuts
  exact ⟨_, parse?_commentLine, hcuts⟩

theorem stripComments_of_findsAll {query kept : List Char} {found : List (List Char)}
    (h : FindsAll "(?m)^.*#.*$" query found kept) : stripComments query = kept :=
  ((findsAll_commentLine query).unique h).2

/-! ### Path identifiers -/

theorem head?_wordRun_cons {c : Char} (hc : isWordChar c = true) :
    (ends wordRun ⟨before, c :: cs, captured⟩).head? =
      some ⟨(cs.takeWhile isWordChar).getLast?.or (some c), cs.dropWhile isWordChar, captured⟩ := by
  rw [wordRun, ends_atLeastOne, dropLast_runEnds_cons (by rw [contains_wordCharacter, hc]), head?_runEnds,
    contains_wordCharacter]

theorem ends_wordRun_of_stopsAt (h : StopsAt isWordChar cs) : ends wordRun ⟨before, cs, captured⟩ = [] := by
  rw [wordRun, ends_atLeastOne, dropLast_runEnds_of_stopsAt (by rwa [contains_wordCharacter])]

theorem head?_pathIdentifier_of_ne (before : Option Char) {c : Char} (h : c ≠ '_') (cs : List Char) :
    (ends pathIdentifier ⟨before, c :: cs, []⟩).head? = none :=
  head?_ends_seq_of_none (head?_ends_seq_of_none (by rw [ends_single, if_neg h]; rfl) _) _

theorem head?_pathIdentifier_cons (before : Option Char) (d : Char) (cs : List Char) :
    (ends pathIdentifier ⟨before, '_' :: d :: cs, []⟩).head? =
      if d.isAlpha then (ends wordRun ⟨some d, cs, []⟩).head? else none := by
  have hletter : ends (.one letter) ⟨some '_', d :: cs, []⟩ = if d.isAlpha then [⟨some d, cs, []⟩] else [] := by
    rw [ends_one_cons, contains_letter]
  have hopens : ends (.seq (.one (.single '_')) (.one letter)) ⟨before, '_' :: d :: cs, []⟩ =
      if d.isAlpha then [⟨some d, cs, []⟩] else [] := by
    rw [ends, ends_single, if_pos rfl, List.flatMap_singleton, hletter]
    split <;> rfl
  rw [pathIdentifier, head?_ends_seq, hopens]
  split
  · exact List.findSome?_singleton ..
  · rfl

theorem exists_head?_pathIdentifier (before : Option Char) (h : opensIdentifier cs = true) :
    ∃ b, (ends pathIdentifier ⟨before, '_' :: cs, []⟩).head? = some ⟨b, cs.dropWhile isWordChar, []⟩ := by
  match cs, h with
  | d :: e :: rest, h =>
    obtain ⟨hd, he⟩ := Bool.and_eq_true_iff.mp h
    rw [head?_pathIdentifier_cons, if_pos hd, head?_wordRun_cons he,
      List.dropWhile_cons_of_pos (isWordChar_of_isAlpha hd), List.dropWhile_cons_of_pos he]
    exact ⟨_, rfl⟩

theorem head?_pathIdentifier_of_not (before : Option Char) (h : opensIdentifier cs = false) :
    (ends pathIdentifier ⟨before, '_' :: cs, []⟩).head? = none := by
  match cs, h with
  | [], _ => rfl
  | d :: rest, h =>
    rw [head?_pathIdentifier_cons]
    split
    · next hd =>
      have hstops : StopsAt isWordChar rest := by
        cases rest with
        | nil => exact stopsAt_nil _
        | cons e rest => simpa [opensIdentifier, hd] using h
      rw [ends_wordRun_of_stopsAt hstops]
      rfl
    · rfl

theorem cuts_pathIdentifier (before : Option Char) (cs : List Char) :
    ∃ kept, pathIdentifier.Cuts before cs ((pathIdentifiers cs).map String.toList) kept := by
  induction cs using search_induction generalizing before with
  | nil =>
    rw [pathIdentifiers_nil]
    exact ⟨[], .nil rfl⟩
  | underscore cs ih ihword =>
    rw [pathIdentifiers_underscore]
    cases hopens : opensIdentifier cs with
    | true =>
      obtain ⟨b, hhead⟩ := exists_head?_pathIdentifier before hopens
      obtain ⟨kept, hrest⟩ := ihword b
      have hsplit : '_' :: cs = ('_' :: cs.takeWhile isWordChar) ++ cs.dropWhile isWordChar := by simp
      rw [if_pos rfl, List.map_cons, String.toList_ofList, hsplit]
      rw [hsplit] at hhead
      exact ⟨kept, .take (q := ⟨b, cs.dropWhile isWordChar, []⟩) hhead (List.cons_ne_nil _ _) hrest⟩
    | false =>
      obtain ⟨kept, hrest⟩ := ih (some '_')
      rw [if_neg Bool.false_ne_true]
      exact ⟨'_' :: kept, .skip (head?_pathIdentifier_of_not before hopens) hrest⟩
  | other c cs hc ih =>
    obtain ⟨kept, hrest⟩ := ih (some c)
    rw [pathIdentifiers_cons_of_ne hc]
    exact ⟨c :: kept, .skip (head?_pathIdentifier_of_ne before hc cs) hrest⟩

theorem exists_findsAll_pathIdentifier (cs : List Char) :
    ∃ kept, FindsAll "_[A-Za-z][A-Za-z0-9_]+" cs ((pathIdentifiers cs).map String.toList) kept := by
  obtain ⟨kept, hcuts⟩ := cuts_pathIdentifier none cs
  exact ⟨kept, _, parse?_pathIdentifier, hcuts⟩

theorem pathIdentifiers_of_findsAll {kept : List Char} {found : List (List Char)}
    (h : FindsAll "_[A-Za-z][A-Za-z0-9_]+" cs found kept) : pathIdentifiers cs = found.map String.ofList := by
  obtain ⟨kept', hfinds⟩ := exists_findsAll_pathIdentifier cs
  rw [← (hfinds.unique h).1, List.map_map]
  simp [Function.comp_def]

end QueryText

/-! ### Parts of a descriptor -/

namespace Descriptor
open QueryText

variable {cs : List Char}

theorem take_sub_dropWhile (p : Char → Bool) (cs : List Char) :
    cs.take (cs.length - (cs.dropWhile p).length) = cs.takeWhile p := by
  have hlength : (cs.takeWhile p).length + (cs.dropWhile p).length = cs.length := by
    rw [← List.length_append, List.takeWhile_append_dropWhile]
  rw [← hlength, Nat.add_sub_cancel]
  have htake : (cs.takeWhile p ++ cs.dropWhile p).take (cs.takeWhile p).length = cs.takeWhile p := List.take_left
  rwa [List.takeWhile_append_dropWhile] at htake

/-- The group of a run captures the run. -/
theorem capture_run (before b : Option Char) (p : Char → Bool) (cs : List Char) :
    Point.capture 1 ⟨before, cs, []⟩ ⟨b, cs.dropWhile p, []⟩ = ⟨b, cs.dropWhile p, [(1, cs.takeWhile p)]⟩ := by
  rw [Point.capture, Point.left, Point.left, take_sub_dropWhile]

/-! The name -/

theorem anchored_descriptorName : descriptorName.Anchored := by
  rintro p q ⟨s, ⟨t, ⟨hstart, rfl⟩, -⟩, -⟩
  exact Option.isNone_iff_eq_none.mp hstart

theorem head?_descriptorName (cs : List Char) :
    (ends descriptorName ⟨none, '@' :: cs, []⟩).head? = (ends (.group 1 wordRun) ⟨some '@', cs, []⟩).head? := by
  have hopens : ends (.seq (.look .startText) (.one (.single '@'))) ⟨none, '@' :: cs, []⟩ =
      [⟨some '@', cs, []⟩] := rfl
  rw [descriptorName, head?_ends_seq, hopens, List.findSome?_singleton]

theorem captureIn_descriptorName (cs : List Char) :
    captureIn "^@([A-Za-z0-9_]+)" ('@' :: cs) =
      if cs.takeWhile isWordChar = [] then none else some (cs.takeWhile isWordChar) := by
  have hgroup : (ends (.group 1 wordRun) ⟨some '@', cs, []⟩).head? =
      ((ends wordRun ⟨some '@', cs, []⟩).head?).map (Point.capture 1 ⟨some '@', cs, []⟩) := List.head?_map
  rw [captureIn_eq parse?_descriptorName, search_of_anchored anchored_descriptorName, Point.atStart,
    head?_descriptorName, hgroup]
  by_cases hcs : StopsAt isWordChar cs
  · rw [ends_wordRun_of_stopsAt hcs, takeWhile_of_stopsAt hcs, if_pos rfl]
    rfl
  · obtain ⟨c, cs, rfl, hc⟩ : ∃ c rest, cs = c :: rest ∧ isWordChar c = true := by
      cases cs with
      | nil => exact absurd (stopsAt_nil _) hcs
      | cons c rest => exact ⟨c, rest, rfl, by simpa using hcs⟩
    have hcapture := capture_run (some '@') ((cs.takeWhile isWordChar).getLast?.or (some c)) isWordChar (c :: cs)
    rw [List.dropWhile_cons_of_pos hc, List.takeWhile_cons_of_pos hc] at hcapture
    rw [head?_wordRun_cons hc, Option.map_some, hcapture, List.takeWhile_cons_of_pos hc,
      if_neg (List.cons_ne_nil _ _)]
    rfl

theorem captureIn_descriptorName_of_ne {line : List Char} (h : ∀ cs, line ≠ '@' :: cs) :
    captureIn "^@([A-Za-z0-9_]+)" line = none := by
  rw [captureIn_eq parse?_descriptorName, search_of_anchored anchored_descriptorName, Point.atStart]
  cases line with
  | nil => rfl
  | cons c cs =>
    have hc : c ≠ '@' := fun hc => h cs (by rw [hc])
    have hopens : (ends (.seq (.look .startText) (.one (.single '@'))) ⟨none, c :: cs, []⟩).head? = none := by
      rw [head?_ends_seq]
      have hlook : ends (.look .startText) ⟨none, c :: cs, []⟩ = [⟨none, c :: cs, []⟩] := rfl
      rw [hlook, List.findSome?_singleton, ends_single, if_neg hc]
      rfl
    rw [descriptorName, head?_ends_seq_of_none hopens]
    rfl

/-! The value -/

theorem head?_descriptorValue_of_stopsAt (before : Option Char) (h : StopsAt isWordChar cs) :
    (ends descriptorValue ⟨before, cs, []⟩).head? = none :=
  head?_ends_seq_of_none (by rw [ends, ends_wordRun_of_stopsAt h]; rfl) _

/-- Behind a word the value needs a delimiter, and no shorter run of it helps. -/
theorem head?_descriptorValue (before : Option Char) {c : Char} (hc : isWordChar c = true) (cs : List Char) :
    (ends descriptorValue ⟨before, c :: cs, []⟩).head? =
      (ends (.one delimiter) ⟨(cs.takeWhile isWordChar).getLast?.or (some c), cs.dropWhile isWordChar,
        [(1, c :: cs.takeWhile isWordChar)]⟩).head? := by
  have hgroup : ends (.group 1 wordRun) ⟨before, c :: cs, []⟩ =
      (runEnds wordCharacter [] (some c) cs).map (Point.capture 1 ⟨before, c :: cs, []⟩) := by
    rw [ends, wordRun, ends_atLeastOne, dropLast_runEnds_cons (by rw [contains_wordCharacter, hc])]
  have hinside : ∀ b d ds, wordCharacter.contains d = true →
      (ends (.one delimiter) (Point.capture 1 ⟨before, c :: cs, []⟩ ⟨b, d :: ds, []⟩)).head? = none := by
    intro b d ds hd
    rw [contains_wordCharacter] at hd
    rw [Point.capture, ends_one_cons, contains_delimiter, isDelimiter_of_isWordChar hd, if_neg Bool.false_ne_true]
    rfl
  have hcapture := capture_run before ((cs.takeWhile isWordChar).getLast?.or (some c)) isWordChar (c :: cs)
  rw [List.dropWhile_cons_of_pos hc, List.takeWhile_cons_of_pos hc] at hcapture
  rw [descriptorValue, head?_ends_seq, hgroup, List.findSome?_map, Function.comp_def, findSome?_runEnds hinside,
    contains_wordCharacter, hcapture]

theorem delimitedWord?_of_dropWhile {run : List Char} {d : Char} {rest : List Char}
    (hdrop : cs.dropWhile isWordChar = d :: rest) (hd : isDelimiter d = true)
    (hrun : run ≠ [] ∨ cs.takeWhile isWordChar ≠ []) :
    delimitedWord? run cs = some (run.reverse ++ cs.takeWhile isWordChar) := by
  induction cs generalizing run with
  | nil => cases hdrop
  | cons c cs ih =>
    rw [delimitedWord?]
    cases hc : isWordChar c with
    | true =>
      rw [List.dropWhile_cons_of_pos hc] at hdrop
      rw [if_pos rfl, ih hdrop (.inl (List.cons_ne_nil _ _)), List.takeWhile_cons_of_pos hc, List.reverse_cons,
        List.append_assoc]
      rfl
    | false =>
      have hc' : ¬isWordChar c = true := by simp [hc]
      rw [List.dropWhile_cons_of_neg hc'] at hdrop
      obtain ⟨rfl, -⟩ := List.cons.inj hdrop
      rw [List.takeWhile_cons_of_neg hc'] at hrun ⊢
      simp [hd, hrun.resolve_right (by simp)]

theorem delimitedWord?_of_undelimited {run : List Char}
    (h : ∀ d rest, cs.dropWhile isWordChar = d :: rest → isDelimiter d = false) :
    delimitedWord? run cs = delimitedWord? [] cs := by
  have hboth : ∀ run run', delimitedWord? run cs = delimitedWord? run' cs := by
    induction cs with
    | nil => exact fun _ _ => rfl
    | cons c cs ih =>
      intro run run'
      rw [delimitedWord?, delimitedWord?]
      cases hc : isWordChar c with
      | true =>
        rw [List.dropWhile_cons_of_pos hc] at h
        exact ih h _ _
      | false =>
        rw [List.dropWhile_cons_of_neg (by simp [hc])] at h
        simp [h c cs rfl]
  exact hboth _ _

/-- The value is the first word with a delimiter behind it. -/
theorem captureIn_descriptorValue (cs : List Char) :
    captureIn "([A-Za-z0-9_]+)[:;]" cs = delimitedWord? [] cs := by
  have hfrom : ∀ before, (searchFrom descriptorValue before cs).bind (fun q => q.captured.lookup 1) =
      delimitedWord? [] cs := by
    induction cs with
    | nil => exact fun _ => rfl
    | cons c cs ih =>
      intro before
      cases hc : isWordChar c with
      | false =>
        rw [searchFrom_cons_of_none (head?_descriptorValue_of_stopsAt before (stopsAt_cons.mpr hc)), ih, delimitedWord?]
        simp [hc]
      | true =>
        have hhead := head?_descriptorValue before hc cs
        have hskip (hnone : (ends descriptorValue ⟨before, c :: cs, []⟩).head? = none)
            (h : ∀ d rest, cs.dropWhile isWordChar = d :: rest → isDelimiter d = false) :
            (searchFrom descriptorValue before (c :: cs)).bind (fun q => q.captured.lookup 1) =
              delimitedWord? [] (c :: cs) := by
          rw [searchFrom_cons_of_none hnone, ih, delimitedWord?, hc, if_pos rfl]
          exact (delimitedWord?_of_undelimited h).symm
        cases hdrop : cs.dropWhile isWordChar with
        | nil => exact hskip (by rw [hhead, hdrop]; rfl) (by simp [hdrop])
        | cons d rest =>
          rw [hdrop, ends_one_cons, contains_delimiter] at hhead
          cases hd : isDelimiter d with
          | false =>
            rw [hd, if_neg Bool.false_ne_true] at hhead
            exact hskip hhead (by simp [hdrop, hd])
          | true =>
            rw [hd, if_pos rfl] at hhead
            rw [searchFrom_of_some hhead, delimitedWord?, hc, if_pos rfl,
              delimitedWord?_of_dropWhile hdrop hd (.inl (List.cons_ne_nil _ _))]
            rfl
  exact (captureIn_eq parse?_descriptorValue cs).trans (hfrom none)

/-! The arguments -/

theorem captureIn_descriptorArgs (cs : List Char) :
    (captureIn "[:;](.*)" cs).getD [] = afterDelimiter cs := by
  have hfrom : ∀ before, ((searchFrom descriptorArgs before cs).bind fun q => q.captured.lookup 1).getD [] =
      afterDelimiter cs := by
    induction cs with
    | nil => exact fun _ => rfl
    | cons c cs ih =>
      intro before
      have hdelimiter : ends (.one delimiter) ⟨before, c :: cs, []⟩ =
          if isDelimiter c then [⟨some c, cs, []⟩] else [] := by rw [ends_one_cons, contains_delimiter]
      cases hc : isDelimiter c with
      | false =>
        rw [hc, if_neg Bool.false_ne_true] at hdelimiter
        have hnone : (ends descriptorArgs ⟨before, c :: cs, []⟩).head? = none :=
          head?_ends_seq_of_none (by rw [hdelimiter]; rfl) _
        rw [searchFrom_cons_of_none hnone, ih, afterDelimiter, afterDelimiter, List.dropWhile_cons_of_pos (by simp [hc])]
      | true =>
        rw [hc, if_pos rfl] at hdelimiter
        have hrest : (ends (.group 1 restOfLine) ⟨some c, cs, []⟩).head? =
            some ⟨(cs.takeWhile (fun c => decide (c ≠ '\n'))).getLast?.or (some c),
              cs.dropWhile (fun c => decide (c ≠ '\n')), [(1, cs.takeWhile (fun c => decide (c ≠ '\n')))]⟩ := by
          rw [ends, List.head?_map, restOfLine, head?_ends_any, contains_notFeed, Option.map_some, capture_run]
        have hhead : (ends descriptorArgs ⟨before, c :: cs, []⟩).head? = _ :=
          head?_ends_seq_of_some (by rw [hdelimiter]; rfl) hrest
        rw [searchFrom_of_some hhead, afterDelimiter, List.dropWhile_cons_of_neg (by simp [hc])]
        rfl
  rw [captureIn_eq parse?_descriptorArgs]
  exact hfrom none

/-! Lines -/

theorem parseLine_of_nameless {line : List Char} (h : captureIn "^@([A-Za-z0-9_]+)" line = none) :
    parseLine line = .error (.namelessDescriptor (String.ofList (trim line))) := by
  unfold parseLine
  split
  · next cs =>
    rw [captureIn_descriptorName] at h
    split at h
    · next hname => simp [hname]
    · cases h
  · simp

theorem named_of_captureIn {line name : List Char} (h : captureIn "^@([A-Za-z0-9_]+)" line = some name) :
    Named line (String.ofList name) (line.drop (name.length + 1)) := by
  by_cases hline : ∃ cs, line = '@' :: cs
  · obtain ⟨cs, rfl⟩ := hline
    rw [captureIn_descriptorName] at h
    split at h
    · cases h
    · next hne =>
      obtain rfl := Option.some.inj h
      have hdrop : (cs.takeWhile isWordChar ++ cs.dropWhile isWordChar).drop (cs.takeWhile isWordChar).length =
          cs.dropWhile isWordChar := List.drop_left
      rw [List.takeWhile_append_dropWhile] at hdrop
      rw [List.drop_succ_cons, hdrop]
      exact named_of_takeWhile hne
  · rw [captureIn_descriptorName_of_ne fun cs hcs => hline ⟨cs, hcs⟩] at h
    cases h

/-- A descriptor is what the three expressions find: its name in the line, and its value and arguments
independently of each other behind the name. -/
theorem parseLine_of_captureIn {line name : List Char} (h : captureIn "^@([A-Za-z0-9_]+)" line = some name)
    (hname : String.ofList name ≠ all) :
    parseLine line = (captureIn "([A-Za-z0-9_]+)[:;]" (line.drop (name.length + 1))).elim
      (.error (.valuelessDescriptor (String.ofList name))) fun value =>
        .ok ⟨String.ofList name, String.ofList value,
          arguments ((captureIn "[:;](.*)" (line.drop (name.length + 1))).getD [])⟩ := by
  rw [parseLine_of_named (named_of_captureIn h) hname, captureIn_descriptorValue, captureIn_descriptorArgs]

end Descriptor
end RouteQuery
