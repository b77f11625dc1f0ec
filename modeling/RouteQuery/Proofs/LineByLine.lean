import RouteQuery.Proofs.Accepting
import RouteQuery.Proofs.DescriptorPrinting
import RouteQuery.Proofs.FaultPlaces

/-! A query is prepared line by line: what stands in a line decides alone what is left of it and which
descriptor is read from it, and a fault of the escaped text is in the line that was written. -/
namespace RouteQuery
open Text

theorem Escape.encodeChars_unlines (ls : List (List Char)) :
    encodeChars (unlines ls) = unlines (ls.map encodeChars) := by
  induction ls with
  | nil => rfl
  | cons line ls ih =>
    by_cases hlast : ls = []
    · subst hlast
      simp
    · have hlast' : ls.map encodeChars ≠ [] := by simpa using hlast
      rw [unlines_cons line hlast, List.map_cons, unlines_cons _ hlast', encodeChars_append, encodeChars_cons, ih]
      rfl

namespace QueryText

/-- What is left of a line. -/
def escapedLine (line : List Char) : List Char :=
  if '#' ∈ line then [] else Escape.encodeChars (line.takeWhile (· ≠ '@'))

theorem newline_not_mem_escapedLine {line : List Char} (h : '\n' ∉ line) : '\n' ∉ escapedLine line := by
  unfold escapedLine
  split
  · simp
  · exact Escape.not_mem_encodeChars (by decide) fun hmem => h (List.takeWhile_subset _ hmem)

theorem normalize_eq {raw : List Char} (h : raw.all isBlank = false) :
    normalize raw = .ok (unlines ((lines raw).map escapedLine)) := by
  have hlines := isLines_lines raw
  have hstripped : IsLines (stripComments raw)
      ((lines raw).map fun line => if line.contains '#' then [] else line) := by
    refine hlines.map fun line hline => ?_
    split
    · simp
    · exact hline
  have hline (line : List Char) : Escape.encodeChars
      ((if line.contains '#' then [] else line).takeWhile (· ≠ '@')) = escapedLine line := by
    by_cases hhash : '#' ∈ line
    · rw [if_pos (by simpa using hhash), escapedLine, if_pos hhash]
      rfl
    · rw [if_neg (by simpa using hhash), escapedLine, if_neg hhash]
  have hsafe : Escape.encodeChars (stripDescriptors (stripComments raw)) =
      unlines ((lines raw).map escapedLine) := by
    rw [stripDescriptors, hstripped.lines_eq, Escape.encodeChars_unlines, List.map_map, List.map_map]
    exact congrArg unlines (List.map_congr_left fun line _ => hline line)
  rw [normalize, validate, if_neg (by simp [h]), hsafe]
  rfl

/-- A fault of an escaped text, and where it is among the lines that were written: behind `earlier`, in
`line`, and there at the end of `read` once that line is escaped. -/
structure Located (ls : List (List Char)) (safe : List Char) (fault : SyntaxFault)
    (earlier : List (List Char)) (line read rest : List Char) : Prop where
  raw : ∃ later, ls = earlier ++ line :: later
  escaped : safe = ended (earlier.map escapedLine) ++ (read ++ rest)
  in_line : read <+: escapedLine line
  fault_eq : fault = ⟨(trimLeft rest).head?, earlier.length + 1, read.length + 1⟩

/-- A text and what it is normalized to. -/
structure Normalizes (raw safe : List Char) : Prop where
  by_line : IsLines safe ((lines raw).map escapedLine)
  feeds : safe.count '\n' = raw.count '\n'
  chars : ∀ c ∈ safe, c ≠ '#' ∧ c ≠ '@' ∧ Escape.tokenFor? c = none
  faults : ∀ s : Site, s.Reachable → ∀ message, s.answer safe = .error (.malformedQuery message) →
    ∃ fault earlier line read rest, Document.parse safe = .error fault ∧ message = fault.message ∧
      Located (lines raw) safe fault earlier line read rest

theorem plain_of_mem_escapedLine {line : List Char} {c : Char} (h : c ∈ escapedLine line) :
    c ≠ '#' ∧ c ≠ '@' ∧ Escape.tokenFor? c = none := by
  unfold escapedLine at h
  split at h
  · cases h
  · next hhash =>
    have hat : '@' ∉ line.takeWhile (· ≠ '@') := fun hmem => by simpa using List.mem_takeWhile_imp hmem
    refine ⟨?_, ?_, (Escape.of_mem_encodeChars h).1⟩
    · rintro rfl
      exact Escape.not_mem_encodeChars (by decide) (fun hmem => hhash (List.takeWhile_subset _ hmem)) h
    · rintro rfl
      exact Escape.not_mem_encodeChars (by decide) hat h

theorem exists_located {raw safe : List Char} {fault : SyntaxFault}
    (h : IsLines safe ((lines raw).map escapedLine)) (hfault : Document.parse safe = .error fault) :
    ∃ earlier line read rest, Located (lines raw) safe fault earlier line read rest := by
  obtain ⟨rest, ⟨before, hsafe⟩, rfl⟩ := Document.exists_place_of_parse hfault
  obtain ⟨_, _, _, read, hlines, hread, rfl⟩ := exists_line_of_append h.ne_nil (h.text_eq.symm.trans hsafe.symm)
  have hfeed := h.no_feed
  rw [hlines] at hfeed
  obtain ⟨earlier, tail, hraw, rfl, htail⟩ := List.map_eq_append_iff.mp hlines
  obtain ⟨line, later, rfl, rfl, -⟩ := List.map_eq_cons_iff.mp htail
  have hearlier : ∀ before ∈ earlier.map escapedLine, '\n' ∉ before :=
    fun before hbefore => hfeed before (List.mem_append_left _ hbefore)
  have hline : '\n' ∉ escapedLine line := hfeed _ (List.mem_append_right _ List.mem_cons_self)
  rw [List.append_assoc] at hsafe
  subst hsafe
  refine ⟨earlier, line, read, rest, ⟨later, hraw⟩, rfl, hread, ?_⟩
  rw [SyntaxFault.locate_of_ended hearlier fun hmem => hline (hread.subset hmem), List.length_map]

theorem normalizes_unlines (raw : List Char) : Normalizes raw (unlines ((lines raw).map escapedLine)) := by
  have hlines := isLines_lines raw
  have hsafe := hlines.map fun _ => newline_not_mem_escapedLine
  refine ⟨hsafe, ?_, fun c hc => ?_, fun s hs message hanswer => ?_⟩
  · have hcount := hsafe.count_feeds
    rw [List.length_map, ← hlines.count_feeds] at hcount
    exact Nat.add_right_cancel hcount
  · rcases of_mem_unlines hc with rfl | ⟨_, hline, hc⟩
    · decide
    · obtain ⟨line, -, rfl⟩ := List.mem_map.mp hline
      exact plain_of_mem_escapedLine hc
  · cases hparse : Document.parse (unlines ((lines raw).map escapedLine)) with
    | ok d =>
      rw [Site.answer_eq hs.consistent hparse] at hanswer
      split at hanswer <;> cases hanswer
    | error fault =>
      rw [Site.answer_of_malformed hs.consistent hparse, SyntaxFault.decode_message] at hanswer
      obtain ⟨earlier, line, read, rest, hlocated⟩ := exists_located hsafe hparse
      obtain rfl := Fault.malformedQuery.inj (Except.error.inj hanswer)
      exact ⟨fault, earlier, line, read, rest, rfl, rfl, hlocated⟩

/-- A text that is not blank is prepared line by line. -/
theorem normalize_by_line {raw : List Char} (h : raw.all isBlank = false) :
    (∃ safe, normalize raw = .ok safe ∧ Normalizes raw safe) ∧
    (∀ ds, Descriptor.parseAll raw = .ok ds ↔ List.Forall₂ (fun segment d => Descriptor.parseLine segment = .ok d)
      ((lines raw).filterMap Descriptor.annotation?) ds) ∧
    ∀ fault, Descriptor.parseAll raw = .error fault ↔ ∃ before segment after,
      (lines raw).filterMap Descriptor.annotation? = before ++ segment :: after ∧
      (∀ segment ∈ before, ∃ d, Descriptor.parseLine segment = .ok d) ∧
      Descriptor.parseLine segment = .error fault := by
  refine ⟨⟨_, normalize_eq h, normalizes_unlines raw⟩, fun ds => ?_, fun fault => ?_⟩
  · rw [Descriptor.parseAll_eq, mapM_eq_ok_iff]
  · rw [Descriptor.parseAll_eq, mapM_eq_error_iff]

/-- A comment with an annotation in it, a carriage return, and an annotation behind a query. -/
def annotated : List Char := "# @all /é: log\n\x7b /b\r\nget \x7b log @param id;\n\x7d \x7d".toList

theorem normalize_annotated : annotated.all isBlank = false ∧
    normalize annotated = .ok "\n\x7b _slash_b\r\nget \x7b log \n\x7d \x7d".toList ∧
    Normalizes annotated "\n\x7b _slash_b\r\nget \x7b log \n\x7d \x7d".toList ∧
    Descriptor.parseAll annotated = .ok [⟨"all", "/é", ["log"]⟩, ⟨"param", "id", []⟩] := by
  have hblank : annotated.all isBlank = false := by decide
  have hsafe : normalize annotated = .ok "\n\x7b _slash_b\r\nget \x7b log \n\x7d \x7d".toList :=
    (normalize_eq hblank).trans (congrArg Except.ok (by decide))
  have hsegments : (lines annotated).filterMap Descriptor.annotation? =
      ["@all /é: log".toList, "@param id;".toList] := by decide
  obtain ⟨⟨safe, hnormal, hform⟩, hread, -⟩ := normalize_by_line hblank
  obtain rfl := Except.ok.inj (hnormal.symm.trans hsafe)
  refine ⟨hblank, hsafe, hform, (hread _).mpr ?_⟩
  rw [hsegments]
  exact .cons rfl (.cons rfl .nil)

end QueryText
end RouteQuery
