import Mathlib.Data.List.Basic
import RouteQuery.Proofs.Words

/-! The lines of a text, and the line in which a place of it is. -/
namespace RouteQuery.Text

theorem splitAt_of_forall {p : Char → Bool} {piece : List Char} (h : ∀ c ∈ piece, p c = false) :
    splitAt p piece = [piece] := by
  induction piece with
  | nil => rfl
  | cons c piece ih =>
    obtain ⟨hc, hpiece⟩ := List.forall_mem_cons.mp h
    rw [splitAt, if_neg (by simp [hc]), ih hpiece]

theorem splitAt_append_cons {p : Char → Bool} {piece : List Char} (h : ∀ c ∈ piece, p c = false) {c : Char}
    (hc : p c = true) (rest : List Char) : splitAt p (piece ++ c :: rest) = piece :: splitAt p rest := by
  induction piece with
  | nil => rw [List.nil_append, splitAt, if_pos hc]
  | cons d piece ih =>
    obtain ⟨hd, hpiece⟩ := List.forall_mem_cons.mp h
    rw [List.cons_append, splitAt, if_neg (by simp [hd]), ih hpiece]

theorem mem_and_not_of_mem_splitAt {p : Char → Bool} {cs piece : List Char} (h : piece ∈ splitAt p cs) :
    ∀ c ∈ piece, c ∈ cs ∧ p c = false := by
  induction cs generalizing piece with
  | nil =>
    obtain rfl := List.mem_singleton.mp h
    simp
  | cons d cs ih =>
    intro c hc
    rw [splitAt] at h
    split at h
    · rcases List.mem_cons.mp h with rfl | h
      · cases hc
      · exact ⟨List.mem_cons_of_mem d (ih h c hc).1, (ih h c hc).2⟩
    · next hd =>
      obtain ⟨first, pieces, hsplit⟩ := List.exists_cons_of_ne_nil (splitAt_ne_nil p cs)
      rw [hsplit] at ih h
      rcases List.mem_cons.mp h with rfl | h
      · rcases List.mem_cons.mp hc with rfl | hc
        · exact ⟨List.mem_cons_self, by simpa using hd⟩
        · have hfirst := ih List.mem_cons_self c hc
          exact ⟨List.mem_cons_of_mem d hfirst.1, hfirst.2⟩
      · have hlater := ih (List.mem_cons_of_mem first h) c hc
        exact ⟨List.mem_cons_of_mem d hlater.1, hlater.2⟩

/-! ### Lines put together -/

@[simp] theorem unlines_singleton (line : List Char) : unlines [line] = line := List.intercalate_singleton

theorem unlines_cons (line : List Char) {ls : List (List Char)} (h : ls ≠ []) :
    unlines (line :: ls) = line ++ '\n' :: unlines ls := by
  rw [unlines, List.intercalate_cons_of_ne_nil h, List.append_assoc]
  rfl

theorem unlines_lines (cs : List Char) : unlines (lines cs) = cs := by
  unfold lines
  induction cs with
  | nil => rfl
  | cons c cs ih =>
    obtain ⟨piece, pieces, hsplit⟩ := List.exists_cons_of_ne_nil (splitAt_ne_nil (· == '\n') cs)
    rw [splitAt]
    split
    · next hc =>
      obtain rfl := eq_of_beq hc
      rw [unlines_cons _ (splitAt_ne_nil _ cs), ih, List.nil_append]
    · rw [hsplit] at ih ⊢
      simp only
      rw [unlines, List.intercalate_cons_cons_left, ← unlines, ih]

theorem lines_of_line {line : List Char} (h : '\n' ∉ line) (rest : List Char) :
    lines (line ++ '\n' :: rest) = line :: lines rest :=
  splitAt_append_cons (fun c hc => by simpa using ne_of_mem_of_not_mem hc h) rfl rest

theorem mem_of_mem_lines {cs line : List Char} (h : line ∈ lines cs) : ∀ c ∈ line, c ∈ cs :=
  fun c hc => (mem_and_not_of_mem_splitAt h c hc).1

/-- Only line feeds come in when lines are put together. -/
theorem of_mem_unlines {ls : List (List Char)} {c : Char} (h : c ∈ unlines ls) :
    c = '\n' ∨ ∃ line ∈ ls, c ∈ line := by
  induction ls with
  | nil => simp [unlines] at h
  | cons line ls ih =>
    by_cases hls : ls = []
    · subst hls
      rw [unlines_singleton] at h
      exact .inr ⟨line, List.mem_cons_self, h⟩
    · rw [unlines_cons line hls, List.mem_append, List.mem_cons] at h
      rcases h with hline | hfeed | hrest
      · exact .inr ⟨line, List.mem_cons_self, hline⟩
      · exact .inl hfeed
      · rcases ih hrest with hfeed | ⟨other, hother, hc⟩
        · exact .inl hfeed
        · exact .inr ⟨other, List.mem_cons_of_mem line hother, hc⟩

/-- The lines of a text: at least one, and none with a line feed in it. -/
structure IsLines (text : List Char) (ls : List (List Char)) : Prop where
  ne_nil : ls ≠ []
  no_feed : ∀ line ∈ ls, '\n' ∉ line
  text_eq : text = unlines ls

theorem isLines_lines (text : List Char) : IsLines text (lines text) where
  ne_nil := splitAt_ne_nil _ text
  no_feed := fun line hline hfeed => by simpa using (mem_and_not_of_mem_splitAt hline '\n' hfeed).2
  text_eq := (unlines_lines text).symm

theorem IsLines.map {text : List Char} {ls : List (List Char)} (h : IsLines text ls)
    {f : List Char → List Char} (hf : ∀ line, '\n' ∉ line → '\n' ∉ f line) :
    IsLines (unlines (ls.map f)) (ls.map f) := by
  refine ⟨by simpa using h.ne_nil, fun image himage => ?_, rfl⟩
  obtain ⟨line, hline, rfl⟩ := List.mem_map.mp himage
  exact hf line (h.no_feed line hline)

/-- A text has only these lines. -/
theorem IsLines.lines_eq {text : List Char} {ls : List (List Char)} (h : IsLines text ls) : lines text = ls := by
  obtain ⟨hne, hfeed, rfl⟩ := h
  induction ls with
  | nil => exact absurd rfl hne
  | cons line ls ih =>
    obtain ⟨hline, hls⟩ := List.forall_mem_cons.mp hfeed
    by_cases hlast : ls = []
    · subst hlast
      rw [unlines_singleton]
      exact splitAt_of_forall fun c hc => by simpa using ne_of_mem_of_not_mem hc hline
    · rw [unlines_cons line hlast, lines_of_line hline, ih hlast hls]

theorem IsLines.count_feeds {text : List Char} {ls : List (List Char)} (h : IsLines text ls) :
    text.count '\n' + 1 = ls.length := by
  obtain ⟨hne, hfeed, rfl⟩ := h
  induction ls with
  | nil => exact absurd rfl hne
  | cons line ls ih =>
    obtain ⟨hline, hls⟩ := List.forall_mem_cons.mp hfeed
    by_cases hlast : ls = []
    · subst hlast
      simp [List.count_eq_zero_of_not_mem hline]
    · rw [unlines_cons line hlast, List.count_append, List.count_eq_zero_of_not_mem hline, List.count_cons_self,
        Nat.zero_add, ih hlast hls, List.length_cons]

/-- Lines with a line feed behind each. -/
def ended (ls : List (List Char)) : List Char := ls.flatMap (· ++ ['\n'])

theorem count_ended {ls : List (List Char)} (h : ∀ line ∈ ls, '\n' ∉ line) :
    (ended ls).count '\n' = ls.length := by
  unfold ended
  induction ls with
  | nil => rfl
  | cons line ls ih =>
    obtain ⟨hline, hls⟩ := List.forall_mem_cons.mp h
    rw [List.flatMap_cons, List.count_append, ih hls, List.count_append, List.count_eq_zero_of_not_mem hline]
    simp [Nat.add_comm]

/-- Each place of a text is in one of its lines, behind the lines before that. -/
theorem exists_line_of_append {ls : List (List Char)} (hne : ls ≠ []) {before rest : List Char}
    (h : unlines ls = before ++ rest) : ∃ earlier line later read, ls = earlier ++ line :: later ∧
      read <+: line ∧ before = ended earlier ++ read := by
  induction ls generalizing before with
  | nil => exact absurd rfl hne
  | cons line ls ih =>
    have hhere (read rest : List Char) (hline : line = read ++ rest) :
        ∃ earlier line' later read', line :: ls = earlier ++ line' :: later ∧ read' <+: line' ∧
          read = ended earlier ++ read' :=
      ⟨[], line, ls, read, rfl, ⟨rest, hline.symm⟩, rfl⟩
    by_cases hlast : ls = []
    · subst hlast
      rw [unlines_singleton] at h
      exact hhere before rest h
    · rw [unlines_cons line hlast] at h
      rcases List.append_eq_append_iff.mp h with ⟨beyond, rfl, hbeyond⟩ | ⟨unread, hline, -⟩
      · cases beyond with
        | nil =>
          rw [List.append_nil]
          exact hhere line [] (List.append_nil line).symm
        | cons c beyond =>
          obtain ⟨rfl, hrest⟩ := List.cons.inj hbeyond
          obtain ⟨earlier, line', later, read, rfl, hread, rfl⟩ := ih hlast hrest
          exact ⟨line :: earlier, line', later, read, rfl, hread, by simp [ended]⟩
      · exact hhere before unread hline

end RouteQuery.Text
