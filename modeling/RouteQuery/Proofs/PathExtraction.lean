import RouteQuery.Proofs.Words
import RouteQuery.QueryText

/-! Which words of a text count as path identifiers, and how they are found word by word. -/
namespace RouteQuery.QueryText
open Text

/-- What follows the underscore that opens a path identifier: a letter and one more word character. -/
def opensIdentifier : List Char → Bool
  | d :: e :: _ => d.isAlpha && isWordChar e
  | _ => false

/-- Words as `pathIdentifiers` finds them. -/
def isPathIdentifier (name : String) : Bool :=
  match name.toList with
  | '_' :: cs => opensIdentifier cs && cs.all isWordChar
  | _ => false

@[simp] theorem pathIdentifiers_nil : pathIdentifiers [] = [] := by rw [pathIdentifiers]

@[simp] theorem pathIdentifiers_cons_of_ne {c : Char} (h : c ≠ '_') (cs : List Char) :
    pathIdentifiers (c :: cs) = pathIdentifiers cs := by
  rw [pathIdentifiers]
  intro d e rest he
  exact absurd he h

theorem pathIdentifiers_underscore (cs : List Char) :
    pathIdentifiers ('_' :: cs) =
      if opensIdentifier cs then
        String.ofList ('_' :: cs.takeWhile isWordChar) :: pathIdentifiers (cs.dropWhile isWordChar)
      else pathIdentifiers cs := by
  match cs with
  | [] => rw [pathIdentifiers] <;> simp [opensIdentifier]
  | [d] => rw [pathIdentifiers] <;> simp [opensIdentifier]
  | d :: e :: rest =>
    rw [pathIdentifiers, opensIdentifier]
    by_cases h : (d.isAlpha && isWordChar e) = true
    · obtain ⟨hd, he⟩ := Bool.and_eq_true_iff.mp h
      rw [if_pos h, if_pos h, List.takeWhile_cons_of_pos (isWordChar_of_isAlpha hd),
        List.takeWhile_cons_of_pos he, List.dropWhile_cons_of_pos (isWordChar_of_isAlpha hd),
        List.dropWhile_cons_of_pos he]
    · rw [if_neg h, if_neg h]

theorem opensIdentifier_append_stop {rest : List Char} (h : StopsAt isWordChar rest)
    (cs : List Char) : opensIdentifier (cs ++ rest) = opensIdentifier cs := by
  match cs, rest with
  | d :: e :: cs, _ => rfl
  | [d], [] => rfl
  | [d], e :: rest => simp [opensIdentifier, stopsAt_cons.mp h]
  | [], [] => rfl
  | [], [d] => rfl
  | [], d :: e :: rest =>
    have hd : d.isAlpha = false := by
      by_contra hne
      simp [isWordChar_of_isAlpha (Bool.not_eq_false _ ▸ hne)] at h
    simp [opensIdentifier, hd]

/-- At an underscore the search goes on with the next character or behind the word. -/
theorem search_induction {P : List Char → Prop} (nil : P [])
    (underscore : ∀ cs, P cs → P (cs.dropWhile isWordChar) → P ('_' :: cs))
    (other : ∀ c cs, c ≠ '_' → P cs → P (c :: cs)) (cs : List Char) : P cs := by
  induction hn : cs.length using Nat.strongRecOn generalizing cs with
  | _ n ih =>
    subst hn
    cases cs with
    | nil => exact nil
    | cons c cs =>
      have hrest := ih cs.length (by simp) cs rfl
      by_cases hc : c = '_'
      · subst hc
        have hle := length_dropWhile_le isWordChar cs
        exact underscore cs hrest (ih _ (by simp only [List.length_cons]; omega) _ rfl)
      · exact other c cs hc hrest

/-- Nothing is found across the end of a word. -/
theorem pathIdentifiers_append_stop {rest : List Char} (h : StopsAt isWordChar rest)
    (cs : List Char) : pathIdentifiers (cs ++ rest) = pathIdentifiers cs ++ pathIdentifiers rest := by
  induction cs using search_induction with
  | nil => simp
  | underscore cs ih ihword =>
    rw [List.cons_append, pathIdentifiers_underscore, pathIdentifiers_underscore,
      opensIdentifier_append_stop h, takeWhile_append_stop h, dropWhile_append_stop h]
    split
    · rw [ihword, List.cons_append]
    · exact ih
  | other c cs hc ih =>
    rw [List.cons_append, pathIdentifiers_cons_of_ne hc, pathIdentifiers_cons_of_ne hc, ih]

theorem isPathIdentifier_iff {name : String} :
    isPathIdentifier name = true ↔
      ∃ cs, name.toList = '_' :: cs ∧ opensIdentifier cs = true ∧ cs.all isWordChar = true := by
  unfold isPathIdentifier
  split
  · next cs h => simp [h]
  · next h => simpa using fun cs hcs => absurd hcs (h cs)

theorem isIdentifier_of_isPathIdentifier {name : String} (h : isPathIdentifier name = true) :
    isIdentifier name = true := by
  obtain ⟨cs, hname, _, hcs⟩ := isPathIdentifier_iff.mp h
  exact isIdentifier_iff.mpr ⟨'_', cs, hname, by decide, hcs⟩

/-- The path identifier in a word: its end from the first underscore on that a letter and one more
word character follow. -/
def identifierIn? : List Char → Option String
  | [] => none
  | c :: cs =>
    if c = '_' ∧ opensIdentifier cs then some (String.ofList (c :: cs)) else identifierIn? cs

example : identifierIn? "echo_body".toList = some "_body" := by decide

theorem pathIdentifiers_of_word {cs : List Char} (h : ∀ c ∈ cs, isWordChar c = true) :
    pathIdentifiers cs = (identifierIn? cs).toList := by
  induction cs with
  | nil => simp [identifierIn?]
  | cons c cs ih =>
    have hcs := (List.forall_mem_cons.mp h).2
    by_cases hc : c = '_'
    · have htake : cs.takeWhile isWordChar = cs := List.takeWhile_eq_self_iff.mpr hcs
      have hdrop : cs.dropWhile isWordChar = [] := List.dropWhile_eq_nil_iff.mpr hcs
      subst hc
      rw [pathIdentifiers_underscore, identifierIn?, htake, hdrop, ih hcs]
      by_cases hopen : opensIdentifier cs = true <;> simp [hopen]
    · rw [pathIdentifiers_cons_of_ne hc, identifierIn?, if_neg (by simp [hc]), ih hcs]

theorem identifierIn?_of_isPathIdentifier {name : String} (h : isPathIdentifier name = true) :
    identifierIn? name.toList = some name := by
  obtain ⟨cs, hname, hopen, -⟩ := isPathIdentifier_iff.mp h
  rw [hname, identifierIn?, if_pos ⟨rfl, hopen⟩, ← hname, String.ofList_toList]

/-- A path identifier is found where it stands as a word. -/
theorem pathIdentifiers_word {name : String} (h : isPathIdentifier name = true)
    {rest : List Char} (hrest : StopsAt isWordChar rest) :
    pathIdentifiers (name.toList ++ rest) = name :: pathIdentifiers rest := by
  have hall := List.all_eq_true.mp
    (all_isWordChar_of_isIdentifier (isIdentifier_of_isPathIdentifier h))
  rw [pathIdentifiers_append_stop hrest, pathIdentifiers_of_word hall,
    identifierIn?_of_isPathIdentifier h]
  rfl

theorem isPathIdentifier_of_mem {name : String} {cs : List Char} (h : name ∈ pathIdentifiers cs) :
    isPathIdentifier name = true := by
  induction cs using search_induction with
  | nil => simp at h
  | underscore cs ih ihword =>
    rw [pathIdentifiers_underscore] at h
    split at h
    · next hopen =>
      rcases List.mem_cons.mp h with rfl | h
      · refine isPathIdentifier_iff.mpr ⟨cs.takeWhile isWordChar, by simp, ?_, by simp⟩
        rw [← opensIdentifier_append_stop (stopsAt_dropWhile isWordChar cs),
          List.takeWhile_append_dropWhile]
        exact hopen
      · exact ihword h
    · exact ih h
  | other c cs hc ih =>
    rw [pathIdentifiers_cons_of_ne hc] at h
    exact ih h

end RouteQuery.QueryText
