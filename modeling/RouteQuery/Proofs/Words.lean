import Mathlib.Data.List.TakeWhile
import Mathlib.Tactic.Common
import RouteQuery.RoutePath

/-! Runs of word characters, and how a text splits at the end of one. -/
namespace RouteQuery.Text

/-- A text that does not go on with a character from `p`. -/
def StopsAt (p : Char → Bool) (cs : List Char) : Prop := ∀ c ∈ cs.head?, p c = false

@[simp] theorem stopsAt_nil (p : Char → Bool) : StopsAt p [] := by simp [StopsAt]

@[simp] theorem stopsAt_cons {p : Char → Bool} {c : Char} {cs : List Char} :
    StopsAt p (c :: cs) ↔ p c = false := by simp [StopsAt]

instance (p : Char → Bool) : (cs : List Char) → Decidable (StopsAt p cs)
  | [] => isTrue (stopsAt_nil p)
  | c :: _ => decidable_of_iff (p c = false) stopsAt_cons.symm

theorem takeWhile_of_stopsAt {p : Char → Bool} {cs : List Char} (h : StopsAt p cs) :
    cs.takeWhile p = [] := by
  cases cs with
  | nil => rfl
  | cons c cs => simp [stopsAt_cons.mp h]

theorem dropWhile_of_stopsAt {p : Char → Bool} {cs : List Char} (h : StopsAt p cs) :
    cs.dropWhile p = cs := by
  cases cs with
  | nil => rfl
  | cons c cs => simp [stopsAt_cons.mp h]

theorem takeWhile_append_stop {p : Char → Bool} {rest : List Char} (h : StopsAt p rest)
    (cs : List Char) : (cs ++ rest).takeWhile p = cs.takeWhile p := by
  induction cs with
  | nil => simpa using takeWhile_of_stopsAt h
  | cons c cs ih => simp only [List.cons_append, List.takeWhile_cons, ih]

theorem dropWhile_append_stop {p : Char → Bool} {rest : List Char} (h : StopsAt p rest)
    (cs : List Char) : (cs ++ rest).dropWhile p = cs.dropWhile p ++ rest := by
  induction cs with
  | nil => simpa using dropWhile_of_stopsAt h
  | cons c cs ih =>
    simp only [List.cons_append, List.dropWhile_cons, ih]
    split <;> rfl

theorem stopsAt_dropWhile (p : Char → Bool) (cs : List Char) : StopsAt p (cs.dropWhile p) := by
  induction cs with
  | nil => simp
  | cons c cs ih =>
    simp only [List.dropWhile_cons]
    split
    · exact ih
    · next h => simpa using h

theorem isWordChar_of_isWordStart {c : Char} (h : isWordStart c = true) : isWordChar c = true := by
  simp only [isWordStart, isWordChar, Char.isAlphanum, Bool.or_eq_true] at h ⊢
  rcases h with h | h
  · exact .inl (.inl h)
  · exact .inr h

theorem isWordChar_of_isAlpha {c : Char} (h : c.isAlpha = true) : isWordChar c = true :=
  isWordChar_of_isWordStart (by simp [isWordStart, h])

end RouteQuery.Text

namespace RouteQuery
open Text

/-- An identifier is a word character that is no digit, and word characters behind it. -/
theorem isIdentifier_iff {name : String} :
    isIdentifier name = true ↔
      ∃ c cs, name.toList = c :: cs ∧ isWordStart c = true ∧ cs.all isWordChar = true := by
  unfold isIdentifier
  split
  · next h => simp [h]
  · next c cs h => simp [h]

theorem all_isWordChar_of_isIdentifier {name : String} (h : isIdentifier name = true) :
    name.toList.all isWordChar = true := by
  obtain ⟨c, cs, hname, hc, hcs⟩ := isIdentifier_iff.mp h
  rw [hname, List.all_cons, isWordChar_of_isWordStart hc, hcs]
  rfl

end RouteQuery
