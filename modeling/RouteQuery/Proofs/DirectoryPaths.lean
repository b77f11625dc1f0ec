import Mathlib.Tactic.Common
import RouteQuery.Http.StaticFiles

/-! A slash at the end of a path changes nothing about the file or directory that is asked for: it
passes through decoding as it is, and opens an empty name. -/
namespace RouteQuery
open Text

namespace Text

def slashByte : UInt8 := 47

theorem toUtf8_append (cs ds : List Char) : toUtf8 (cs ++ ds) = toUtf8 cs ++ toUtf8 ds :=
  List.flatMap_append

theorem toUtf8_ne_nil {cs : List Char} (h : cs ≠ []) : toUtf8 cs ≠ [] := by
  obtain ⟨c, ds, rfl⟩ := List.exists_cons_of_ne_nil h
  intro hnil
  have hlength := congrArg List.length (List.flatMap_eq_nil_iff.mp hnil c List.mem_cons_self)
  have := c.utf8Size_pos
  rw [String.length_utf8EncodeChar, List.length_nil] at hlength
  omega

/-- A byte that starts no encoded byte stays. -/
theorem percentDecode_cons {b : UInt8} {rest : Bytes} (h : ∀ x y behind, b = 37 → rest = x :: y :: behind →
    hexValue? x = none ∨ hexValue? y = none) : percentDecode (b :: rest) = b :: percentDecode rest := by
  by_cases hpercent : ∃ x y behind, b = 37 ∧ rest = x :: y :: behind
  · obtain ⟨x, y, behind, rfl, rfl⟩ := hpercent
    rw [percentDecode]
    split
    · next hx hy => rcases h x y behind rfl rfl with hnone | hnone <;> simp_all
    · rfl
  · rw [percentDecode]
    exact fun x y behind hb hrest => hpercent ⟨x, y, behind, hb, hrest⟩

theorem percentDecode_append_slash (bs : Bytes) :
    percentDecode (bs ++ [slashByte]) = percentDecode bs ++ [slashByte] := by
  fun_induction percentDecode bs with
  | case1 h l rest x y hl hh ih => simp only [List.cons_append, percentDecode, hl, hh, ih]
  | case2 h l rest hnot ih =>
    rw [List.cons_append, percentDecode_cons, ih, List.cons_append]
    rintro x' y' behind - heq
    obtain ⟨hx, hrest⟩ := List.cons.inj heq
    obtain ⟨hy, -⟩ := List.cons.inj hrest
    rw [← hx, ← hy]
    cases hh : hexValue? h with
    | none => exact .inl rfl
    | some x => exact .inr (Option.eq_none_iff_forall_ne_some.mpr (hnot x · hh))
  | case3 b rest hnot ih =>
    rw [List.cons_append, percentDecode_cons, ih, List.cons_append]
    intro x y behind hpercent heq
    match rest with
    | [] => cases heq
    | [_] =>
      obtain ⟨-, heq⟩ := List.cons.inj heq
      obtain ⟨rfl, -⟩ := List.cons.inj heq
      exact .inr (by decide)
    | _ :: _ :: _ => exact absurd rfl (hnot _ _ _ hpercent)
  | case4 => rfl

theorem percentDecode_ne_nil {bs : Bytes} (h : bs ≠ []) : percentDecode bs ≠ [] := by
  fun_induction percentDecode bs with
  | case4 => exact absurd rfl h
  | _ => exact List.cons_ne_nil _ _

theorem slash_lt_of_mem_continuations {b : UInt8} {range : UInt8 × UInt8} (h : range ∈ continuations b) :
    slashByte < range.1 := by
  unfold continuations at h
  split_ifs at h <;> simp at h <;> grind [slashByte]

/-- No character goes on with a slash. -/
theorem takeContinuations_append_slash {ranges : List (UInt8 × UInt8)}
    (h : ∀ range ∈ ranges, slashByte < range.1) (code used : Nat) (bs : Bytes) :
    takeContinuations ranges code used (bs ++ [slashByte]) = takeContinuations ranges code used bs := by
  fun_induction takeContinuations ranges code used bs with
  | case1 => rw [takeContinuations]
  | case2 range ranges code used =>
    have hlow : ¬range.1 ≤ slashByte := UInt8.not_le.mpr (h range List.mem_cons_self)
    simp [takeContinuations, hlow]
  | case3 code used lo hi ranges b bs hin ih =>
    rw [List.cons_append, takeContinuations, if_pos hin, ih (List.forall_mem_cons.mp h).2]
  | case4 code used lo hi ranges b bs hout => rw [List.cons_append, takeContinuations, if_neg hout]

theorem used_takeContinuations_le (ranges : List (UInt8 × UInt8)) (code used : Nat) (bs : Bytes) :
    (takeContinuations ranges code used bs).2 ≤ used + bs.length := by
  fun_induction takeContinuations ranges code used bs with
  | case3 code used lo hi ranges b bs hin ih => rw [List.length_cons]; omega
  | _ => exact Nat.le_add_right _ _

theorem readChar_append_slash (b : UInt8) (bs : Bytes) : readChar b (bs ++ [slashByte]) = readChar b bs := by
  unfold readChar
  split
  · rfl
  split
  · rfl
  · rw [takeContinuations_append_slash fun range hrange => slash_lt_of_mem_continuations hrange]

theorem used_readChar_le (b : UInt8) (bs : Bytes) : (readChar b bs).2 ≤ bs.length := by
  unfold readChar
  split
  · exact Nat.zero_le _
  split
  · exact Nat.zero_le _
  · next ranges _ =>
    simpa using
      used_takeContinuations_le (continuations b) (leadBits b (continuations b).length) 0 bs

theorem ofUtf8?_append_slash (bs : Bytes) :
    ofUtf8? (bs ++ [slashByte]) = (ofUtf8? bs).map (· ++ ['/']) := by
  fun_induction ofUtf8? bs with
  | case1 =>
    have hread : readChar slashByte [] = (some '/', 0) := by decide
    rw [List.nil_append, ofUtf8?, hread]
    simp [ofUtf8?]
  | case2 b bs c used hread ih =>
    have hle := used_readChar_le b bs
    rw [hread] at hle
    rw [List.cons_append, ofUtf8?, readChar_append_slash, hread]
    dsimp only
    rw [List.drop_append_of_le_length hle, ih]
    simp [Option.map_map, Function.comp_def]
  | case3 b bs used hread =>
    rw [List.cons_append, ofUtf8?, readChar_append_slash, hread]
    rfl

theorem ofUtf8?_ne_nil {bs : Bytes} (h : bs ≠ []) : ofUtf8? bs ≠ some [] := by
  cases bs with
  | nil => exact absurd rfl h
  | cons b bs =>
    rw [ofUtf8?]
    split <;> simp

/-- Below 128 each byte is a character. -/
theorem ofUtf8?_ascii {bs : Bytes} (h : bs.all (· < 0x80) = true) :
    ofUtf8? bs = some (bs.map fun b => Char.ofNat b.toNat) := by
  induction bs with
  | nil => rw [ofUtf8?]; rfl
  | cons b bs ih =>
    rw [List.all_cons, Bool.and_eq_true, decide_eq_true_eq] at h
    have hread : readChar b bs = (some (Char.ofNat b.toNat), 0) := by rw [readChar, if_pos h.1]
    rw [ofUtf8?, hread]
    dsimp only
    rw [List.drop_zero, ih h.2]
    rfl

theorem splitAt_append_slash (cs : List Char) :
    splitAt (· == '/') (cs ++ ['/']) = splitAt (· == '/') cs ++ [[]] := by
  induction cs with
  | nil => rfl
  | cons c cs ih =>
    simp only [List.cons_append, splitAt, ih]
    split
    · rfl
    · cases hsplit : splitAt (· == '/') cs with
      | nil => exact absurd hsplit (splitAt_ne_nil _ cs)
      | cons piece pieces => rfl

end Text

namespace Http.StaticFiles

/-- With or without a slash at its end, a path asks for the same. -/
theorem components?_append_slash (path : List Char) : components? (path ++ ['/']) = components? path := by
  unfold components?
  rw [List.dropWhile_append]
  by_cases hempty : (path.dropWhile (· == '/')).isEmpty = true
  · rw [if_pos hempty, List.isEmpty_iff.mp hempty]
    rfl
  · rw [if_neg hempty]
    rw [List.isEmpty_iff] at hempty
    have hslash : toUtf8 ['/'] = [slashByte] := by decide
    rw [toUtf8_append, hslash, percentDecode_append_slash, ofUtf8?_append_slash]
    have hne := ofUtf8?_ne_nil (percentDecode_ne_nil (toUtf8_ne_nil hempty))
    cases hdecoded : ofUtf8? (percentDecode (toUtf8 (path.dropWhile (· == '/')))) with
    | none => rfl
    | some decoded =>
      obtain ⟨c, cs, rfl⟩ := List.exists_cons_of_ne_nil fun hnil => hne (hnil ▸ hdecoded)
      have hparts := splitAt_append_slash (c :: cs)
      rw [List.cons_append] at hparts
      simp [hparts]

end Http.StaticFiles
end RouteQuery
