import Mathlib.Tactic.Ring
import RouteQuery.Text.Utf8

/-! ASCII in UTF-8. A character below 128 stands for the byte of its number, and no other character
begins with such a byte. -/
namespace RouteQuery.Text

theorem eq_of_ofNat_eq {n : Nat} {c : Char} (h : Char.ofNat n = c) (hc : c.toNat ≠ 0) : n = c.toNat := by
  by_cases hvalid : n.isValidChar
  · have hchar : Char.ofNat n = Char.ofNatAux n hvalid := dif_pos hvalid
    rw [← h, hchar]
    rfl
  · have hzero : Char.ofNat n = Char.ofNat 0 := dif_neg hvalid
    rw [← h, hzero] at hc
    exact absurd rfl hc

/-- The bits read so far stay, and those of further bytes come in below them. -/
theorem le_of_takeContinuations {ranges : List (UInt8 × UInt8)} {code used n used' : Nat} {bs : Bytes}
    (h : takeContinuations ranges code used bs = (some n, used')) : code * 64 ^ ranges.length ≤ n := by
  fun_induction takeContinuations ranges code used bs with
  | case1 code used =>
    obtain ⟨hcode, -⟩ := Prod.mk.inj h
    simp [Option.some.inj hcode]
  | case2 | case4 => cases h
  | case3 lo hi ranges code used b bs hin ih =>
    calc code * 64 ^ (ranges.length + 1)
        = code * 64 * 64 ^ ranges.length := by ring
      _ ≤ (code * 64 + b.toNat % 64) * 64 ^ ranges.length := Nat.mul_le_mul_right _ (Nat.le_add_right ..)
      _ ≤ n := ih h

/-- The lead byte and the byte behind it already amount to more than ASCII: overlong forms are
excluded by the range of the second byte. -/
theorem beyond_ascii_of_continuations {b lo hi : UInt8} {ranges : List (UInt8 × UInt8)}
    (h : continuations b = (lo, hi) :: ranges) {x : UInt8} (hlo : lo ≤ x) (hhi : x ≤ hi) :
    128 ≤ (leadBits b (ranges.length + 1) * 64 + x.toNat % 64) * 64 ^ ranges.length := by
  rw [UInt8.le_iff_toNat_le] at hlo hhi
  unfold continuations at h
  unfold leadBits
  split_ifs at h <;> simp only [List.cons.injEq, Prod.mk.injEq] at h <;>
    obtain ⟨⟨rfl, rfl⟩, rfl⟩ := h <;>
    simp [UInt8.lt_iff_toNat_lt, ← UInt8.toNat_inj] at * <;> omega

theorem beyond_ascii_of_takeContinuations {b : UInt8} (hb : continuations b ≠ []) {n used : Nat} {bs : Bytes}
    (h : takeContinuations (continuations b) (leadBits b (continuations b).length) 0 bs = (some n, used)) :
    128 ≤ n := by
  obtain ⟨⟨lo, hi⟩, ranges, hranges⟩ := List.exists_cons_of_ne_nil hb
  rw [hranges] at h
  cases bs with
  | nil => cases h
  | cons x bs =>
    rw [takeContinuations] at h
    split at h
    · next hin => exact (beyond_ascii_of_continuations hranges hin.1 hin.2).trans (le_of_takeContinuations h)
    · cases h

/-- A character is its byte, or neither is ASCII. The character of number zero stands for code points
that are none. -/
theorem of_readChar {b : UInt8} {bs : Bytes} {c : Char} {used : Nat} (h : readChar b bs = (some c, used)) :
    b.toNat = c.toNat ∧ used = 0 ∨ 128 ≤ b.toNat ∧ (c.toNat = 0 ∨ 128 ≤ c.toNat) := by
  unfold readChar at h
  split at h
  · next hb =>
    obtain ⟨hchar, rfl⟩ := Prod.mk.inj h
    have hvalid : b.toNat.isValidChar := .inl (by have := b.toNat_lt; omega)
    have hofNat : Char.ofNat b.toNat = Char.ofNatAux b.toNat hvalid := dif_pos hvalid
    rw [← Option.some.inj hchar, hofNat]
    exact .inl ⟨rfl, rfl⟩
  · next hb =>
    rw [UInt8.not_lt, UInt8.le_iff_toNat_le] at hb
    refine .inr ⟨hb, ?_⟩
    split at h
    · cases h
    · next hne =>
      obtain ⟨hchar, -⟩ := Prod.mk.inj h
      obtain ⟨n, hn, hofNat⟩ := Option.map_eq_some_iff.mp hchar
      have hbeyond := beyond_ascii_of_takeContinuations hne (Prod.ext hn rfl)
      rcases Nat.eq_zero_or_pos c.toNat with hzero | hpos
      · exact .inl hzero
      · exact .inr (eq_of_ofNat_eq hofNat (Nat.ne_of_gt hpos) ▸ hbeyond)

/-- The first character of a text is its first byte, or neither is ASCII. -/
theorem exists_of_ofUtf8?_cons {c : Char} {cs : List Char} {bytes : Bytes}
    (h : ofUtf8? bytes = some (c :: cs)) : ∃ b rest, bytes = b :: rest ∧
      (b.toNat = c.toNat ∧ ofUtf8? rest = some cs ∨ 128 ≤ b.toNat ∧ (c.toNat = 0 ∨ 128 ≤ c.toNat)) := by
  cases bytes with
  | nil => simp [ofUtf8?] at h
  | cons b rest =>
    refine ⟨b, rest, rfl, ?_⟩
    rw [ofUtf8?] at h
    split at h
    · next d used hread =>
      obtain ⟨ds, hds, hcons⟩ := Option.map_eq_some_iff.mp h
      obtain ⟨rfl, rfl⟩ := List.cons.inj hcons
      rcases of_readChar hread with ⟨hb, rfl⟩ | hbeyond
      · exact .inl ⟨hb, hds⟩
      · exact .inr hbeyond
    · cases h

end RouteQuery.Text
