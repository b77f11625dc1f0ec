import Mathlib
import RouteQuery.Http.BodyParser
import RouteQuery.Proofs.AsciiBytes
import RouteQuery.Proofs.Outcomes

/-! Strict JSON bodies. The first byte that is not blank tells whether a body that can be read is an
object or an array. -/
namespace RouteQuery
open Text

namespace Json

/-- Objects and arrays. -/
def isContainer : Json → Bool
  | .arr _ | .obj _ => true
  | _ => false

/-- The tokens that open a container. -/
def Token.opens : Token → Bool
  | .openBracket | .openBrace => true
  | _ => false

/-- What a token holds is a scalar. -/
def Token.Plain (t : Token) : Prop := ∀ v, t = .value v → v.isContainer = false

/-- Once a container is open, the value that is read in the end is one. -/
theorem isContainer_of_open :
    (∀ stack ts, stack ≠ [] ∨ (∃ t ∈ ts.head?, t.opens = true) → ∀ v, value? stack ts = some v →
        v.isContainer = true) ∧
      ∀ v stack ts, stack ≠ [] ∨ v.isContainer = true → ∀ w, after? v stack ts = some w →
        w.isContainer = true := by
  apply value?.mutual_induct
  case case1 =>
    intro stack v rest ih hopen w h
    rw [value?] at h
    exact ih (hopen.imp_right (by simp [Token.opens])) w h
  case case2 | case4 =>
    intro stack rest hdepth ih _ w h
    rw [value?, if_pos hdepth] at h
    exact ih (.inr rfl) w h
  case case3 | case5 =>
    intro stack rest hdepth _ w h
    rw [value?, if_neg hdepth] at h
    cases h
  case case6 =>
    intro stack rest hclose hdepth ih _ w h
    rw [value?.eq_4 _ _ hclose, if_pos hdepth] at h
    exact ih (.inl (by simp)) w h
  case case7 =>
    intro stack rest hclose hdepth _ w h
    rw [value?.eq_4 _ _ hclose, if_neg hdepth] at h
    cases h
  case case8 =>
    intro stack k rest hdepth ih _ w h
    rw [value?, if_pos hdepth] at h
    exact ih (.inl (by simp)) w h
  case case9 =>
    intro stack k rest hdepth _ w h
    rw [value?, if_neg hdepth] at h
    cases h
  case case10 | case16 =>
    intros
    simp_all [value?, after?]
  case case11 =>
    intro v hv w h
    rw [after?] at h
    obtain rfl := Option.some.inj h
    exact hv.resolve_left (by simp)
  case case12 =>
    intro v items stack rest ih _ w h
    rw [after?] at h
    exact ih (.inl (by simp)) w h
  case case13 =>
    intro v items stack rest ih _ w h
    rw [after?] at h
    exact ih (.inr rfl) w h
  case case14 =>
    intro v members key stack k rest ih _ w h
    rw [after?] at h
    exact ih (.inl (by simp)) w h
  case case15 =>
    intro v members key stack rest ih _ w h
    rw [after?] at h
    exact ih (.inr rfl) w h

theorem isContainer_eq_opens {t : Json.Token} {ts : List Json.Token} {v : Json} (ht : t.Plain)
    (h : value? [] (t :: ts) = some v) : v.isContainer = t.opens := by
  cases t with
  | openBracket | openBrace => exact isContainer_of_open.1 _ _ (.inr ⟨_, rfl, rfl⟩) v h
  | value w =>
    cases ts with
    | nil =>
      rw [value?, after?] at h
      obtain rfl := Option.some.inj h
      exact ht w rfl
    | cons => simp [value?, after?] at h
  | closeBracket | closeBrace | comma | colon => simp [value?] at h

/-! ### The first token -/

/-- Where a text begins with a token, blanks apart, and which character that token starts with. -/
inductive Begins : List Char → Json.Token → Prop
  | blank {c : Char} {cs : List Char} {t : Json.Token} (hc : isBlank c = true) (h : Begins cs t) :
      Begins (c :: cs) t
  | token {c : Char} (cs : List Char) {t : Json.Token} (hc : isAsciiBlank c = false) (ht : t.Plain)
      (hopens : t.opens = (c == '{' || c == '[')) : Begins (c :: cs) t

theorem Begins.plain {cs : List Char} {t : Json.Token} (h : Begins cs t) : t.Plain := by
  induction h with
  | blank _ _ ih => exact ih
  | token _ _ ht _ => exact ht

theorem begins_scalar {c : Char} (cs : List Char) {v : Json} (hc : isAsciiBlank c = false)
    (hopens : (c == '{' || c == '[') = false) (hv : v.isContainer = false) :
    Begins (c :: cs) (.value v) :=
  .token cs hc (by rintro _ ⟨⟩; exact hv) hopens.symm

theorem of_isDigit {c : Char} (h : c.isDigit = true) :
    isAsciiBlank c = false ∧ (c == '{' || c == '[') = false := by
  have hne : ∀ d : Char, d.isDigit = false → (c == d) = false := by
    intro d hd
    rw [beq_eq_false_iff_ne]
    rintro rfl
    rw [h] at hd
    cases hd
  constructor
  · simp [isAsciiBlank, hne]
  · simp [hne]

theorem head_of_map_cons {t u : Json.Token} {ts : List Json.Token} {rest : Option (List Json.Token)}
    (h : rest.map (u :: ·) = some (t :: ts)) : t = u := by
  obtain ⟨_, -, hcons⟩ := Option.map_eq_some_iff.mp h
  exact (List.cons.inj hcons).1.symm

theorem begins_of_tokens? {fuel : Nat} {cs : List Char} {t : Json.Token} {ts : List Json.Token}
    (h : tokens? fuel cs = some (t :: ts)) : Begins cs t := by
  fun_induction tokens? fuel cs with
  | case1 | case2 | case16 => simp at h
  | case3 fuel c cs hblank ih => exact .blank hblank (ih h)
  | case4 | case5 | case6 | case7 | case8 | case9 =>
    obtain rfl := head_of_map_cons h
    exact .token _ (by decide) (by rintro _ ⟨⟩) (by decide)
  | case10 | case11 =>
    obtain ⟨_, -, hrest⟩ := Option.bind_eq_some_iff.mp h
    obtain rfl := head_of_map_cons hrest
    exact begins_scalar _ (by decide) (by decide) rfl
  | case12 fuel c cs _ _ _ _ _ _ _ _ _ hdigit =>
    obtain ⟨_, -, hrest⟩ := Option.bind_eq_some_iff.mp h
    obtain rfl := head_of_map_cons hrest
    obtain ⟨hblank, hopens⟩ := of_isDigit hdigit
    exact begins_scalar _ hblank hopens rfl
  | case13 fuel c cs _ _ _ _ _ _ _ _ _ _ rest hword | case14 fuel c cs _ _ _ _ _ _ _ _ _ _ rest hword
  | case15 fuel c cs _ _ _ _ _ _ _ _ _ _ rest hword =>
    obtain ⟨rfl, rfl⟩ := List.cons.inj hword
    obtain rfl := head_of_map_cons h
    exact begins_scalar _ (by decide) (by decide) rfl

/-- A text that spells a value begins with the bracket of a container or with a scalar. -/
theorem exists_begins_of_parse? {cs : List Char} {v : Json} (h : parse? cs = some v) :
    ∃ t, Begins cs t ∧ v.isContainer = t.opens := by
  obtain ⟨ts, hts, hv⟩ := Option.bind_eq_some_iff.mp h
  cases ts with
  | nil => simp [value?] at hv
  | cons t ts =>
    have hbegins := begins_of_tokens? hts
    exact ⟨t, hbegins, isContainer_eq_opens hbegins.plain hv⟩

end Json

namespace Http.BodyParser
open Json

/-! ### The first byte -/

/-- The bytes that open an object and an array. -/
def opensContainer (b : UInt8) : Bool := b == 123 || b == 91

theorem beq_congr {b b' : UInt8} {c c' : Char} (h : b.toNat = c.toNat) (h' : b'.toNat = c'.toNat) :
    (b == b') = (c == c') := by
  rw [Bool.eq_iff_iff, beq_iff_eq, beq_iff_eq, ← UInt8.toNat_inj, ← Char.toNat_inj, h, h']

theorem isBlankByte_eq {b : UInt8} {c : Char} (h : b.toNat = c.toNat) : isBlankByte b = isAsciiBlank c := by
  have hbyte (x : UInt8) (d : Char) (hd : x.toNat = d.toNat) : (b == x) = (c == d) := beq_congr h hd
  rw [isBlankByte, isAsciiBlank, hbyte 32 ' ' rfl, hbyte 9 '\t' rfl, hbyte 10 '\n' rfl, hbyte 12 '\x0c' rfl,
    hbyte 13 '\r' rfl]

theorem opensContainer_eq {b : UInt8} {c : Char} (h : b.toNat = c.toNat) :
    opensContainer b = (c == '{' || c == '[') := by
  have hbyte (x : UInt8) (d : Char) (hd : x.toNat = d.toNat) : (b == x) = (c == d) := beq_congr h hd
  rw [opensContainer, hbyte 123 '{' rfl, hbyte 91 '[' rfl]

/-- Blanks between tokens are blank for the body as well. -/
theorem isAsciiBlank_of_isBlank {c : Char} (h : Json.isBlank c = true) :
    isAsciiBlank c = true ∧ c.toNat ≠ 0 ∧ c.toNat < 128 := by
  simp only [Json.isBlank, Bool.or_eq_true, beq_iff_eq] at h
  rcases h with ((rfl | rfl) | rfl) | rfl <;> decide

theorem of_beyond_ascii {b : UInt8} (h : 128 ≤ b.toNat) :
    isBlankByte b = false ∧ opensContainer b = false := by
  have hne (x : UInt8) (hx : x.toNat < 128) : (b == x) = false := by
    rw [beq_eq_false_iff_ne]
    rintro rfl
    omega
  simp [isBlankByte, opensContainer, hne]

/-- The first byte that is not blank belongs to the first token. -/
theorem firstByte_of_begins {cs : List Char} {t : Json.Token} (h : Begins cs t) {bytes : Bytes}
    (hbytes : ofUtf8? bytes = some cs) :
    ∃ b, bytes.find? (!isBlankByte ·) = some b ∧ opensContainer b = t.opens := by
  induction h generalizing bytes with
  | blank hc _ ih =>
    obtain ⟨hblank, hpos, hascii⟩ := isAsciiBlank_of_isBlank hc
    obtain ⟨b, rest, rfl, ⟨hb, hrest⟩ | ⟨-, hzero | hbeyond⟩⟩ := exists_of_ofUtf8?_cons hbytes
    · obtain ⟨first, hfirst, hopens⟩ := ih hrest
      rw [← isBlankByte_eq hb] at hblank
      exact ⟨first, by simp [hblank, hfirst], hopens⟩
    · exact absurd hzero hpos
    · omega
  | @token c cs t hc _ hopens =>
    obtain ⟨b, rest, rfl, ⟨hb, -⟩ | ⟨hb, hbeyond⟩⟩ := exists_of_ofUtf8?_cons hbytes
    · rw [← isBlankByte_eq hb] at hc
      exact ⟨b, by simp [hc], (opensContainer_eq hb).trans hopens.symm⟩
    · obtain ⟨hblank, hplain⟩ := of_beyond_ascii hb
      have hbracket : (c == '{' || c == '[') = false := by
        simp only [Bool.or_eq_false_iff, beq_eq_false_iff_ne]
        constructor <;> rintro rfl <;> revert hbeyond <;> decide
      exact ⟨b, by simp [hblank], by rw [hplain, hopens, hbracket]⟩

theorem readJson_of_blank {bytes : Bytes} (h : ∀ b ∈ bytes, isBlankByte b = true) (strict : Bool) :
    readJson strict bytes = .ok (.obj []) := by
  have hnone : bytes.find? (!isBlankByte ·) = none := List.find?_eq_none.mpr fun b hb => by simp [h b hb]
  rw [readJson, hnone]

/-- A body that is not blank is read in the same way in both modes, but its first byte can keep it from
being read in strict mode. -/
theorem readJson_eq_ok_iff {bytes : Bytes} {b : UInt8} (h : bytes.find? (!isBlankByte ·) = some b)
    (strict : Bool) (v : Json) : readJson strict bytes = .ok v ↔
      (strict = true → opensContainer b = true) ∧ (ofUtf8? bytes).bind Json.parse? = some v := by
  have hrefused : (strict && b != 123 && b != 91) = (strict && !opensContainer b) := by
    simp [opensContainer, bne, Bool.and_assoc]
  rw [readJson, h]
  simp only [hrefused]
  cases hread : (ofUtf8? bytes).bind Json.parse? <;> cases strict <;> cases opensContainer b <;> simp

theorem isContainer_of_bind {bytes : Bytes} {b : UInt8} (h : bytes.find? (!isBlankByte ·) = some b)
    {v : Json} (hv : (ofUtf8? bytes).bind Json.parse? = some v) : v.isContainer = opensContainer b := by
  obtain ⟨cs, hbytes, hparse⟩ := Option.bind_eq_some_iff.mp hv
  obtain ⟨t, hbegins, hcontainer⟩ := exists_begins_of_parse? hparse
  obtain ⟨b', hb', hopens⟩ := firstByte_of_begins hbegins hbytes
  obtain rfl := Option.some.inj (h.symm.trans hb')
  rw [hcontainer, hopens]

theorem readJson_strict_iff (bytes : Bytes) (v : Json) :
    readJson true bytes = .ok v ↔ readJson false bytes = .ok v ∧ v.isContainer = true := by
  cases hfirst : bytes.find? (!isBlankByte ·) with
  | none =>
    have hblank : ∀ b ∈ bytes, isBlankByte b = true := by simpa using hfirst
    rw [readJson_of_blank hblank, readJson_of_blank hblank]
    refine ⟨fun h => ⟨h, ?_⟩, And.left⟩
    rw [← Except.ok.inj h]
    rfl
  | some b =>
    rw [readJson_eq_ok_iff hfirst, readJson_eq_ok_iff hfirst]
    constructor
    · rintro ⟨hopens, hv⟩
      exact ⟨⟨by simp, hv⟩, (isContainer_of_bind hfirst hv).trans (hopens rfl)⟩
    · rintro ⟨⟨-, hv⟩, hcontainer⟩
      exact ⟨fun _ => (isContainer_of_bind hfirst hv).symm.trans hcontainer, hv⟩

/-- A JSON parser that is strict or not. -/
def jsonParser (options : BodyOptions) (strict : Bool) : BodyParser := ⟨.json, { options with strict }⟩

theorem read_jsonParser_iff {options : BodyOptions} {strict : Bool} {bytes : Bytes} {v : Json} :
    (jsonParser options strict).read bytes = .ok (.json v) ↔ readJson strict bytes = .ok v := by
  have hread : (jsonParser options strict).read bytes = (readJson strict bytes).map .json := rfl
  rw [hread]
  constructor
  · intro h
    obtain ⟨w, hw, hjson⟩ := exists_of_map_eq_ok h
    rwa [← ParsedBody.json.inj hjson]
  · intro h
    rw [h]
    rfl

/-- Strict reading is lenient reading restricted to objects and arrays. Blank bodies are the empty object
either way. -/
theorem strict_reads_containers (options : BodyOptions) (bytes : Bytes) :
    (∀ v, (jsonParser options true).read bytes = .ok (.json v) ↔
      (jsonParser options false).read bytes = .ok (.json v) ∧ v.isContainer = true) ∧
    ((∀ b ∈ bytes, isBlankByte b = true) → ∀ strict,
      (jsonParser options strict).read bytes = .ok (.json (.obj []))) := by
  constructor
  · intro v
    rw [read_jsonParser_iff, read_jsonParser_iff, readJson_strict_iff]
  · intro hblank strict
    exact read_jsonParser_iff.mpr (readJson_of_blank hblank strict)

/-- A form feed is blank here, though JSON has no use for it. A number is read in lenient mode only. -/
theorem strict_reads_formFeed : (∀ b ∈ ([12, 32] : Bytes), isBlankByte b = true) ∧
    (∀ strict, (jsonParser {} strict).read [12, 32] = .ok (.json (.obj []))) ∧
    (jsonParser {} false).read [52, 50] = .ok (.json (.ofNat 42)) ∧
    (jsonParser {} true).read [52, 50] ≠ .ok (.json (.ofNat 42)) := by
  have hblank : ∀ b ∈ ([12, 32] : Bytes), isBlankByte b = true := List.all_eq_true.mp (by decide)
  have hnumber : readJson false [52, 50] = .ok (.ofNat 42) := by cbv
  refine ⟨hblank, (strict_reads_containers {} [12, 32]).2 hblank, read_jsonParser_iff.mpr hnumber, ?_⟩
  intro hstrict
  have hcontainer := (((strict_reads_containers {} [52, 50]).1 _).mp hstrict).2
  cases hcontainer

end Http.BodyParser
end RouteQuery
