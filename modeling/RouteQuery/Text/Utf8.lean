/-! UTF-8 read from and written to lists of bytes. -/
namespace RouteQuery.Text

abbrev Bytes := List UInt8

def toUtf8 (cs : List Char) : Bytes := cs.flatMap String.utf8EncodeChar

/-- For each byte that may follow the lead byte `b`, the least and the greatest one allowed.
Empty for a byte that leads nothing. -/
def continuations (b : UInt8) : List (UInt8 × UInt8) :=
  if b < 0xc2 then []
  else if b < 0xe0 then [(0x80, 0xbf)]
  else if b = 0xe0 then [(0xa0, 0xbf), (0x80, 0xbf)]
  else if b = 0xed then [(0x80, 0x9f), (0x80, 0xbf)]
  else if b < 0xf0 then [(0x80, 0xbf), (0x80, 0xbf)]
  else if b = 0xf0 then [(0x90, 0xbf), (0x80, 0xbf), (0x80, 0xbf)]
  else if b < 0xf4 then [(0x80, 0xbf), (0x80, 0xbf), (0x80, 0xbf)]
  else if b = 0xf4 then [(0x80, 0x8f), (0x80, 0xbf), (0x80, 0xbf)]
  else []

/-- The bits that a lead byte with `n` bytes to follow contributes. -/
def leadBits (b : UInt8) (n : Nat) : Nat := b.toNat % Nat.pow 2 (6 - n)

/-- Reads the continuation bytes of one character: the code point on success, and how many bytes
were well placed in either case. -/
def takeContinuations : List (UInt8 × UInt8) → Nat → Nat → Bytes → Option Nat × Nat
  | [], code, used, _ => (some code, used)
  | _ :: _, _, used, [] => (none, used)
  | (lo, hi) :: ranges, code, used, b :: bs =>
    if lo ≤ b ∧ b ≤ hi then takeContinuations ranges (code * 64 + b.toNat % 64) (used + 1) bs
    else (none, used)

/-- One character after the lead byte `b`, or none where the bytes are ill-formed, and the number
of further bytes that belong to it or to the ill-formed run. -/
def readChar (b : UInt8) (bs : Bytes) : Option Char × Nat :=
  if b < 0x80 then (some (Char.ofNat b.toNat), 0)
  else match continuations b with
    | [] => (none, 0)
    | ranges =>
      let (code, used) := takeContinuations ranges (leadBits b ranges.length) 0 bs
      (code.map Char.ofNat, used)

def ofUtf8? : Bytes → Option (List Char)
  | [] => some []
  | b :: bs =>
    match readChar b bs with
    | (some c, used) => (ofUtf8? (bs.drop used)).map (c :: ·)
    | (none, _) => none
termination_by bs => bs.length
decreasing_by simp only [List.length_cons, List.length_drop]; omega

/-- UTF-8 as characters, with one replacement character for each ill-formed run. -/
def ofUtf8Lossy : Bytes → List Char
  | [] => []
  | b :: bs =>
    let (c, used) := readChar b bs
    c.getD '\ufffd' :: ofUtf8Lossy (bs.drop used)
termination_by bs => bs.length
decreasing_by simp only [List.length_cons, List.length_drop]; omega

def hexValue? (b : UInt8) : Option UInt8 :=
  if 48 ≤ b ∧ b ≤ 57 then some (b - 48)
  else if 65 ≤ b ∧ b ≤ 70 then some (b - 55)
  else if 97 ≤ b ∧ b ≤ 102 then some (b - 87)
  else none

/-- Each `%` followed by two hexadecimal digits becomes the byte they spell; all else stays. -/
def percentDecode : Bytes → Bytes
  | 37 :: h :: l :: rest =>
    match hexValue? h, hexValue? l with
    | some x, some y => (x * 16 + y) :: percentDecode rest
    | _, _ => 37 :: percentDecode (h :: l :: rest)
  | b :: rest => b :: percentDecode rest
  | [] => []

end RouteQuery.Text
