/-! Binary floating point with 53 bits of precision, in exact integer arithmetic. -/
namespace RouteQuery.Json

/-- `finite s m e` is `m * 2 ^ e`, negated when `s` holds. Results of `ofRatio` have
`m < 2 ^ 53` and the least exponent from -1074 on that allows it. -/
inductive Binary64 where
  | finite (negative : Bool) (mantissa : Nat) (exponent : Int)
  | infinite (negative : Bool)
  | nan
  deriving DecidableEq, Repr

namespace Binary64

/-- The least mantissa of full precision, 2 ^ 52. -/
def hiddenBit : Nat := 4503599627370496

def zero (negative : Bool) : Binary64 := .finite negative 0 (-1074)

/-- `num / den` in units of `2 ^ e`, as a fraction of natural numbers. -/
def scale (num den : Nat) (e : Int) : Nat × Nat :=
  if e ≥ 0 then (num, den * Nat.pow 2 e.toNat) else (num * Nat.pow 2 (-e).toNat, den)

/-- The nearest integer to `num / den`; a half goes to the even neighbour. -/
def roundDiv (num den : Nat) : Nat :=
  let q := num / den
  let r := num % den
  if 2 * r < den then q else if 2 * r > den then q + 1 else q + q % 2

/-- The number nearest to `num / den`, of two equally near the one with the even mantissa. -/
def ofRatio (negative : Bool) (num den : Nat) : Binary64 :=
  if num = 0 then zero negative
  else
    let guess : Int := num.log2 - den.log2 - 52
    let (n, d) := scale num den guess
    let e := max (if n / d < hiddenBit then guess - 1 else guess) (-1074)
    let (n, d) := scale num den e
    let m := roundDiv n d
    let (m, e) := if m = 2 * hiddenBit then (hiddenBit, e + 1) else (m, e)
    if e > 971 then .infinite negative else .finite negative m e

def toRatio : Binary64 → Nat × Nat
  | .finite _ m e => if e ≥ 0 then (m * Nat.pow 2 e.toNat, 1) else (m, Nat.pow 2 (-e).toNat)
  | _ => (0, 1)

def isNegative : Binary64 → Bool
  | .finite s _ _ => s
  | .infinite s => s
  | .nan => false

def isZero : Binary64 → Bool
  | .finite _ m _ => m == 0
  | _ => false

def isFinite : Binary64 → Bool
  | .finite .. => true
  | _ => false

def mul (a b : Binary64) : Binary64 :=
  let (n, d) := a.toRatio
  let (n', d') := b.toRatio
  ofRatio (a.isNegative != b.isNegative) (n * n') (d * d')

def div (a b : Binary64) : Binary64 :=
  let (n, d) := a.toRatio
  let (n', d') := b.toRatio
  ofRatio (a.isNegative != b.isNegative) (n * d') (d * n')

def neg : Binary64 → Binary64
  | .finite s m e => .finite (!s) m e
  | .infinite s => .infinite (!s)
  | .nan => .nan

/-- `digits * 10 ^ exponent`, rounded once. Exponents beyond every finite number are not
computed with. -/
def ofDecimal (negative : Bool) (digits : Nat) (exponent : Int) : Binary64 :=
  if digits = 0 then zero negative
  else if exponent > 400 then .infinite negative
  else if exponent ≥ 0 then ofRatio negative (digits * Nat.pow 10 exponent.toNat) 1
  else if exponent + digits.log2 < -1200 then zero negative
  else ofRatio negative digits (Nat.pow 10 (-exponent).toNat)

/-- The integer part of `unit` times the number, cut at zero and at `bound`. -/
def floorTimes (unit bound : Nat) : Binary64 → Nat
  | .finite false m e =>
    let (n, d) := toRatio (.finite false m e)
    min (n * unit / d) bound
  | .infinite false => bound
  | _ => 0

end Binary64
end RouteQuery.Json
