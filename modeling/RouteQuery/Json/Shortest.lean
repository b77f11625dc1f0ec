import RouteQuery.Json.Binary64

/-! The shortest decimal text that reads back as a given number. -/
namespace RouteQuery.Json.Binary64

def twos (m : Nat) (e : Int) : Nat × Nat :=
  if e ≥ 0 then (m * Nat.pow 2 e.toNat, 1) else (m, Nat.pow 2 (-e).toNat)

def tens (d : Nat) (p : Int) : Nat × Nat :=
  if p ≥ 0 then (d * Nat.pow 10 p.toNat, 1) else (d, Nat.pow 10 (-p).toNat)

/-- Whether `d * 10 ^ p` rounds to `m * 2 ^ e`. Below a power of two the numbers lie twice as
dense; the ends of the interval belong to it when the mantissa is even. -/
def roundsTo (m : Nat) (e : Int) (d : Nat) (p : Int) : Bool :=
  let low := twos (if m = hiddenBit ∧ e > -1074 then 4 * m - 1 else 4 * m - 2) (e - 2)
  let high := twos (4 * m + 2) (e - 2)
  let x := tens d p
  if m % 2 = 0 then low.1 * x.2 ≤ x.1 * low.2 && x.1 * high.2 ≤ high.1 * x.2
  else low.1 * x.2 < x.1 * low.2 && x.1 * high.2 < high.1 * x.2

/-- Of the two multiples of `10 ^ p` around `m * 2 ^ e`, those that round to it, the nearer
first; a tie goes to the even one. -/
def neighbours (m : Nat) (e p : Int) : List Nat :=
  let v := twos m e
  let unit := tens 1 p
  let (n, d) := (v.1 * unit.2, v.2 * unit.1)
  let below := n / d
  let twice := 2 * (n % d)
  let order :=
    if twice < d ∨ (twice = d ∧ below % 2 = 0) then [below, below + 1] else [below + 1, below]
  order.filter fun x => roundsTo m e x p

/-- How often `num` has to be multiplied by ten to reach `den`, counted up to `fuel`. -/
def tenfolds (den : Nat) : Nat → Nat → Nat
  | 0, _ => 0
  | fuel + 1, num => if num ≥ den then 0 else tenfolds den fuel (num * 10) + 1

/-- The power of ten that the leading digit of `num / den` counts. -/
def leadingPower (num den : Nat) : Int :=
  if num ≥ den then (Nat.toDigits 10 (num / den)).length - 1 else -(tenfolds den 400 num : Int)

/-- `d * 10 ^ p` without the zeros that end `d`, at most `fuel` of them. -/
def dropZeros : Nat → Nat → Int → Nat × Int
  | 0, d, p => (d, p)
  | fuel + 1, d, p => if d % 10 = 0 then dropZeros fuel (d / 10) (p + 1) else (d, p)

/-- `(d, p)` with `d * 10 ^ p` rounding to `m * 2 ^ e`, `d` of as few digits as possible and
then as near as possible. Seventeen digits always suffice. -/
def shortest (m : Nat) (e : Int) : Nat × Int :=
  let v := twos m e
  let top := leadingPower v.1 v.2
  let found := (List.range 17).findSome? fun (more : Nat) =>
    let p : Int := top - (more : Nat)
    (neighbours m e p).head?.map fun d => (d, p)
  let (d, p) := found.getD (0, 0)
  dropZeros 17 d p

def withPoint (digits : List Char) (n : Nat) : List Char :=
  digits.take n ++ '.' :: digits.drop n

/-- Positional from 1e-5 to below 1e16, always with a point; with an exponent otherwise. -/
def render : Binary64 → List Char
  | .finite negative m e =>
    let sign := if negative then ['-'] else []
    if m = 0 then sign ++ "0.0".toList
    else
      let (d, p) := shortest m e
      let digits := Nat.toDigits 10 d
      let leading : Int := p + digits.length - 1
      sign ++
        if -5 ≤ leading ∧ leading ≤ 15 then
          if p ≥ 0 then digits ++ List.replicate p.toNat '0' ++ ".0".toList
          else if leading ≥ 0 then withPoint digits (leading.toNat + 1)
          else "0.".toList ++ List.replicate (-leading - 1).toNat '0' ++ digits
        else
          let mantissa := if digits.length = 1 then digits else withPoint digits 1
          let mark := if leading < 0 then "e-".toList else "e+".toList
          mantissa ++ mark ++ Nat.toDigits 10 leading.natAbs
  | .infinite negative => if negative then "-inf".toList else "inf".toList
  | .nan => "NaN".toList

end RouteQuery.Json.Binary64
