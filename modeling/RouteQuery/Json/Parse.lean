import RouteQuery.Json.Basic

/-! JSON text as a value. Every fault is the same to the callers, so the reader only tells
whether there is one. -/
namespace RouteQuery.Json

def isBlank (c : Char) : Bool := c == ' ' || c == '\t' || c == '\n' || c == '\r'

def digit? (c : Char) : Option Nat := if c.isDigit then some (c.toNat - 48) else none

def hexDigit? (c : Char) : Option Nat :=
  if c.isDigit then some (c.toNat - 48)
  else if 'a' ≤ c ∧ c ≤ 'f' then some (c.toNat - 87)
  else if 'A' ≤ c ∧ c ≤ 'F' then some (c.toNat - 55)
  else none

/-- The largest significand that is read digit by digit. -/
def maxSignificand : Nat := 18446744073709551615

/-- `significand * 10 ^ exponent` by one multiplication or by divisions by at most `1e308`, each
of them rounded. None when the result is too large. -/
def scaleByTens (fuel : Nat) (f : Binary64) (exponent : Int) : Option Binary64 :=
  match fuel with
  | 0 => some f
  | fuel + 1 =>
    if exponent.natAbs ≤ 308 then
      let power := Binary64.ofRatio false (Nat.pow 10 exponent.natAbs) 1
      if exponent ≥ 0 then
        let x := f.mul power
        if x.isFinite then some x else none
      else some (f.div power)
    else if f.isZero then some f
    else if exponent ≥ 0 then none
    else scaleByTens fuel (f.div (Binary64.ofRatio false (Nat.pow 10 308) 1)) (exponent + 308)

/-- Three divisions take every significand to zero. -/
def floatOfParts (negative : Bool) (significand : Nat) (exponent : Int) : Option Number :=
  (scaleByTens 4 (Binary64.ofRatio false significand 1) exponent).map fun x =>
    .float (if negative then x.neg else x)

/-- Appends digits to a significand while it fits. The digits from the first that does not fit
on only count: the results are the significand, how many digits were appended and how many
were left out. -/
def takeDigits : Nat → List Char → Nat × Nat × Nat
  | s, [] => (s, 0, 0)
  | s, c :: cs =>
    let next := s * 10 + (c.toNat - 48)
    if next ≤ maxSignificand then
      let (t, taken, left) := takeDigits next cs
      (t, taken + 1, left)
    else (s, 0, cs.length + 1)

/-- The exponent after `e` or `E`: an optional sign and at least one digit. -/
def exponent? (cs : List Char) : Option (Int × List Char) :=
  let (negative, cs) := match cs with
    | '-' :: rest => (true, rest)
    | '+' :: rest => (false, rest)
    | _ => (false, cs)
  let digits := cs.takeWhile Char.isDigit
  if digits.isEmpty then none
  else
    let n : Nat := digits.foldl (fun n c => n * 10 + (c.toNat - 48)) 0
    some (if negative then -n else n, cs.drop digits.length)

/-- A number after its sign, and what follows it. -/
def number? (negative : Bool) (cs : List Char) : Option (Number × List Char) := do
  let whole := cs.takeWhile Char.isDigit
  if whole.isEmpty then none
  if whole.head? = some '0' ∧ whole.length > 1 then none
  let rest := cs.drop whole.length
  let (significand, _, left) := takeDigits 0 whole
  let (significand, exponent, fractional, rest) ← match rest with
    | '.' :: tail =>
      let part := tail.takeWhile Char.isDigit
      if part.isEmpty then none
      else
        -- digits after the point go on from the significand, also when some were left out
        let (s, taken, _) := takeDigits significand part
        some (s, (left : Int) - taken, true, tail.drop part.length)
    | _ => some (significand, (left : Int), left > 0, rest)
  match rest with
  | c :: tail =>
    if c = 'e' ∨ c = 'E' then
      let (e, rest) ← exponent? tail
      let x ← floatOfParts negative significand (exponent + e)
      some (x, rest)
    else finish significand exponent fractional rest
  | [] => finish significand exponent fractional rest
where
  finish (significand : Nat) (exponent : Int) (fractional : Bool) (rest : List Char) :
      Option (Number × List Char) :=
    if fractional then (floatOfParts negative significand exponent).map (·, rest)
    else if negative then
      if significand = 0 ∨ significand > 9223372036854775808 then
        some (.float (Binary64.ofRatio false significand 1).neg, rest)
      else some (.int (-significand), rest)
    else some (.int significand, rest)

def hex4? : List Char → Option (Nat × List Char)
  | a :: b :: c :: d :: rest => do
    let a ← hexDigit? a
    let b ← hexDigit? b
    let c ← hexDigit? c
    let d ← hexDigit? d
    some (((a * 16 + b) * 16 + c) * 16 + d, rest)
  | _ => none

/-- The character of a `\\u` escape. A surrogate counts only as half of a pair. -/
def unicodeEscape? (cs : List Char) : Option (Char × List Char) := do
  let (n, rest) ← hex4? cs
  if 0xdc00 ≤ n ∧ n ≤ 0xdfff then none
  else if 0xd800 ≤ n ∧ n ≤ 0xdbff then
    match rest with
    | '\\' :: 'u' :: rest =>
      let (m, rest) ← hex4? rest
      if 0xdc00 ≤ m ∧ m ≤ 0xdfff then
        some (Char.ofNat (0x10000 + (n - 0xd800) * 0x400 + (m - 0xdc00)), rest)
      else none
    | _ => none
  else some (Char.ofNat n, rest)

/-- The characters up to the closing quote, collected in reverse in `acc`. -/
def string? : Nat → List Char → List Char → Option (String × List Char)
  | 0, _, _ => none
  | _ + 1, _, [] => none
  | fuel + 1, acc, c :: cs =>
    if c = '"' then some (String.ofList acc.reverse, cs)
    else if c.toNat < 0x20 then none
    else if c = '\\' then
      match cs with
      | 'u' :: rest => do
        let (c, rest) ← unicodeEscape? rest
        string? fuel (c :: acc) rest
      | e :: rest =>
        match "\"\\/bfnrt".toList.idxOf? e with
        | some i => string? fuel ("\"\\/\x08\x0c\n\r\t".toList.getD i e :: acc) rest
        | none => none
      | [] => none
    else string? fuel (c :: acc) cs

inductive Token where
  | openBracket | closeBracket | openBrace | closeBrace | comma | colon
  | value (v : Json)

/-- The tokens of a text; a value here is a scalar. -/
def tokens? : Nat → List Char → Option (List Token)
  | _, [] => some []
  | 0, _ => none
  | fuel + 1, c :: cs =>
    if isBlank c then tokens? fuel cs
    else if c = '[' then (tokens? fuel cs).map (.openBracket :: ·)
    else if c = ']' then (tokens? fuel cs).map (.closeBracket :: ·)
    else if c = '{' then (tokens? fuel cs).map (.openBrace :: ·)
    else if c = '}' then (tokens? fuel cs).map (.closeBrace :: ·)
    else if c = ',' then (tokens? fuel cs).map (.comma :: ·)
    else if c = ':' then (tokens? fuel cs).map (.colon :: ·)
    else if c = '"' then do
      let (s, rest) ← string? fuel [] cs
      (tokens? fuel rest).map (.value (.str s) :: ·)
    else if c = '-' then do
      let (n, rest) ← number? true cs
      (tokens? fuel rest).map (.value (.num n) :: ·)
    else if c.isDigit then do
      let (n, rest) ← number? false (c :: cs)
      (tokens? fuel rest).map (.value (.num n) :: ·)
    else match c :: cs with
      | 't' :: 'r' :: 'u' :: 'e' :: rest => (tokens? fuel rest).map (.value (.bool true) :: ·)
      | 'f' :: 'a' :: 'l' :: 's' :: 'e' :: rest =>
        (tokens? fuel rest).map (.value (.bool false) :: ·)
      | 'n' :: 'u' :: 'l' :: 'l' :: rest => (tokens? fuel rest).map (.value .null :: ·)
      | _ => none

/-- A container still open, with what it holds so far in reverse. -/
inductive Open where
  | arr (items : List Json)
  | obj (members : List (String × Json)) (key : String)

/-- Containers may lie inside each other up to this depth. -/
def maxDepth : Nat := 127

mutual

/-- A value is expected next. -/
def value? : List Open → List Token → Option Json
  | stack, .value v :: rest => after? v stack rest
  | stack, .openBracket :: .closeBracket :: rest =>
    if stack.length < maxDepth then after? (.arr []) stack rest else none
  | stack, .openBrace :: .closeBrace :: rest =>
    if stack.length < maxDepth then after? (.obj []) stack rest else none
  | stack, .openBracket :: rest =>
    if stack.length < maxDepth then value? (.arr [] :: stack) rest else none
  | stack, .openBrace :: .value (.str k) :: .colon :: rest =>
    if stack.length < maxDepth then value? (.obj [] k :: stack) rest else none
  | _, _ => none
termination_by _ ts => 2 * ts.length

/-- The value `v` has just been read. -/
def after? (v : Json) : List Open → List Token → Option Json
  | [], [] => some v
  | .arr items :: stack, .comma :: rest => value? (.arr (v :: items) :: stack) rest
  | .arr items :: stack, .closeBracket :: rest => after? (.arr (v :: items).reverse) stack rest
  | .obj members key :: stack, .comma :: .value (.str k) :: .colon :: rest =>
    value? (.obj ((key, v) :: members) k :: stack) rest
  | .obj members key :: stack, .closeBrace :: rest =>
    after? (mkObj ((key, v) :: members).reverse) stack rest
  | _, _ => none
termination_by _ ts => 2 * ts.length + 1

end

/-- The one value that a text spells, with blanks allowed around every token. -/
def parse? (cs : List Char) : Option Json :=
  (tokens? (cs.length + 1) cs).bind (value? [])

end RouteQuery.Json
