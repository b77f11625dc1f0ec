import RouteQuery.Toml.Text

/-! Numbers, dates and times in TOML. -/
namespace RouteQuery.Toml

/-- Digits with single underscores between them, without the underscores. -/
def digits? (isDigit : Char → Bool) : List Char → Option (List Char × List Char)
  | [] => none
  | c :: cs =>
    if isDigit c then
      match cs with
      | '_' :: rest => (digits? isDigit rest).map fun (ds, rest) => (c :: ds, rest)
      | d :: rest =>
        if isDigit d then (digits? isDigit (d :: rest)).map fun (ds, rest) => (c :: ds, rest)
        else some ([c], d :: rest)
      | [] => some ([c], [])
    else none

def sign? : List Char → Option Bool × List Char
  | '-' :: rest => (some true, rest)
  | '+' :: rest => (some false, rest)
  | cs => (none, cs)

def numberOf (radix : Nat) (ds : List Char) : Nat :=
  ds.foldl (fun n c => n * radix + (Json.hexDigit? c).getD 0) 0

def maxInteger : Nat := 9223372036854775807

/-- A number in another base, after its mark. -/
def basedInteger? (radix : Nat) (cs : List Char) : Option (Json × List Char) := do
  let (ds, rest) ← digits? (fun c => ((Json.hexDigit? c).filter (· < radix)).isSome) cs
  let n := numberOf radix ds
  if n ≤ maxInteger then some (Json.ofNat n, rest) else none

/-- Decimal digits, the first of which is zero only if it is alone. -/
def decimalDigits? (cs : List Char) : Option (List Char × List Char) :=
  match cs with
  | '0' :: rest => some (['0'], rest)
  | _ => digits? Char.isDigit cs

/-- The digits after a point, if there is one. -/
def fraction? : List Char → Option (Option (List Char) × List Char)
  | '.' :: rest => (digits? Char.isDigit rest).map fun (ds, rest) => (some ds, rest)
  | cs => some (none, cs)

/-- The exponent after `e` or `E`, if there is one. -/
def exponent? : List Char → Option (Option Int × List Char)
  | c :: rest =>
    if c = 'e' ∨ c = 'E' then
      let (negative, rest) := sign? rest
      (digits? Char.isDigit rest).map fun (ds, rest) =>
        let n : Int := numberOf 10 ds
        (some (if negative = some true then -n else n), rest)
    else some (none, c :: rest)
  | [] => some (none, [])

/-- A decimal number after its sign: an integer of 64 bits, or a binary fraction, which may not be
infinite above. -/
def decimal? (negative : Bool) (cs : List Char) : Option (Json × List Char) := do
  let (whole, rest) ← decimalDigits? cs
  let (part, rest) ← fraction? rest
  let (exponent, rest) ← exponent? rest
  if part.isNone && exponent.isNone then
    let n := numberOf 10 whole
    if n ≤ maxInteger then some (.num (.int (if negative then -n else n)), rest)
    else if negative && n = maxInteger + 1 then some (.num (.int (-n)), rest)
    else none
  else
    let part := part.getD []
    let x := Json.Binary64.ofDecimal negative (numberOf 10 (whole ++ part))
      (exponent.getD 0 - part.length)
    if x = .infinite false then none else some (.num (.float x), rest)

def number? (cs : List Char) : Option (Json × List Char) :=
  match cs with
  | '0' :: 'x' :: rest => basedInteger? 16 rest
  | '0' :: 'o' :: rest => basedInteger? 8 rest
  | '0' :: 'b' :: rest => basedInteger? 2 rest
  | _ =>
    let (negative, rest) := sign? cs
    let negative := negative.getD false
    match rest with
    | 'i' :: 'n' :: 'f' :: rest => some (.num (.float (.infinite negative)), rest)
    | 'n' :: 'a' :: 'n' :: rest => some (.num (.float .nan), rest)
    | _ => decimal? negative rest

def fixed? (n : Nat) (cs : List Char) : Option (Nat × List Char) :=
  let ds := cs.take n
  if ds.length = n ∧ ds.all Char.isDigit then some (numberOf 10 ds, cs.drop n) else none

def within? (low high : Nat) (read : Option (Nat × List Char)) : Option (Nat × List Char) :=
  read.filter fun (n, _) => low ≤ n && n ≤ high

def char? (c : Char) : List Char → Option (List Char)
  | d :: rest => if d = c then some rest else none
  | [] => none

def isLeapYear (year : Nat) : Bool := year % 4 == 0 && (year % 100 != 0 || year % 400 == 0)

def daysIn (year month : Nat) : Nat :=
  if month = 2 then if isLeapYear year then 29 else 28
  else if month ∈ [4, 6, 9, 11] then 30
  else 31

def padded (width n : Nat) : List Char :=
  let ds := (toString n).toList
  List.replicate (width - ds.length) '0' ++ ds

/-- A date as it is written out again. -/
def date? (cs : List Char) : Option (List Char × List Char) := do
  let (year, rest) ← fixed? 4 cs
  let (month, rest) ← within? 1 12 (fixed? 2 (← char? '-' rest))
  let (day, rest) ← within? 1 (daysIn year month) (fixed? 2 (← char? '-' rest))
  some (padded 4 year ++ '-' :: (padded 2 month ++ '-' :: padded 2 day), rest)

/-- Digits of a second, cut behind the ninth, without zeros at the end. -/
def secondFraction (ds : List Char) : List Char :=
  let kept := ((ds.take 9).reverse.dropWhile (· == '0')).reverse
  if kept.isEmpty then [] else '.' :: kept

/-- A time of day as it is written out again. -/
def time? (cs : List Char) : Option (List Char × List Char) := do
  let (hour, rest) ← within? 0 23 (fixed? 2 cs)
  let (minute, rest) ← within? 0 59 (fixed? 2 (← char? ':' rest))
  let (second, rest) ← within? 0 60 (fixed? 2 (← char? ':' rest))
  let text := padded 2 hour ++ ':' :: (padded 2 minute ++ ':' :: padded 2 second)
  match rest with
  | '.' :: rest =>
    let ds := rest.takeWhile Char.isDigit
    if ds.isEmpty then none else some (text ++ secondFraction ds, rest.drop ds.length)
  | _ => some (text, rest)

/-- The distance from universal time, if it is given. -/
def offset? (cs : List Char) : Option (List Char × List Char) :=
  match cs with
  | c :: rest =>
    if c = 'Z' ∨ c = 'z' then some (['Z'], rest)
    else if c = '+' ∨ c = '-' then do
      let (hour, rest) ← within? 0 23 (fixed? 2 rest)
      let (minute, rest) ← within? 0 59 (fixed? 2 (← char? ':' rest))
      let sign := if hour = 0 ∧ minute = 0 then '+' else c
      some (sign :: (padded 2 hour ++ ':' :: padded 2 minute), rest)
    else some ([], cs)
  | [] => some ([], [])

/-- A date, a time of day, or both with or without an offset. -/
def datetime? (cs : List Char) : Option (String × List Char) :=
  match date? cs with
  | none => (time? cs).map fun (text, rest) => (String.ofList text, rest)
  | some (date, rest) =>
    let dateOnly := some (String.ofList date, rest)
    match rest with
    | separator :: after =>
      if separator = 'T' ∨ separator = 't' ∨ (separator = ' ' ∧ after.head?.any Char.isDigit) then do
        let (time, rest) ← time? after
        let (offset, rest) ← offset? rest
        some (String.ofList (date ++ 'T' :: (time ++ offset)), rest)
      else dateOnly
    | [] => dateOnly

/-- The key under which a date or a time stands where it is told as JSON. -/
def datetimeKey : String := "$__toml_private_datetime"

def scalar? (cs : List Char) : Option (Json × List Char) :=
  match cs with
  | 't' :: 'r' :: 'u' :: 'e' :: rest => some (.bool true, rest)
  | 'f' :: 'a' :: 'l' :: 's' :: 'e' :: rest => some (.bool false, rest)
  | '"' :: _ | '\'' :: _ => (string? cs).map fun (s, rest) => (.str s, rest)
  | _ =>
    match datetime? cs with
    | some (text, rest) => some (.obj [(datetimeKey, .str text)], rest)
    | none => number? cs

end RouteQuery.Toml
