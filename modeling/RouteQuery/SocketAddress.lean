/-! The text of socket addresses: an address of version 4, or one of version 6 in brackets, and a
port. -/
namespace RouteQuery.SocketAddress

def digit? (radix : Nat) (c : Char) : Option Nat :=
  let d? := if c.isDigit then some (c.toNat - 48)
    else if 'a' ≤ c ∧ c ≤ 'f' then some (c.toNat - 87)
    else if 'A' ≤ c ∧ c ≤ 'F' then some (c.toNat - 55)
    else none
  d?.filter (· < radix)

/-- Reads all digits that follow, at least one and at most `maxDigits`, as a number up to `bound`. -/
def number? (radix maxDigits bound : Nat) (cs : List Char) : Option (List Char) :=
  let digits := cs.takeWhile fun c => (digit? radix c).isSome
  let n : Nat := digits.foldl (fun n c => n * radix + (digit? radix c).getD 0) 0
  if digits.isEmpty || maxDigits < digits.length || bound < n then none
  else some (cs.drop digits.length)

/-- A number up to 255 without leading zeros. -/
def octet? (cs : List Char) : Option (List Char) :=
  match cs with
  | '0' :: c :: _ => if c.isDigit then none else number? 10 3 255 cs
  | _ => number? 10 3 255 cs

def char? (c : Char) : List Char → Option (List Char)
  | d :: rest => if d = c then some rest else none
  | [] => none

def ipv4? (cs : List Char) : Option (List Char) := do
  octet? (← char? '.' (← octet? (← char? '.' (← octet? (← char? '.' (← octet? cs))))))

/-- Reads up to `limit` groups of hexadecimal digits with colons between them; an address of version 4
may take the place of the last two. The results are how many groups there were, whether they ended
in such an address, and the rest. -/
def groups (first : Bool) (cs : List Char) : Nat → Nat × Bool × List Char
  | 0 => (0, false, cs)
  | limit + 1 =>
    match if first then some cs else char? ':' cs with
    | none => (0, false, cs)
    | some after =>
      match if 0 < limit then ipv4? after else none with
      | some rest => (2, true, rest)
      | none =>
        match number? 16 4 0xffff after with
        | none => (0, false, cs)
        | some rest =>
          let (count, ended, rest) := groups false rest limit
          (count + 1, ended, rest)

/-- Eight groups, or fewer with a double colon in the place of one or more zero groups. -/
def ipv6? (cs : List Char) : Option (List Char) :=
  match groups true cs 8 with
  | (8, _, rest) => some rest
  | (_, true, _) => none
  | (count, false, rest) => do
    let rest ← char? ':' (← char? ':' rest)
    some (groups true rest (7 - count)).2.2

/-- The number of a zone after a percent sign, which may be missing. -/
def zone? : List Char → Option (List Char)
  | '%' :: rest => number? 10 rest.length 4294967295 rest
  | cs => some cs

def port? (cs : List Char) : Option (List Char) := do
  let digits ← char? ':' cs
  number? 10 digits.length 65535 digits

def parses (text : String) : Bool :=
  let rest? := match text.toList with
    | '[' :: cs => do port? (← char? ']' (← zone? (← ipv6? cs)))
    | cs => do port? (← ipv4? cs)
  rest? == some []

end RouteQuery.SocketAddress
