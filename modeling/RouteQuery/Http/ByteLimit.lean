import RouteQuery.Json.Basic
import RouteQuery.Text.Basic

/-! Sizes such as `100kb` or `1.5 MB`. -/
namespace RouteQuery.Http
open Text

/-- The greatest number of bytes that a limit can allow. -/
def maxBytes : Nat := 18446744073709551615

namespace ByteLimit

def unit? (name : List Char) : Option Nat :=
  if name = [] ∨ name = ['b'] then some 1
  else if name = ['k', 'b'] then some 1024
  else if name = ['m', 'b'] then some 1048576
  else if name = ['g', 'b'] then some 1073741824
  else none

/-- Digits with at most one point, and at least one digit. -/
def decimal? (cs : List Char) : Option Json.Binary64 :=
  let (whole, part) := (cut? '.' cs).getD (cs, [])
  if whole.isEmpty && part.isEmpty || part.contains '.' then none
  else
    let digits : Nat := (whole ++ part).foldl (fun n c => n * 10 + (c.toNat - 48)) 0
    some (Json.Binary64.ofDecimal false digits (-part.length))

/-- A number and a unit, in any case and with blanks around either. A part of a byte does not
count. -/
def parse (text : List Char) : Option Nat := do
  let text := lowerAscii (trim text)
  let number := text.takeWhile fun c => c.isDigit || c == '.'
  let x ← decimal? number
  let unit ← unit? (trim (text.drop number.length))
  some (x.floorTimes unit maxBytes)

/-- A limit in options: a number of bytes or a size in words. -/
def ofJson? : Json → Option Nat
  | .str s => parse s.toList
  | v => v.nat?

end ByteLimit
end RouteQuery.Http
