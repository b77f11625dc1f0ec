import RouteQuery.Http.Message

/-! Requests for a part of a file, such as `Range: bytes=0-99`. -/
namespace RouteQuery.Http
open Text

inductive ByteRange where
  /-- From one byte up to another, both included, or to the end. -/
  | span (first : Nat) (last : Option Nat)
  /-- The last bytes. -/
  | suffix (count : Nat)
  deriving DecidableEq, Repr

namespace ByteRange

/-- Digits, without a zero in front. -/
def position? (cs : List Char) : Option Nat :=
  if cs.isEmpty || !cs.all Char.isDigit || (cs.length ≠ 1 && cs.head? == some '0') then none
  else
    let n : Nat := cs.foldl (fun n c => n * 10 + (c.toNat - 48)) 0
    if n ≤ maxBytes then some n else none

/-- One range. Of blanks there may be one, in front. -/
def parse? (cs : List Char) : Option ByteRange := do
  if (cs.getLast?.any isBlank) || 1 < cs.countP isBlank then none
  let (first, last) ← cut? '-' (trim cs)
  if last.contains '-' then none
  if first.isEmpty then
    let count ← position? last
    if count = 0 then none else some (suffix count)
  else
    let first ← position? first
    if last.isEmpty then some (span first none) else some (span first (← position? last))

/-- The ranges of a header, separated by commas. -/
def ofHeader? (value : List Char) : Option (List ByteRange) := do
  let ranges ← after? "bytes=".toList value
  if ranges.head?.any isBlank then none
  (splitAt (· == ',') ranges).mapM parse?

/-- The first and the last byte of the range in a file of `size` bytes; a range that starts in the
file may end behind it. -/
def within? (size : Nat) : ByteRange → Option (Nat × Nat)
  | span first last =>
    let last := min (last.getD size) (size - 1)
    if first ≤ last ∧ first < size then some (first, last) else none
  | suffix count => if 0 < count ∧ count ≤ size then some (size - count, size - 1) else none

def disjoint : List (Nat × Nat) → Bool
  | [] => true
  | r :: rest => rest.all (fun s => s.2 < r.1 || r.2 < s.1) && disjoint rest

/-- What the headers of a request leave of a response that holds a whole file. Only one range can
be asked for at a time. -/
def apply (headers : Headers) (whole : Response) : Response :=
  match headers.text? "range" with
  | none => whole
  | some value =>
    let size := whole.body.length
    let ranges := ((ofHeader? value).bind (·.mapM (within? size))).filter disjoint
    match ranges with
    | some [(first, last)] =>
      { whole with status := 206, body := (whole.body.drop first).take (last + 1 - first) }
    | some _ =>
      { whole with
        status := 416, body := Response.bytesOf "Cannot serve multipart range requests" }
    | none => { whole with status := 416, body := [] }

end ByteRange
end RouteQuery.Http
