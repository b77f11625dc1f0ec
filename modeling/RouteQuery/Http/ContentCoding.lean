import RouteQuery.Http.Message

/-! Which coding of a file a client prefers. -/
namespace RouteQuery.Http
open Text

inductive ContentCoding where
  | identity | gzip | brotli
  deriving DecidableEq, Repr

namespace ContentCoding

/-- The name in a `Content-Encoding` header; the identity is not mentioned there. -/
def token? : ContentCoding → Option String
  | identity => none
  | gzip => some "gzip"
  | brotli => some "br"

/-- What the name of a file in this coding ends in. -/
def extension : ContentCoding → String
  | identity => ""
  | gzip => ".gz"
  | brotli => ".br"

/-- The coding with this name, in any case, if files in it are on offer. -/
def ofName? (offered : List ContentCoding) (name : List Char) : Option ContentCoding :=
  let name := String.ofList (lowerAscii name)
  let coding :=
    if name = "gzip" ∨ name = "x-gzip" then some gzip
    else if name = "br" then some brotli
    else if name = "identity" then some identity
    else none
  coding.filter fun c => c == identity || offered.contains c

/-- A weight such as `q=0.25`, in thousandths: at most three digits behind the point, at most one. -/
def weight? (cs : List Char) : Option Nat :=
  match cs with
  | q :: '=' :: lead :: rest =>
    if (q = 'q' ∨ q = 'Q') ∧ (lead = '0' ∨ lead = '1') then
      let digits? := match rest with
        | [] => some []
        | '.' :: digits => some digits
        | _ => none
      match digits? with
      | some digits =>
        if digits.length ≤ 3 && digits.all Char.isDigit then
          let digits := lead :: (digits ++ List.replicate (3 - digits.length) '0')
          let n : Nat := digits.foldl (fun n c => n * 10 + (c.toNat - 48)) 0
          if n ≤ 1000 then some n else none
        else none
      | none => none
    else none
  | _ => none

/-- One item of an `Accept-Encoding` header. A name alone has full weight. -/
def item? (offered : List ContentCoding) (cs : List Char) : Option (ContentCoding × Nat) := do
  let (name, weight) := match cut? ';' cs with
    | some (name, weight) => (name, weight? (trim weight))
    | none => (cs, some 1000)
  let coding ← ofName? offered (trim name)
  some (coding, ← weight)

def accepted (offered : List ContentCoding) (headers : Headers) : List (ContentCoding × Nat) :=
  let values := (headers.filter (·.1 == "accept-encoding")).filterMap fun h => visibleText? h.2
  (values.flatMap (splitAt (· == ','))).filterMap (item? offered)

def weight (choices : List (ContentCoding × Nat)) (c : ContentCoding) : Nat :=
  ((choices.filter (·.1 == c)).map (·.2)).foldl max 0

/-- The codings with a weight above zero, the preferred one first. Of codings with equal weight the
one that compresses better comes first. -/
def preference (choices : List (ContentCoding × Nat)) : List ContentCoding :=
  ([brotli, gzip, identity].filter (0 < weight choices ·)).mergeSort
    fun a b => weight choices b ≤ weight choices a

end ContentCoding
end RouteQuery.Http
