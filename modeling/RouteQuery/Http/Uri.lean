import RouteQuery.Text.Basic

/-! Request targets: a path with a query, a whole address with a scheme, or an authority alone. -/
namespace RouteQuery.Http
open Text

/-- What of a request target counts: its path, as it is sent, and its query. -/
structure Uri where
  path : List Char
  query : Option (List Char)
  deriving DecidableEq, Repr

namespace Uri

def maxSize : Nat := 65534

/-- A character that RFC 3986 allows in a target outside percent-encoding. -/
def isUriChar (c : Char) : Bool := c.isAlphanum || "!#$&'()*+,-./:;=?@[]_~".toList.contains c

/-- ASCII characters with no place in a path: blanks, controls, angle brackets and back-quotes. -/
def isPathChar (c : Char) : Bool :=
  0x21 ≤ c.toNat && c != '<' && c != '>' && c != '\x60'

def isQueryChar (c : Char) : Bool :=
  0x21 ≤ c.toNat && c != '"' && c != '<' && c != '>'

/-- What of an authority has been seen, from left to right. -/
structure AuthorityScan where
  /-- Colons that may announce a port. -/
  colons : Nat := 0
  opened : Bool := false
  closed : Bool := false
  percent : Bool := false
  /-- Whether the character just read is an `@`. -/
  atEnd : Bool := false

namespace AuthorityScan

/-- Reads one character. Before an `@` stands user information, in which percent signs and colons
are free; between brackets stands an address with colons. -/
def step? (s : AuthorityScan) (c : Char) : Option AuthorityScan :=
  let s := { s with atEnd := false }
  if c = ':' then if s.colons < 8 then some { s with colons := s.colons + 1 } else none
  else if c = '[' then
    if s.percent || s.opened then none else some { s with opened := true }
  else if c = ']' then
    if !s.opened || s.closed then none
    else some { s with closed := true, colons := 0, percent := false }
  else if c = '@' then some { s with colons := 0, percent := false, atEnd := true }
  else if c = '%' then some { s with percent := true }
  else if isUriChar c then some s
  else none

def complete (s : AuthorityScan) : Bool :=
  s.opened == s.closed && s.colons ≤ 1 && !s.atEnd && !s.percent

end AuthorityScan

/-- Splits a text behind its authority, which ends at a slash, a question mark or a hash. -/
def takeAuthority? (cs : List Char) : Option (List Char × List Char) := do
  let ends (c : Char) : Bool := c == '/' || c == '?' || c == '#'
  let authority := cs.takeWhile (!ends ·)
  let scan ← authority.foldlM AuthorityScan.step? {}
  if scan.complete then some (authority, cs.dropWhile (!ends ·)) else none

/-- The text after a scheme and `://`; none when there is no scheme. -/
def afterScheme? (cs : List Char) : Option (List Char) :=
  let scheme := cs.takeWhile fun c => c.isAlphanum || c == '+' || c == '-' || c == '.'
  match cs.drop scheme.length with
  | ':' :: '/' :: '/' :: rest => some rest
  | _ => none

def maxScheme : Nat := 64

/-- A path and a query, with a fragment that does not count. An empty path is the root. -/
def ofPathAndQuery? (cs : List Char) : Option Uri :=
  let path := cs.takeWhile fun c => c != '?' && c != '#'
  let rest := cs.drop path.length
  let query := match rest with
    | '?' :: rest => some (rest.takeWhile (· ≠ '#'))
    | _ => none
  if path.all isPathChar && query.all (·.all isQueryChar) then
    some ⟨if path.isEmpty then ['/'] else path, query⟩
  else none

def parse? (cs : List Char) : Option Uri :=
  if (String.ofList cs).utf8ByteSize > maxSize then none
  else match cs with
    | [] => none
    | ['*'] => some ⟨['*'], none⟩
    | '/' :: _ => ofPathAndQuery? cs
    | _ =>
      match afterScheme? cs with
      | some rest => do
        if cs.length - rest.length > maxScheme + 3 then none
        let (authority, rest) ← takeAuthority? rest
        if authority.isEmpty then none else ofPathAndQuery? rest
      | none => do
        let (_, rest) ← takeAuthority? cs
        if rest.isEmpty then some ⟨[], none⟩ else none

end Uri
end RouteQuery.Http
