import RouteQuery.Text.Basic

/-! Media types and the patterns that select them. -/
namespace RouteQuery.Http.MediaType
open Text

/-- What a pattern's part after the slash accepts: everything, everything with a suffix after a
`+`, or itself. -/
def subtypeMatches (pattern sub : List Char) : Bool :=
  match pattern with
  | '*' :: '+' :: suffix => ('+' :: suffix).isSuffixOf sub
  | _ => pattern == ['*'] || pattern == sub

/-- Whether a `Content-Type` value is of a type that the pattern accepts. Parameters behind a `;`
and the case of letters do not count. -/
def accepts (pattern header : List Char) : Bool :=
  let essence := lowerAscii (trim (header.takeWhile (· ≠ ';')))
  match cut? '/' essence, cut? '/' (lowerAscii (trim pattern)) with
  | some (kind, sub), some (wantedKind, wantedSub) =>
    (wantedKind == ['*'] || wantedKind == kind) && subtypeMatches wantedSub sub
  | _, _ => false

end RouteQuery.Http.MediaType
