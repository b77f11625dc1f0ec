import RouteQuery.Toml.Scalar
import RouteQuery.Toml.Table

/-! TOML documents as JSON values. Every fault is the same to the callers. -/
namespace RouteQuery.Toml

mutual

/-- A value inside `depth` containers. -/
def value? : Nat → Nat → List Char → Option (Json × List Char)
  | 0, _, _ => none
  | fuel + 1, depth, cs =>
    match cs with
    | '[' :: rest =>
      if depth + 1 < maxDepth then
        (items? fuel (depth + 1) [] rest).map fun (vs, rest) => (.arr vs, rest)
      else none
    | '\x7b' :: rest =>
      if depth + 1 < maxDepth then
        match skipBlanks rest with
        | '\x7d' :: rest => some (.obj [], rest)
        | rest => (pairs? fuel (depth + 1) [] rest).map fun (es, rest) =>
          ((Item.table .header es).toJson, rest)
      else none
    | _ => scalar? cs

/-- The items of an array up to its closing bracket, after those in `acc`. A comma may stand behind
the last one. -/
def items? : Nat → Nat → List Json → List Char → Option (List Json × List Char)
  | 0, _, _, _ => none
  | fuel + 1, depth, acc, cs =>
    match skipLines cs.length cs with
    | ']' :: rest => some (acc.reverse, rest)
    | cs => do
      let (v, rest) ← value? fuel depth cs
      match skipLines rest.length rest with
      | ',' :: rest => items? fuel depth (v :: acc) rest
      | ']' :: rest => some ((v :: acc).reverse, rest)
      | _ => none

/-- The pairs of a table in braces up to the closing one, added to `entries`. -/
def pairs? : Nat → Nat → Entries → List Char → Option (Entries × List Char)
  | 0, _, _, _ => none
  | fuel + 1, depth, entries, cs => do
    let (parts, rest) ← key? cs
    let (v, rest) ← value? fuel depth (skipBlanks (← char? '=' rest))
    let entries ← Entries.insert (parts.getLast?.getD "") v parts.dropLast entries
    match skipBlanks rest with
    | ',' :: rest => pairs? fuel depth entries rest
    | '\x7d' :: rest => some (entries, rest)
    | _ => none

end

/-- Reads line after line into the table at `header`, which a header opened last. -/
def lines? : Nat → List String → Entries → List Char → Option Entries
  | 0, _, _, _ => none
  | fuel + 1, header, root, cs =>
    match skipBlanks cs with
    | [] => some root
    | '[' :: '[' :: rest => do
      let (path, rest) ← key? rest
      let rest ← endLine? (← char? ']' (← char? ']' rest))
      lines? fuel path
        (← root.change (Entries.openElement (path.getLast?.getD "")) path.dropLast) rest
    | '[' :: rest => do
      let (path, rest) ← key? rest
      let rest ← endLine? (← char? ']' rest)
      lines? fuel path
        (← root.change (Entries.openTable (path.getLast?.getD "")) path.dropLast) rest
    | c :: cs =>
      if c = '#' ∨ c = '\n' ∨ c = '\r' then do lines? fuel header root (← endLine? (c :: cs))
      else do
        let (parts, rest) ← key? (c :: cs)
        let (v, rest) ← value? rest.length 0 (skipBlanks (← char? '=' rest))
        let root ← root.change (Entries.insert (parts.getLast?.getD "") v parts.dropLast) header
        lines? fuel header root (← endLine? rest)

/-- A byte order mark in front does not count. -/
def parse? (text : List Char) : Option Json :=
  let text := match text with
    | '\ufeff' :: rest => rest
    | _ => text
  (lines? (text.length + 1) [] [] text).map fun entries => (Item.table .header entries).toJson

end RouteQuery.Toml
