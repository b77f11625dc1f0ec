import RouteQuery.Json.Basic

/-! JSON values as text, compact or indented. -/
namespace RouteQuery.Json

/-- A control character by its short escape where it has one, by its code point otherwise. -/
def escapeChar (c : Char) : List Char :=
  if c = '"' then ['\\', '"']
  else if c = '\\' then ['\\', '\\']
  else if c = '\n' then ['\\', 'n']
  else if c = '\r' then ['\\', 'r']
  else if c = '\t' then ['\\', 't']
  else if c = '\x08' then ['\\', 'b']
  else if c = '\x0c' then ['\\', 'f']
  else if c.toNat < 0x20 then
    ['\\', 'u', '0', '0', Nat.digitChar (c.toNat / 16), Nat.digitChar (c.toNat % 16)]
  else [c]

def quote (s : String) : List Char := '"' :: (s.toList.flatMap escapeChar ++ ['"'])

def Number.render : Number → List Char
  | .int n => (toString n).toList
  | .float x => if x.isFinite then x.render else "null".toList

mutual

def renderChars : Json → List Char
  | .null => "null".toList
  | .bool b => if b then "true".toList else "false".toList
  | .num n => n.render
  | .str s => quote s
  | .arr items => '[' :: (renderItems items ++ [']'])
  | .obj members => '{' :: (renderMembers members ++ ['}'])

def renderItems : List Json → List Char
  | [] => []
  | [v] => renderChars v
  | v :: vs => renderChars v ++ ',' :: renderItems vs

def renderMembers : List (String × Json) → List Char
  | [] => []
  | [(k, v)] => quote k ++ ':' :: renderChars v
  | (k, v) :: rest => quote k ++ ':' :: (renderChars v ++ ',' :: renderMembers rest)

end

/-- Without any blanks. -/
def render (v : Json) : String := String.ofList (renderChars v)

def indent (depth : Nat) : List Char := '\n' :: List.replicate (2 * depth) ' '

mutual

def prettyChars (depth : Nat) : Json → List Char
  | .arr (v :: vs) =>
    '[' :: (prettyItems (depth + 1) (v :: vs) ++ indent depth ++ [']'])
  | .obj (m :: ms) =>
    '{' :: (prettyMembers (depth + 1) (m :: ms) ++ indent depth ++ ['}'])
  | v => renderChars v

def prettyItems (depth : Nat) : List Json → List Char
  | [] => []
  | [v] => indent depth ++ prettyChars depth v
  | v :: vs => indent depth ++ prettyChars depth v ++ ',' :: prettyItems depth vs

def prettyMembers (depth : Nat) : List (String × Json) → List Char
  | [] => []
  | [(k, v)] => indent depth ++ quote k ++ ':' :: ' ' :: prettyChars depth v
  | (k, v) :: rest =>
    indent depth ++ quote k ++ ':' :: ' ' :: (prettyChars depth v ++ ',' :: prettyMembers depth rest)

end

/-- One item or member a line, two blanks for each level. -/
def pretty (v : Json) : String := String.ofList (prettyChars 0 v)

end RouteQuery.Json
