import RouteQuery.Pattern.Build
import RouteQuery.Fault

/-! Literal route paths, such as `/user/:id?` and `/files/*`, as regular expressions. -/
namespace RouteQuery
open Pattern

inductive MatchMode where
  /-- All of it, up to a slash at the end. -/
  | route
  /-- Leading segments. -/
  | mount
  deriving DecidableEq, Repr

namespace PathTemplate

inductive Piece where
  | plain (c : Char)
  /-- `:name` -/
  | param (name : String)
  /-- `*`, which takes any text. -/
  | wildcard
  | openGroup
  | closeGroup
  | plus
  | question
  deriving DecidableEq, Repr

def Piece.ofChar (c : Char) : Piece :=
  if c = '*' then wildcard
  else if c = '(' then openGroup
  else if c = ')' then closeGroup
  else if c = '+' then plus
  else if c = '?' then question
  else plain c

/-- The pieces of a path that starts at character `position`. -/
def pieces (position : Nat) : List Char → Except PathFault (List Piece)
  | [] => .ok []
  | c :: cs =>
    if c = ':' then
      let name := cs.takeWhile Text.isWordChar
      if name.isEmpty then .error (.namelessParameter position)
      else do
        let rest ← pieces (position + 1 + name.length) (cs.dropWhile Text.isWordChar)
        return .param (String.ofList name) :: rest
    else do
      let rest ← pieces (position + 1) cs
      return Piece.ofChar c :: rest
termination_by cs => cs.length
decreasing_by
  · have := Text.length_dropWhile_le Text.isWordChar cs
    simp only [List.length_cons]
    omega
  · simp

/-- The characters in front of which a `\\` stands where they mean themselves. -/
def metaChars : List Char :=
  ['\\', '.', '+', '*', '?', '(', ')', '|', '[', ']', '\x7b', '\x7d', '^', '$', '#', '&', '-', '~']

def isMeta (c : Char) : Bool := metaChars.contains c

/-- Written out, `([^/]+?)`. -/
def paramText : List Char := ['(', '[', '^', '/', ']', '+', '?', ')']

/-- Written out, `(.*)`. -/
def wildcardText : List Char := ['(', '.', '*', ')']

/-- A parameter that may be missing and the slash before it, as `(?:/([^/]+?))?`. -/
def segmentText : List Char := ['(', '?', ':', '/'] ++ paramText ++ [')', '?']

def Piece.text : Piece → List Char
  | plain c => if isMeta c then ['\\', c] else [c]
  | param _ => paramText
  | wildcard => wildcardText
  | openGroup => ['(', '?', ':']
  | closeGroup => [')']
  | plus => ['+']
  | question => ['?']

/-- Pieces written one after another. A parameter that may be missing takes the slash before it along. -/
def text : List Piece → List Char
  | [] => []
  | .plain '/' :: .param _ :: .question :: rest => segmentText ++ text rest
  | p :: rest => p.text ++ text rest

/-- The regular expression for pieces as it is written, behind `(?i)^`. -/
def source (ps : List Piece) : MatchMode → List Char
  | .route => ['(', '?', 'i', ')', '^'] ++ text ps ++ ['$']
  | .mount => ['(', '?', 'i', ')', '^'] ++ text ps

/-- What `(?i)` switches on. -/
def caseless : Flags := { ignoreCase := true }

/-- All characters but the slash. -/
def notSlash : CharClass := .negated (.folded (.union .nothing (.single '/')))

/-- The shortest nonempty text without a slash that lets the rest match, as group `index`. -/
def paramPart (index : Nat) : Part := ⟨.group index (.iterate (.one notSlash) 1 none false), 3⟩

/-- The longest text without line feeds that lets the rest match, as group `index`. -/
def wildcardPart (index : Nat) : Part :=
  ⟨.group index (.iterate (.one (.negated (.single '\n'))) 0 none true), 2⟩

def plainPart (c : Char) : Part := .atom (.one (.like c))

/-- Group `index` with the slash before it, both of which may be missing. -/
def segmentPart (index : Nat) : Part :=
  ⟨.seq (plainPart '/').node (paramPart index).node, 5⟩

/-- Adds the pieces to an expression. `keys` holds, in reverse, the names of the groups so far and
`wildcards` counts those that are wildcards. An operator applies to what stands before it, and a
`?` behind an operator makes it reluctant. A parameter with a `?` may be missing, and with it the
slash before it. -/
def assemble (b : Build) (keys : List String) (wildcards : Nat) :
    List Piece → Option (Build × List String)
  | [] => some (b, keys)
  | .plain '/' :: .param name :: .question :: .question :: rest => do
    let b ← (b.push (segmentPart (keys.length + 1))).iterate? 0 (some 1) false
    assemble b (name :: keys) wildcards rest
  | .plain '/' :: .param name :: .question :: rest => do
    let b ← (b.push (segmentPart (keys.length + 1))).iterate? 0 (some 1) true
    assemble b (name :: keys) wildcards rest
  | .plain c :: rest => assemble (b.push (plainPart c)) keys wildcards rest
  | .param name :: rest =>
    assemble (b.push (paramPart (keys.length + 1))) (name :: keys) wildcards rest
  | .wildcard :: rest =>
    assemble (b.push (wildcardPart (keys.length + 1))) (toString wildcards :: keys) (wildcards + 1)
      rest
  | .openGroup :: rest => assemble (b.openGroup none caseless) keys wildcards rest
  | .closeGroup :: rest => do assemble (← b.closeGroup?) keys wildcards rest
  | .plus :: .question :: rest => do assemble (← b.iterate? 1 none false) keys wildcards rest
  | .plus :: rest => do assemble (← b.iterate? 1 none true) keys wildcards rest
  | .question :: .question :: rest => do
    assemble (← b.iterate? 0 (some 1) false) keys wildcards rest
  | .question :: rest => do assemble (← b.iterate? 0 (some 1) true) keys wildcards rest

/-- The part of the path that is matched: a mount does not end in slashes. -/
def body (path : List Char) : MatchMode → List Char
  | .route => path
  | .mount => (path.reverse.dropWhile (· == '/')).reverse

/-- What a route allows behind its path: one slash, unless the path ends in one, which then may be
missing. -/
def routeEnd (path : List Char) : List Piece :=
  if path.getLast? = some '/' then [.question] else [.plain '/', .question]

/-- The expression for a path, anchored at the start, and the names of its groups in order. -/
def compile (path : String) (mode : MatchMode) : Except PathFault (Node × List String) := do
  let body := body path.toList mode
  let ps ← pieces 0 body
  let ps := match mode with
    | .route => ps ++ routeEnd body
    | .mount => ps
  let start : Build := ⟨⟨none, {}, [], [some (.atom (.look .startText)), none]⟩, []⟩
  let built := do
    let (b, keys) ← assemble start [] 0 ps
    let b := match mode with
      | .route => b.push (.atom (.look .endText))
      | .mount => b
    return (← b.finish?, keys.reverse)
  match built with
  | some result => .ok result
  | none => .error (.badPattern (String.ofList (source ps mode)))

end PathTemplate
end RouteQuery
