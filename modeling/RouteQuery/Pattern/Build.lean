import RouteQuery.Pattern.Basic

/-! Putting a regular expression together from left to right: atoms, groups, alternatives and
operators that apply to what stands before them. -/
namespace RouteQuery.Pattern

/-- Switches that change how the following text is read. -/
structure Flags where
  ignoreCase : Bool := false
  multiLine : Bool := false
  dotAll : Bool := false
  swapGreed : Bool := false
  unicode : Bool := true
  crlf : Bool := false
  verbose : Bool := false
  deriving DecidableEq, Repr

/-- An expression and how deep it is nested. -/
structure Part where
  node : Node
  depth : Nat
  deriving Repr

namespace Part

def atom (node : Node) : Part := ⟨node, 0⟩

def deepest (parts : List Part) : Nat := parts.foldl (fun d p => max d p.depth) 0

def seqNode : List Part → Node
  | [] => .empty
  | p :: ps => ps.foldl (fun node q => .seq node q.node) p.node

def altNode : List Part → Node
  | [] => .empty
  | [p] => p.node
  | p :: ps => .alt p.node (altNode ps)

end Part

/-- A group that is still open, or the whole expression. `parts` holds the current alternative in
reverse, with `none` for a setting of flags; `branches` the earlier ones, in reverse too. -/
structure Level where
  capture : Option Nat
  flags : Flags
  branches : List Part
  parts : List (Option Part)
  deriving Repr

namespace Level

def opening (capture : Option Nat) (flags : Flags) : Level := ⟨capture, flags, [], []⟩

def branch (l : Level) : Part :=
  let parts := (l.parts.reverse).filterMap id
  match l.parts with
  | [] => .atom .empty
  | [_] => ⟨Part.seqNode parts, Part.deepest parts⟩
  | _ => ⟨Part.seqNode parts, Part.deepest parts + 1⟩

def whole (l : Level) : Part :=
  match l.branches with
  | [] => l.branch
  | branches =>
    let all := (l.branch :: branches).reverse
    ⟨Part.altNode all, Part.deepest all + 1⟩

def closed (l : Level) : Part :=
  let body := l.whole
  match l.capture with
  | some index => ⟨.group index body.node, body.depth + 1⟩
  | none => ⟨body.node, body.depth + 1⟩

def push (l : Level) (p : Part) : Level := { l with parts := some p :: l.parts }

def alternate (l : Level) : Level := { l with branches := l.branch :: l.branches, parts := [] }

/-- Repeats the last part; there must be one, and it must not be a setting of flags. -/
def iterate? (l : Level) (least : Nat) (most : Option Nat) (greedy : Bool) : Option Level :=
  match l.parts with
  | some p :: ps =>
    some { l with parts := some ⟨p.node.iterated least most greedy, p.depth + 1⟩ :: ps }
  | _ => none

end Level

/-- The open groups, the innermost first. -/
structure Build where
  level : Level
  outer : List Level
  deriving Repr

namespace Build

def start (flags : Flags) : Build := ⟨.opening none flags, []⟩

def push (b : Build) (p : Part) : Build := { b with level := b.level.push p }

def openGroup (b : Build) (capture : Option Nat) (flags : Flags) : Build :=
  ⟨.opening capture flags, b.level :: b.outer⟩

/-- Closes the innermost group; there must be one. -/
def closeGroup? (b : Build) : Option Build :=
  match b.outer with
  | l :: outer => some ⟨l.push b.level.closed, outer⟩
  | [] => none

def iterate? (b : Build) (least : Nat) (most : Option Nat) (greedy : Bool) : Option Build :=
  (b.level.iterate? least most greedy).map fun l => { b with level := l }

/-- Groups, repetitions and sequences may lie inside each other up to this depth. -/
def maxDepth : Nat := 250

/-- An expression that would take more bytes is refused. -/
def maxSize : Nat := 10485760

/-- The whole expression; no group may be open. -/
def finish? (b : Build) : Option Node :=
  let p := b.level.whole
  if b.outer.isEmpty ∧ p.depth ≤ maxDepth ∧ p.node.size ≤ maxSize then some p.node else none

end Build
end RouteQuery.Pattern
