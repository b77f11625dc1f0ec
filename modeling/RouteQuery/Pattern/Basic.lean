import RouteQuery.Text.CharTables
import RouteQuery.Text.Folding

/-! Regular expressions and the way they match: from left to right, the alternatives of each
choice in the order in which they are written. -/
namespace RouteQuery.Pattern
open Text

inductive CharClass where
  | table (ranges : RangeTable)
  /-- The characters equal to `c` up to case. -/
  | like (c : Char)
  /-- The characters equal to one of `k` up to case. -/
  | folded (k : CharClass)
  | negated (k : CharClass)
  | union (a b : CharClass)
  | intersection (a b : CharClass)
  | difference (a b : CharClass)
  | exclusive (a b : CharClass)
  deriving Repr

namespace CharClass

def contains : CharClass → Char → Bool
  | table ranges, c => ranges.contains c
  | like d, c => simpleFold c == simpleFold d
  | folded k, c => (caseVariants c).any k.contains
  | negated k, c => !k.contains c
  | union a b, c => a.contains c || b.contains c
  | intersection a b, c => a.contains c && b.contains c
  | difference a b, c => a.contains c && !b.contains c
  | exclusive a b, c => a.contains c != b.contains c

/-- What the transitions for the class take, in bytes. A range beyond ASCII needs a few states of
its own. -/
def width : CharClass → Nat
  | table ranges => ranges.foldl (fun n r => n + if r.2 < 128 then 8 else 64) 0
  | like _ => 16
  | folded k => 2 * k.width
  | negated k => k.width + 320
  | union a b | intersection a b | difference a b | exclusive a b => a.width + b.width

def single (c : Char) : CharClass := table [(c.toNat, c.toNat)]

def any : CharClass := table [(0, 0x10ffff)]

def nothing : CharClass := table []

end CharClass

/-- What a word consists of at a word boundary. -/
inductive WordKind where
  | unicode | ascii
  deriving DecidableEq, Repr

def WordKind.holds : WordKind → Char → Bool
  | unicode, c => wordCharacters.contains c
  | ascii, c => isWordChar c

inductive Assertion where
  | startText | endText
  | startLine | endLine
  /-- Lines that end in a line feed, a carriage return or both. -/
  | startCrlfLine | endCrlfLine
  | boundary (w : WordKind) | noBoundary (w : WordKind)
  | wordStart (w : WordKind) | wordEnd (w : WordKind)
  | noWordBefore (w : WordKind) | noWordAfter (w : WordKind)
  deriving DecidableEq, Repr

def Assertion.holds (before after : Option Char) : Assertion → Bool
  | startText => before.isNone
  | endText => after.isNone
  | startLine => before.isNone || before == some '\n'
  | endLine => after.isNone || after == some '\n'
  | startCrlfLine =>
    before.isNone || before == some '\n' || (before == some '\r' && after != some '\n')
  | endCrlfLine =>
    after.isNone || after == some '\r' || (after == some '\n' && before != some '\r')
  | boundary w => before.any w.holds != after.any w.holds
  | noBoundary w => before.any w.holds == after.any w.holds
  | wordStart w => !before.any w.holds && after.any w.holds
  | wordEnd w => before.any w.holds && !after.any w.holds
  | noWordBefore w => !before.any w.holds
  | noWordAfter w => !after.any w.holds

/-- A regular expression. Groups are numbered from one; `iterate` repeats its body at least `least`
and at most `most` times, as often as possible when it is greedy. -/
inductive Node where
  | empty
  | one (k : CharClass)
  | look (a : Assertion)
  | group (index : Nat) (body : Node)
  | seq (a b : Node)
  | alt (a b : Node)
  | iterate (body : Node) (least : Nat) (most : Option Nat) (greedy : Bool)
  deriving Repr

def Node.groups : Node → Nat
  | empty | one _ | look _ => 0
  | group index body => max index body.groups
  | seq a b | alt a b => max a.groups b.groups
  | iterate body _ _ _ => body.groups

/-- What an automaton for the expression takes, in bytes: 32 for a state, and the repeated part of
a repetition as often as it may be needed. -/
def Node.size : Node → Nat
  | empty | look _ => 32
  | one k => if k.width ≤ 8 then 32 else 32 + k.width
  | group _ body => body.size + 64
  | seq a b => a.size + b.size
  | alt a b => a.size + b.size + 40
  | iterate body least none _ => max 1 least * body.size + 40
  | iterate body least (some most) _ =>
    least * body.size + (most - least) * (body.size + 40) + 32

/-- A repetition. What is repeated zero times is not there at all, its groups included. -/
def Node.iterated (body : Node) (least : Nat) (most : Option Nat) (greedy : Bool) : Node :=
  if most = some 0 then .empty else .iterate body least most greedy

/-- A place in a text: the character before it, the text from there on, and what the groups
matched on the way, the latest first. -/
structure Point where
  before : Option Char
  rest : List Char
  captured : List (Nat × List Char)
  deriving DecidableEq, Repr

namespace Point

def atStart (text : List Char) : Point := ⟨none, text, []⟩

def left (p : Point) : Nat := p.rest.length

/-- Notes that group `index` matched the text from `p` to `q`. -/
def capture (index : Nat) (p q : Point) : Point :=
  { q with captured := (index, p.rest.take (p.left - q.left)) :: q.captured }

end Point

def firstBy {α β : Type} [BEq β] (key : α → β) (xs : List α) : List α :=
  (xs.foldl (fun (kept : List α) x =>
    if kept.any (key · == key x) then kept else x :: kept) []).reverse

/-- Of the points that lie at one place, the first. What matches behind a place does not depend on
the way that led there. -/
def firstArrivals (points : List Point) : List Point := firstBy Point.left points

/-- The places reached from `p` by zero or more steps that each consume something, `p` being the
last of them when `greedy` holds and the first otherwise. No place is left twice: `seen` holds
those already left. -/
def explore (step : Point → List Point) (greedy : Bool) : Nat → List Nat → Point →
    List Point × List Nat
  | 0, seen, p => ([p], seen)
  | fuel + 1, seen, p =>
    if p.left ∈ seen then ([], seen)
    else
      let (found, seen) := (step p).foldl (fun (found, seen) q =>
        if q.left < p.left then
          let (more, seen) := explore step greedy fuel seen q
          (found ++ more, seen)
        else (found, seen)) ([], p.left :: seen)
      (if greedy then found ++ [p] else p :: found, seen)

/-- The places reached by one or more steps. A first step that consumes nothing is also the last;
no later step may consume nothing. -/
def oneOrMore (step : Point → List Point) (greedy : Bool) (p : Point) : List Point :=
  ((step p).foldl (fun (found, seen) q =>
    if q.left < p.left then
      let (more, seen) := explore step greedy q.left seen q
      (found ++ more, seen)
    else (found ++ [q], seen)) (([], []) : List Point × List Nat)).1

def zeroOrMore (step : Point → List Point) (greedy : Bool) (p : Point) : List Point :=
  if greedy then oneOrMore step greedy p ++ [p] else p :: oneOrMore step greedy p

/-- The places reached by exactly `n` steps from one of `points`. -/
def exactly (step : Point → List Point) : Nat → List Point → List Point
  | 0, points => points
  | n + 1, points => exactly step n (firstArrivals (points.flatMap step))

/-- The places where a point leads at once: itself, to stay, and those one step further, to go on
from. -/
def branches (step : Point → List Point) (greedy : Bool) (p : Point) : List (Point × Bool) :=
  let next := (step p).map (·, true)
  if greedy then next ++ [(p, false)] else (p, false) :: next

/-- The places reached by at most `n` more steps from the points that are marked, among those that
are not. -/
def upTo (step : Point → List Point) (greedy : Bool) : Nat → List (Point × Bool) → List Point
  | 0, points => points.map (·.1)
  | n + 1, points =>
    upTo step greedy n <| firstBy (fun (p, goesOn) => (p.left, goesOn)) <|
      points.flatMap fun (p, goesOn) => if goesOn then branches step greedy p else [(p, false)]

/-- The places where a match that starts at `p` may end, the preferred one first. -/
def ends : Node → Point → List Point
  | .empty, p => [p]
  | .one k, p =>
    match p.rest with
    | c :: cs => if k.contains c then [{ p with before := some c, rest := cs }] else []
    | [] => []
  | .look a, p => if a.holds p.before p.rest.head? then [p] else []
  | .group index body, p => (ends body p).map (Point.capture index p)
  | .seq a b, p => firstArrivals ((ends a p).flatMap (ends b))
  | .alt a b, p => firstArrivals (ends a p ++ ends b p)
  | .iterate body least most greedy, p =>
    let step := ends body
    firstArrivals <| match least, most with
      | 0, none => zeroOrMore step greedy p
      | n + 1, none => (exactly step n [p]).flatMap (oneOrMore step greedy)
      | n, some m => upTo step greedy (m - n) ((exactly step n [p]).map (·, true))

/-- The first place from `p` on where a match starts, with the preferred end of that match. -/
def searchFrom (node : Node) (before : Option Char) : List Char → Option Point
  | [] => (ends node ⟨before, [], []⟩).head?
  | c :: cs =>
    match (ends node ⟨before, c :: cs, []⟩).head? with
    | some q => some q
    | none => searchFrom node (some c) cs

/-- The end of the leftmost match in a text. -/
def search (node : Node) (text : List Char) : Option Point := searchFrom node none text

end RouteQuery.Pattern
