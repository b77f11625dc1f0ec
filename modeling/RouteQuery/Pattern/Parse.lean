import RouteQuery.Pattern.Build
import RouteQuery.Pattern.Property

/-! The syntax of regular expressions. Faults are not told apart. -/
namespace RouteQuery.Pattern
open Text

/-- Blanks and comments, where they do not count. -/
def skipVerbose : Nat → List Char → List Char
  | fuel + 1, c :: cs =>
    if isBlank c then skipVerbose fuel cs
    else if c = '#' then skipVerbose fuel ((cs.dropWhile (· ≠ '\n')).drop 1)
    else c :: cs
  | _, cs => cs

def skip (f : Flags) (cs : List Char) : List Char :=
  if f.verbose then skipVerbose cs.length cs else cs

def hexDigit? (c : Char) : Option Nat :=
  if c.isDigit then some (c.toNat - 48)
  else if 'a' ≤ c ∧ c ≤ 'f' then some (c.toNat - 87)
  else if 'A' ≤ c ∧ c ≤ 'F' then some (c.toNat - 55)
  else none

/-- The character with this code point, unless there is none. -/
def charOf? (n : Nat) : Option Char := if n.isValidChar then some (Char.ofNat n) else none

/-- A letter in the property Alphabetic, or an underscore. -/
def isGroupStart (c : Char) : Bool :=
  c == '_' || ((binary? "alphabetic").getD .nothing).contains c

def isGroupChar (c : Char) : Bool :=
  isGroupStart c || c == '.' || c == '[' || c == ']' ||
    ((category? "n").getD .nothing).contains c

/-- What a backslash introduces. A literal knows whether it was written as a byte, `\\xff`. -/
inductive Escaped where
  | literal (c : Char) (asByte : Bool)
  | charClass (k : CharClass)
  | assertion (a : Assertion)

def wordKind (f : Flags) : WordKind := if f.unicode then .unicode else .ascii

def perlClass (f : Flags) (c : Char) : CharClass :=
  if c = 'd' then (if f.unicode then .table decimalDigits else .table [(48, 57)])
  else if c = 's' then
    (if f.unicode then .table whiteSpace else .table [(9, 13), (32, 32)])
  else if f.unicode then .table wordCharacters
  else .table [(48, 57), (65, 90), (95, 95), (97, 122)]

def hexDigits? (f : Flags) : Nat → Nat → List Char → Option (Nat × List Char)
  | 0, value, cs => some (value, cs)
  | n + 1, value, cs =>
    match cs with
    | c :: rest => do
      let d ← hexDigit? c
      hexDigits? f n (value * 16 + d) (if n = 0 then rest else skip f rest)
    | [] => none

def bracedHex? (f : Flags) (value : Nat) (count : Nat) : Nat → List Char → Option (Nat × List Char)
  | 0, _ => none
  | fuel + 1, cs =>
    match skip f cs with
    | '}' :: rest => if count = 0 then none else some (value, rest)
    | c :: rest => do
      let d ← hexDigit? c
      bracedHex? f (value * 16 + d) (count + 1) fuel rest
    | [] => none

/-- `\\x41`, `\\u0041`, `\\U00000041` and their braced forms, behind the letter. -/
def hexEscape? (f : Flags) (letter : Char) (cs : List Char) : Option (Escaped × List Char) := do
  let (n, rest) ← match skip f cs with
    | '{' :: rest => bracedHex? f 0 0 (rest.length + 1) rest
    | cs => hexDigits? f (if letter = 'x' then 2 else if letter = 'u' then 4 else 8) 0 cs
  let c ← charOf? n
  some (.literal c (letter = 'x'), rest)

/-- A property name behind `\\p`: one letter, or a name or an assignment in braces. -/
def propertyEscape? (f : Flags) (cs : List Char) : Option (CharClass × List Char) :=
  match skip f cs with
  | '{' :: rest =>
    match cut? '}' rest with
    | none => none
    | some (inner, rest) =>
      let inner := if f.verbose then inner.filter (!isBlank ·) else inner
      let assignment := match cut? '=' inner with
        | some (name, value) =>
          if name.getLast? = some '!' then some (name.dropLast, value, true)
          else match cut? ':' name with
            | some (n, v) => some (n, v ++ '=' :: value, false)
            | none => some (name, value, false)
        | none => (cut? ':' inner).map fun (name, value) => (name, value, false)
      match assignment with
      | none => (property? inner).map (·, rest)
      | some (name, value, negated) =>
        (propertyValue? name value).map fun k => (if negated then .negated k else k, rest)
  | '\\' :: _ => none
  | c :: rest => (property? [c]).map (·, rest)
  | [] => none

/-- The names of special word boundaries, behind `\\b`. -/
def boundaryNames (w : WordKind) : List (String × Assertion) :=
  [("start", .wordStart w), ("end", .wordEnd w), ("start-half", .noWordBefore w),
   ("end-half", .noWordAfter w)]

/-- What follows `\\b`: nothing of its own, or a name in braces. A brace that does not open a name
belongs to a repetition. -/
def boundary? (f : Flags) (cs : List Char) : Option (Assertion × List Char) :=
  let w := wordKind f
  match cs with
  | '{' :: inner =>
    match skip f inner with
    | [] => none
    | c :: _ =>
      if c.isAlpha || c == '-' then
        match cut? '}' inner with
        | some (name, rest) =>
          let name := if f.verbose then name.filter (!isBlank ·) else name
          ((boundaryNames w).lookup (String.ofList name)).map (·, rest)
        | none => none
      else some (.boundary w, cs)
  | _ => some (.boundary w, cs)

/-- The characters that stand for themselves behind a backslash: all of ASCII but letters, digits
and angle brackets. -/
def isEscapable (c : Char) : Bool :=
  c.toNat < 0x80 && !c.isAlphanum && c ≠ '<' && c ≠ '>'

def escape? (f : Flags) (cs : List Char) : Option (Escaped × List Char) :=
  match cs with
  | [] => none
  | c :: rest =>
    if c = 'x' ∨ c = 'u' ∨ c = 'U' then hexEscape? f c rest
    else if c = 'p' ∨ c = 'P' then do
      if !f.unicode then none
      let (k, rest) ← propertyEscape? f rest
      let k := if f.ignoreCase then .folded k else k
      some (.charClass (if c = 'P' then .negated k else k), rest)
    else if c = 'd' ∨ c = 's' ∨ c = 'w' then some (.charClass (perlClass f c), rest)
    else if c = 'D' ∨ c = 'S' ∨ c = 'W' then
      some (.charClass (.negated (perlClass f c.toLower)), rest)
    else if isEscapable c then some (.literal c false, rest)
    else if c = 'a' then some (.literal '\x07' false, rest)
    else if c = 'f' then some (.literal '\x0c' false, rest)
    else if c = 't' then some (.literal '\t' false, rest)
    else if c = 'n' then some (.literal '\n' false, rest)
    else if c = 'r' then some (.literal '\r' false, rest)
    else if c = 'v' then some (.literal '\x0b' false, rest)
    else if c = 'A' then some (.assertion .startText, rest)
    else if c = 'z' then some (.assertion .endText, rest)
    else if c = 'b' then (boundary? f rest).map fun (a, rest) => (.assertion a, rest)
    else if c = 'B' then some (.assertion (.noBoundary (wordKind f)), rest)
    else if c = '<' then some (.assertion (.wordStart (wordKind f)), rest)
    else if c = '>' then some (.assertion (.wordEnd (wordKind f)), rest)
    else none

/-- Without the Unicode flag, letters of ASCII are equal up to case only to themselves in the other
case. -/
def asciiLike (c : Char) : CharClass :=
  .union (.single c) (.union (.single c.toLower) (.single c.toUpper))

/-- Outside of Unicode mode a class must keep to ASCII: all other bytes are parts of characters. -/
def staysAscii (k : CharClass) : Bool :=
  (List.range 128).all fun i => !k.contains (Char.ofNat (128 + i))

def literalNode? (f : Flags) (c : Char) (asByte : Bool) : Option Node :=
  if f.unicode then some (.one (if f.ignoreCase then .like c else .single c))
  else if asByte && c.toNat ≥ 0x80 then none
  else some (.one (if f.ignoreCase then asciiLike c else .single c))

def classNode? (f : Flags) (k : CharClass) : Option Node :=
  if f.unicode ∨ staysAscii k then some (.one k) else none

def dotNode? (f : Flags) : Option Node :=
  if !f.unicode then none
  else if f.dotAll then some (.one .any)
  else if f.crlf then some (.one (.negated (.table [(10, 10), (13, 13)])))
  else some (.one (.negated (.single '\n')))

def startAssertion (f : Flags) : Assertion :=
  if f.multiLine then (if f.crlf then .startCrlfLine else .startLine) else .startText

def endAssertion (f : Flags) : Assertion :=
  if f.multiLine then (if f.crlf then .endCrlfLine else .endLine) else .endText

/-! Classes in brackets -/

def asciiClasses : List (String × RangeTable) :=
  [("alnum", [(48, 57), (65, 90), (97, 122)]), ("alpha", [(65, 90), (97, 122)]),
   ("ascii", [(0, 127)]), ("blank", [(9, 9), (32, 32)]), ("cntrl", [(0, 31), (127, 127)]),
   ("digit", [(48, 57)]), ("graph", [(33, 126)]), ("lower", [(97, 122)]), ("print", [(32, 126)]),
   ("punct", [(33, 47), (58, 64), (91, 96), (123, 126)]), ("space", [(9, 13), (32, 32)]),
   ("upper", [(65, 90)]), ("word", [(48, 57), (65, 90), (95, 95), (97, 122)]),
   ("xdigit", [(48, 57), (65, 70), (97, 102)])]

/-- `[:name:]` or `[:^name:]`, behind its bracket. -/
def asciiClass? (cs : List Char) : Option (CharClass × List Char) :=
  match cs with
  | ':' :: rest =>
    let (negated, rest) := match rest with
      | '^' :: rest => (true, rest)
      | _ => (false, rest)
    match cut? ':' rest with
    | some (name, ']' :: rest) =>
      (asciiClasses.lookup (String.ofList name)).map fun t =>
        (if negated then .negated (.table t) else .table t, rest)
    | _ => none
  | _ => none

/-- Every class of characters is closed under case where case is ignored. -/
def foldClass (f : Flags) (k : CharClass) : CharClass :=
  if !f.ignoreCase then k
  else if f.unicode then .folded k
  else .union k (.union
    (.table ((List.range 26).filterMap fun i =>
      if k.contains (Char.ofNat (65 + i)) then some (97 + i, 97 + i) else none))
    (.table ((List.range 26).filterMap fun i =>
      if k.contains (Char.ofNat (97 + i)) then some (65 + i, 65 + i) else none)))

/-- A class in brackets that is still open: what stood before its last set operator, with that
operator, and the union of the items after it. -/
structure OpenClass where
  negated : Bool
  before : Option (CharClass × (CharClass → CharClass → CharClass))
  items : CharClass
  depth : Nat

namespace OpenClass

/-- The operands of a set operator are closed under case one by one. -/
def value (f : Flags) (o : OpenClass) : CharClass :=
  match o.before with
  | none => o.items
  | some (left, op) => op (foldClass f left) (foldClass f o.items)

def add (o : OpenClass) (k : CharClass) : OpenClass := { o with items := .union o.items k }

def operate (f : Flags) (o : OpenClass) (op : CharClass → CharClass → CharClass) : OpenClass :=
  { o with before := some (o.value f, op), items := .nothing }

def closed (f : Flags) (o : OpenClass) : CharClass :=
  let k := foldClass f (o.value f)
  if o.negated then .negated k else k

end OpenClass

/-- The start of a class behind its bracket: a `^`, any number of hyphens, and a closing bracket
that stands first. -/
def openClass? (f : Flags) (cs : List Char) : Option (OpenClass × List Char) :=
  let cs := skip f cs
  let (negated, cs) := match cs with
    | '^' :: rest => (true, skip f rest)
    | _ => (false, cs)
  let hyphens := (cs.takeWhile (· == '-')).length
  let (items, cs) := if hyphens = 0 then (CharClass.nothing, cs)
    else (.single '-', skip f (cs.drop hyphens))
  match cs with
  | [] => none
  | ']' :: rest =>
    if hyphens = 0 then
      match skip f rest with
      | [] => none
      | rest => some (⟨negated, none, .single ']', 1⟩, rest)
    else some (⟨negated, none, items, 1⟩, cs)
  | _ => some (⟨negated, none, items, 1⟩, cs)

/-- One item of a class: a character, or a class behind a backslash. -/
def classItem? (f : Flags) (cs : List Char) : Option (Escaped × List Char) :=
  match cs with
  | '\\' :: rest => escape? f rest
  | c :: rest => some (.literal c false, rest)
  | [] => none

def itemClass? (f : Flags) : Escaped → Option CharClass
  | .literal c _ => if f.unicode ∨ c.toNat < 0x80 then some (.single c) else none
  | .charClass k => some k
  | .assertion _ => none

/-- An item or a range of characters. A hyphen before a closing bracket or another hyphen makes
no range. -/
def classRange? (f : Flags) (cs : List Char) : Option (CharClass × List Char) := do
  let (first, rest) ← classItem? f cs
  match skip f rest with
  | [] => none
  | '-' :: rest =>
    match skip f rest with
    | [] => none
    | ']' :: _ | '-' :: _ => some (← itemClass? f first, '-' :: rest)
    | rest =>
      let (last, rest) ← classItem? f rest
      match first, last with
      | .literal a _, .literal b _ =>
        if b < a then none
        else if f.unicode ∨ b.toNat < 0x80 then some (.table [(a.toNat, b.toNat)], rest)
        else none
      | _, _ => none
  | rest => some (← itemClass? f first, rest)

/-- Reads a class up to its closing bracket; `outer` holds the classes around it. The second result
is how deep classes are nested. -/
def bracketed? (f : Flags) : Nat → OpenClass → List OpenClass → List Char →
    Option (CharClass × Nat × List Char)
  | 0, _, _, _ => none
  | fuel + 1, o, outer, cs =>
    match skip f cs with
    | [] => none
    | '[' :: rest =>
      match asciiClass? rest with
      | some (k, rest) => bracketed? f fuel (o.add (foldClass f k)) outer rest
      | none => do
        let (inner, rest) ← openClass? f rest
        bracketed? f fuel inner (o :: outer) rest
    | ']' :: rest =>
      let k := o.closed f
      match outer with
      | [] => some (k, o.depth, rest)
      | p :: outer =>
        let p := p.add k
        bracketed? f fuel { p with depth := max p.depth (o.depth + 1) } outer rest
    | '&' :: '&' :: rest => bracketed? f fuel (o.operate f .intersection) outer rest
    | '-' :: '-' :: rest => bracketed? f fuel (o.operate f .difference) outer rest
    | '~' :: '~' :: rest => bracketed? f fuel (o.operate f .exclusive) outer rest
    | cs => do
      let (k, rest) ← classRange? f cs
      bracketed? f fuel (o.add k) outer rest

/-! Groups, flags and repetitions -/

/-- Flags up to `:` or `)`, which is left. Each flag may occur once, and one hyphen, not at the
end, between those that are set and those that are taken back. -/
def flags? (f : Flags) (seen : List Char) : List Char → Option (Flags × List Char × List Char)
  | [] => none
  | c :: cs =>
    if c = ':' ∨ c = ')' then
      if seen.head? = some '-' then none else some (f, seen, c :: cs)
    else if c ∈ seen then none
    else
      let on := !seen.contains '-'
      if c = '-' then flags? f (c :: seen) cs
      else if c = 'i' then flags? { f with ignoreCase := on } (c :: seen) cs
      else if c = 'm' then flags? { f with multiLine := on } (c :: seen) cs
      else if c = 's' then flags? { f with dotAll := on } (c :: seen) cs
      else if c = 'U' then flags? { f with swapGreed := on } (c :: seen) cs
      else if c = 'u' then flags? { f with unicode := on } (c :: seen) cs
      else if c = 'R' then flags? { f with crlf := on } (c :: seen) cs
      else if c = 'x' then flags? { f with verbose := on } (c :: seen) cs
      else none

/-- A decimal number below 2^32 with blanks around it. -/
def decimal? (f : Flags) (cs : List Char) : Option (Option Nat × List Char) :=
  let cs := cs.dropWhile isBlank
  let digits := cs.takeWhile Char.isDigit
  let rest := (skip f (cs.drop digits.length)).dropWhile isBlank
  if digits.isEmpty then some (none, rest)
  else
    let n := digits.foldl (fun n c => n * 10 + (c.toNat - 48)) 0
    if n < 4294967296 then some (some n, rest) else none

/-- The bounds of a repetition, behind the opening brace and up to the closing one. -/
def bounds? (f : Flags) (cs : List Char) : Option (Nat × Option Nat × List Char) := do
  let (least, rest) ← decimal? f (skip f cs)
  let least ← least
  match rest with
  | '}' :: rest => some (least, some least, rest)
  | ',' :: rest =>
    match skip f rest with
    | '}' :: rest => some (least, none, rest)
    | rest =>
      match ← decimal? f rest with
      | (some most, '}' :: rest) => if least ≤ most then some (least, some most, rest) else none
      | _ => none
  | _ => none

/-- An expression that is being read: what is built so far, the flags in force, the number of
groups and the names some of them have. -/
structure Reader where
  build : Build
  flags : Flags
  groups : Nat
  names : List (Nat × String)

namespace Reader

def push (r : Reader) (node : Node) (depth : Nat) : Reader :=
  { r with build := r.build.push ⟨node, depth⟩ }

/-- Repeats the last part, reluctantly if a `?` follows. -/
def iterate? (r : Reader) (least : Nat) (most : Option Nat) (cs : List Char) :
    Option (Reader × List Char) := do
  let (greedy, cs) := match cs with
    | '?' :: rest => (false, rest)
    | _ => (true, cs)
  let b ← r.build.iterate? least most (greedy != r.flags.swapGreed)
  some ({ r with build := b }, cs)

def capture (r : Reader) : Reader :=
  { r with build := r.build.openGroup (some (r.groups + 1)) r.flags, groups := r.groups + 1 }

/-- Opens a group by name, behind its angle bracket. -/
def namedGroup? (r : Reader) (cs : List Char) : Option (Reader × List Char) :=
  match cut? '>' cs with
  | some (c :: name, rest) =>
    let text := String.ofList (c :: name)
    if isGroupStart c ∧ name.all isGroupChar ∧ !r.names.any (·.2 == text) then
      let r := r.capture
      some ({ r with names := (r.groups, text) :: r.names }, rest)
    else none
  | _ => none

/-- What follows an opening parenthesis: a group, or a setting of flags. -/
def group? (r : Reader) (cs : List Char) : Option (Reader × List Char) :=
  match skip r.flags cs with
  | '?' :: '=' :: _ | '?' :: '!' :: _ | '?' :: '<' :: '=' :: _ | '?' :: '<' :: '!' :: _ => none
  | '?' :: 'P' :: '<' :: rest => r.namedGroup? rest
  | '?' :: '<' :: rest => r.namedGroup? rest
  | '?' :: rest => do
    let (f, seen, rest) ← flags? r.flags [] rest
    match rest with
    | ')' :: rest =>
      if seen.isEmpty then none
      else
        let level := { r.build.level with parts := none :: r.build.level.parts }
        some ({ r with build := { r.build with level := level }, flags := f }, rest)
    | _ :: rest => some ({ r with build := r.build.openGroup none r.flags, flags := f }, rest)
    | [] => none
  | rest => some (r.capture, rest)

/-- Closes the innermost group. Flags set inside it end with it. -/
def close? (r : Reader) : Option Reader := do
  let b ← r.build.closeGroup?
  some { r with build := b, flags := r.build.level.flags }

def escaped? (r : Reader) (cs : List Char) : Option (Reader × List Char) := do
  let (e, rest) ← escape? r.flags cs
  let node ← match e with
    | .literal c asByte => literalNode? r.flags c asByte
    | .charClass k => classNode? r.flags k
    | .assertion a => some (.look a)
  some (r.push node 0, rest)

/-- Reads one atom, operator or parenthesis that starts with `c`. -/
def step? (r : Reader) (c : Char) (cs : List Char) : Option (Reader × List Char) :=
  if c = '(' then r.group? cs
  else if c = ')' then r.close?.map (·, cs)
  else if c = '|' then
    some ({ r with build := { r.build with level := r.build.level.alternate } }, cs)
  else if c = '[' then do
    let (o, rest) ← openClass? r.flags cs
    let (k, depth, rest) ← bracketed? r.flags (cs.length + 1) o [] rest
    let node ← classNode? r.flags k
    some (r.push node depth, rest)
  else if c = '?' then r.iterate? 0 (some 1) cs
  else if c = '*' then r.iterate? 0 none cs
  else if c = '+' then r.iterate? 1 none cs
  else if c = '{' then do
    let (least, most, rest) ← bounds? r.flags cs
    r.iterate? least most (skip r.flags rest)
  else if c = '\\' then r.escaped? cs
  else if c = '.' then (dotNode? r.flags).map fun node => (r.push node 0, cs)
  else if c = '^' then some (r.push (.look (startAssertion r.flags)) 0, cs)
  else if c = '$' then some (r.push (.look (endAssertion r.flags)) 0, cs)
  else (literalNode? r.flags c false).map fun node => (r.push node 0, cs)

def run? : Nat → Reader → List Char → Option Reader
  | 0, _, _ => none
  | fuel + 1, r, cs =>
    match skip r.flags cs with
    | [] => some r
    | c :: cs => do
      let (r, rest) ← r.step? c cs
      run? fuel r rest

end Reader

structure Parsed where
  node : Node
  names : List (Nat × String)

def parse? (source : List Char) : Option Parsed := do
  let r ← Reader.run? (source.length + 1) ⟨.start {}, {}, 0, []⟩ source
  let node ← r.build.finish?
  some ⟨node, r.names⟩

end RouteQuery.Pattern
