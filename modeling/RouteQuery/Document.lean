import RouteQuery.Lexeme

/-! Query documents: `query Name { field { field } field }`, where the word and the name may be
left out. -/
namespace RouteQuery

inductive Selection where
  | leaf (name : String)
  | branch (name : String) (children : List Selection)
  deriving Repr

namespace Selection

def name : Selection → String
  | leaf name => name
  | branch name _ => name

def children : Selection → List Selection
  | leaf _ => []
  | branch _ children => children

end Selection

structure Document where
  operation : Option String
  selections : List Selection
  deriving Repr

namespace Document

/-- Reads a selection set behind its opening brace, up to its closing one. `inner` holds, in
reverse, the selections read so far; `outer` the sets around it, each with the name that the set
inside it belongs to. A fault is reported at the token where it shows or, inside a nested set,
at the opening brace of the outermost nested set, `nested`. -/
def selectionSet (inner : List Selection) (outer : List (String × List Selection))
    (nested : Option (List Char)) : List Lexeme → Except (List Char) (List Selection × List Lexeme)
  | [] => .error (nested.getD [])
  | ⟨token, start⟩ :: rest =>
    match token, inner, outer with
    | .name n, _, _ => selectionSet (.leaf n :: inner) outer nested rest
    | .openBrace, .leaf n :: before, _ =>
      selectionSet [] ((n, before) :: outer) (nested.or (some start)) rest
    | .closeBrace, _ :: _, [] => .ok (inner.reverse, rest)
    | .closeBrace, _ :: _, (n, before) :: outer =>
      selectionSet (.branch n inner.reverse :: before) outer
        (if outer.isEmpty then none else nested) rest
    | _, _, _ => .error (nested.getD start)

/-- Reads a selection set from its opening brace to the end of the text. -/
def selectionsOnly : List Lexeme → Except (List Char) (List Selection)
  | ⟨.openBrace, _⟩ :: rest =>
    match selectionSet [] [] none rest with
    | .ok (selections, []) => .ok selections
    | .ok (_, extra) => .error (startOf extra)
    | .error place => .error place
  | ts => .error (startOf ts)

/-- Reads the tokens of `text`. A set that opens the document and does not close is reported at
its first brace, a first word other than `query` at the start of the text. -/
def ofLexemes (text : List Char) (ts : List Lexeme) : Except (List Char) Document :=
  match ts with
  | ⟨.openBrace, start⟩ :: rest =>
    match selectionSet [] [] none rest with
    | .ok (selections, []) => .ok ⟨none, selections⟩
    | .ok (_, extra) => .error (startOf extra)
    | .error _ => .error start
  | ⟨.name word, _⟩ :: rest =>
    if word = "query" then
      match rest with
      | ⟨.name operation, _⟩ :: rest => (selectionsOnly rest).map (⟨some operation, ·⟩)
      | rest => (selectionsOnly rest).map (⟨none, ·⟩)
    else .error text
  | ts => .error (startOf ts)

def parse (text : List Char) : Except SyntaxFault Document :=
  (ofLexemes text (lexemes text)).mapError (SyntaxFault.locate text)

end Document
end RouteQuery
