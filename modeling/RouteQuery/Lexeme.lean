import RouteQuery.Text.Basic

/-! The words of the query language. Query documents and schema text share them. -/
namespace RouteQuery
open Text

inductive Token where
  | name (text : String)
  | openBrace
  | closeBrace
  | colon
  | bang
  /-- A character that opens no token. -/
  | stray
  deriving DecidableEq, Repr

/-- A token and the text from its first character on. -/
structure Lexeme where
  token : Token
  start : List Char
  deriving DecidableEq, Repr

/-- The text from the end of the line on, where a comment may end: at a line feed, at a carriage
return with its line feed, or at the end. A lone carriage return spoils the comment. -/
def endOfComment? (cs : List Char) : Option (List Char) :=
  match cs.dropWhile fun c => c ≠ '\n' && c ≠ '\r' with
  | '\r' :: '\n' :: rest => some ('\r' :: '\n' :: rest)
  | '\r' :: _ => none
  | rest => some rest

theorem endOfComment?_le {cs rest : List Char} (h : endOfComment? cs = some rest) :
    rest.length ≤ cs.length := by
  have hle := length_dropWhile_le (fun c => c ≠ '\n' && c ≠ '\r') cs
  unfold endOfComment? at h
  split at h <;> simp_all

/-- The tokens of a text. Blanks, commas and comments between them do not count, and nothing is
read past a stray character. -/
def lexemes : List Char → List Lexeme
  | [] => []
  | c :: cs =>
    if c = ' ' ∨ c = '\t' ∨ c = '\r' ∨ c = '\n' ∨ c = ',' then lexemes cs
    else if c = '#' then
      match _h : endOfComment? cs with
      | some rest => lexemes rest
      | none => [⟨.stray, c :: cs⟩]
    else if isWordStart c then
      ⟨.name (String.ofList (c :: cs.takeWhile isWordChar)), c :: cs⟩
        :: lexemes (cs.dropWhile isWordChar)
    else if c = '{' then ⟨.openBrace, c :: cs⟩ :: lexemes cs
    else if c = '}' then ⟨.closeBrace, c :: cs⟩ :: lexemes cs
    else if c = ':' then ⟨.colon, c :: cs⟩ :: lexemes cs
    else if c = '!' then ⟨.bang, c :: cs⟩ :: lexemes cs
    else [⟨.stray, c :: cs⟩]
termination_by cs => cs.length
decreasing_by
  · simp
  · have := endOfComment?_le _h
    simp only [List.length_cons]; omega
  · have := length_dropWhile_le isWordChar cs
    simp only [List.length_cons]; omega
  all_goals simp

/-- The text from the first of the tokens on; the end of the text if there is none. -/
def startOf : List Lexeme → List Char
  | [] => []
  | l :: _ => l.start

/-- A place in a text and the character found there. -/
structure SyntaxFault where
  found : Option Char
  line : Nat
  column : Nat
  deriving DecidableEq, Repr

namespace SyntaxFault

/-- The place where `rest`, an end part of `text`, begins. Lines and columns count from one. -/
def locate (text rest : List Char) : SyntaxFault :=
  let before := text.take (text.length - rest.length)
  { found := (trimLeft rest).head?
    line := before.count '\n' + 1
    column := (before.reverse.takeWhile (· ≠ '\n')).length + 1 }

def message (fault : SyntaxFault) : String :=
  let found := match fault.found with
    | some c => "\"" ++ String.singleton c ++ "\""
    | none => "<EOF>"
  "Syntax Error: Unexpected " ++ found ++ " at line " ++ toString fault.line ++
    ", column " ++ toString fault.column ++ "."

end SyntaxFault
end RouteQuery
