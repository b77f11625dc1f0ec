import RouteQuery.Descriptor

/-! From an annotated query to text in which every path is a name. -/
namespace RouteQuery.QueryText
open Text

/-- Blanks out every line that holds a `#`. -/
def stripComments (query : List Char) : List Char :=
  unlines ((lines query).map fun line => if line.contains '#' then [] else line)

/-- Cuts every line at its first `@`. -/
def stripDescriptors (query : List Char) : List Char :=
  unlines ((lines query).map (·.takeWhile (· ≠ '@')))

def validate (query : List Char) : Except Fault Unit :=
  if query.all isBlank then .error .emptyQuery else .ok ()

def normalize (query : List Char) : Except Fault (List Char) := do
  validate query
  .ok (Escape.encodeChars (stripDescriptors (stripComments query)))

/-- The first underscore that a letter and at least one more word character follow, with all word
characters after it; and the text behind them. -/
def pathIdentifiers : List Char → List String
  | '_' :: d :: e :: rest =>
    if d.isAlpha && isWordChar e then
      String.ofList ('_' :: d :: e :: rest.takeWhile isWordChar)
        :: pathIdentifiers (rest.dropWhile isWordChar)
    else pathIdentifiers (d :: e :: rest)
  | _ :: cs => pathIdentifiers cs
  | [] => []
termination_by cs => cs.length
decreasing_by
  · have := length_dropWhile_le isWordChar rest
    simp only [List.length_cons]; omega
  all_goals simp

/-- Keeps the first of equal items. -/
def distinct {α : Type} [DecidableEq α] (xs : List α) : List α :=
  (xs.foldl (fun seen x => if x ∈ seen then seen else x :: seen) []).reverse

/-- The path identifiers of an escaped query, each once, in order of first occurrence. -/
def extractPaths (query : List Char) : Except Fault (List String) := do
  validate query
  match distinct (pathIdentifiers query) with
  | [] => .error .noPaths
  | paths => .ok paths

end RouteQuery.QueryText
