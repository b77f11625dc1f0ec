import RouteQuery.Text.Basic

/-! Escaping of route paths. Each reserved character has a token of letters and underscores, so
that an escaped path is a name of the query language. -/
namespace RouteQuery.Escape

/-- The reserved characters and their tokens, in the order in which tokens are tried. -/
def table : List (Char × String) :=
  [('\\', "_backslash_"), ('/', "_slash_"), (':', "_colon_"), ('^', "_carrot_"),
   ('$', "_dollar_"), ('.', "_dot_"), ('*', "_asterisk_"), ('(', "_leftperen_"),
   (')', "_rightperen_"), ('[', "_leftbracket_"), (']', "_rightbracket_"),
   ('?', "_questionmark_"), ('+', "_addition_")]

def tokenFor? (c : Char) : Option String := table.lookup c

def encodeChar (c : Char) : List Char :=
  match tokenFor? c with
  | some token => token.toList
  | none => [c]

def encodeChars (cs : List Char) : List Char := cs.flatMap encodeChar

/-- The reserved character whose token opens the text, with the text after the token. -/
def leadingToken? (cs : List Char) : Option (Char × List Char) :=
  table.findSome? fun (c, token) => (Text.after? token.toList cs).map (c, ·)

theorem leadingToken?_shorter {c d : Char} {cs rest : List Char}
    (h : leadingToken? (c :: cs) = some (d, rest)) : rest.length < (c :: cs).length := by
  obtain ⟨⟨r, token⟩, hmem, hr⟩ := List.exists_of_findSome?_eq_some h
  obtain ⟨zs, hz, he⟩ := Option.map_eq_some_iff.1 hr
  have hpos : 0 < token.toList.length := by
    revert hmem
    simp only [table, List.mem_cons, List.not_mem_nil, or_false, Prod.mk.injEq]
    rintro (⟨_, rfl⟩ | ⟨_, rfl⟩ | ⟨_, rfl⟩ | ⟨_, rfl⟩ | ⟨_, rfl⟩ | ⟨_, rfl⟩ | ⟨_, rfl⟩ |
      ⟨_, rfl⟩ | ⟨_, rfl⟩ | ⟨_, rfl⟩ | ⟨_, rfl⟩ | ⟨_, rfl⟩ | ⟨_, rfl⟩) <;> decide
  simp only [Prod.mk.injEq] at he
  unfold Text.after? at hz
  split at hz
  · simp only [Option.some.injEq] at hz
    rw [← he.2, ← hz, List.length_drop, List.length_cons]
    omega
  · simp at hz

/-- From left to right, each token becomes its character. -/
def decodeChars : List Char → List Char
  | [] => []
  | c :: cs =>
    match _h : leadingToken? (c :: cs) with
    | some (reserved, rest) => reserved :: decodeChars rest
    | none => c :: decodeChars cs
termination_by cs => cs.length
decreasing_by
  · exact leadingToken?_shorter _h
  · simp

def encode (text : String) : String := String.ofList (encodeChars text.toList)

def decode (text : String) : String := String.ofList (decodeChars text.toList)

def slashToken : String := "_slash_"

def colonToken : String := "_colon_"

end RouteQuery.Escape
