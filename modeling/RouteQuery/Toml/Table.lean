import RouteQuery.Json.Basic

/-! Tables under construction. A table may be opened by a header once, and what is written in one
place may not be extended from another by dotted keys. -/
namespace RouteQuery.Toml

/-- What brought a table into being. -/
inductive Origin where
  | header
  /-- A header for a table inside it. -/
  | implied
  | dottedKey
  deriving DecidableEq, Repr

inductive Item where
  | value (v : Json)
  | table (origin : Origin) (entries : List (String × Item))
  /-- Tables under one name, each opened by a header of its own. -/
  | tables (elements : List (List (String × Item)))

abbrev Entries := List (String × Item)

namespace Item

mutual

def toJson : Item → Json
  | value v => v
  | table _ entries => .obj (membersOf entries)
  | tables elements => .arr (elementsOf elements)

def membersOf : List (String × Item) → List (String × Json)
  | [] => []
  | (k, item) :: rest => (k, item.toJson) :: membersOf rest

def elementsOf : List (List (String × Item)) → List Json
  | [] => []
  | entries :: rest => .obj (membersOf entries) :: elementsOf rest

end

end Item

namespace Entries

def changeLast (change : Entries → Option Entries) : List Entries → Option (List Entries)
  | [] => none
  | [t] => do return [← change t]
  | t :: ts => do return t :: (← changeLast change ts)

/-- Sets a value under a dotted key. The tables on the way may not have been opened by a header, and
the last of them must itself come from a dotted key. -/
def insert (key : String) (v : Json) : List String → Entries → Option Entries
  | [], entries =>
    if (entries.lookup key).isSome then none else some (entries ++ [(key, .value v)])
  | part :: path, entries =>
    match entries.lookup part with
    | none => do return entries ++ [(part, .table .dottedKey (← insert key v path []))]
    | some (.table origin inner) =>
      if origin = .header ∨ (path = [] ∧ origin = .implied) then none
      else do return Json.put entries part (.table origin (← insert key v path inner))
    | some (.tables elements) =>
      if path = [] then none
      else do return Json.put entries part (.tables (← changeLast (insert key v path) elements))
    | some (.value _) => none

/-- Changes the table that a path leads to. Missing tables on the way come into being; of several
tables under one name the way leads through the last. -/
def change (f : Entries → Option Entries) : List String → Entries → Option Entries
  | [], entries => f entries
  | part :: path, entries =>
    match entries.lookup part with
    | none => do return entries ++ [(part, .table .implied (← change f path []))]
    | some (.table origin inner) => do
      return Json.put entries part (.table origin (← change f path inner))
    | some (.tables elements) => do
      return Json.put entries part (.tables (← changeLast (change f path) elements))
    | some (.value _) => none

/-- Opens the table under a name, which at most an inner header may have brought into being. -/
def openTable (name : String) (entries : Entries) : Option Entries :=
  match entries.lookup name with
  | none => some (entries ++ [(name, .table .header [])])
  | some (.table .implied inner) => some (Json.put entries name (.table .header inner))
  | some _ => none

def openElement (name : String) (entries : Entries) : Option Entries :=
  match entries.lookup name with
  | none => some (entries ++ [(name, .tables [[]])])
  | some (.tables elements) => some (Json.put entries name (.tables (elements ++ [[]])))
  | some _ => none

end Entries
end RouteQuery.Toml
