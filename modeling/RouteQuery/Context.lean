import RouteQuery.Json.Basic

/-! The values that tasks and hooks share, by key. -/
namespace RouteQuery

/-- Each key stands once. -/
structure Context where
  entries : List (String × Json)

namespace Context

def empty : Context := ⟨[]⟩

def get? (c : Context) (key : String) : Option Json := c.entries.lookup key

def size (c : Context) : Nat := c.entries.length

def insert (c : Context) (key : String) (value : Json) : Context := ⟨Json.put c.entries key value⟩

def erase (c : Context) (key : String) : Context := ⟨c.entries.filter (·.1 ≠ key)⟩

/-- The value that an update starts from. A null counts as none. -/
def current? (c : Context) (key : String) : Option Json := (c.get? key).filter (!·.isNull)

def update (c : Context) (key : String) (f : Option Json → Json) : Context × Json :=
  let value := f (c.current? key)
  (c.insert key value, value)

/-- Contexts behind handles. Several handles may lead to one context. -/
structure Pool where
  contexts : List Context := [empty]
  /-- For each handle the number of its context. -/
  handles : List Nat := [0]

namespace Pool

def context (p : Pool) (handle : Nat) : Context :=
  (p.contexts[(p.handles[handle]?).getD 0]?).getD empty

def set (p : Pool) (handle : Nat) (c : Context) : Pool :=
  { p with contexts := p.contexts.set ((p.handles[handle]?).getD 0) c }

def same (p : Pool) (handle other : Nat) : Bool := p.handles[handle]? == p.handles[other]?

/-- One more handle to the context of `handle`. -/
def share (p : Pool) (handle : Nat) : Pool :=
  { p with handles := p.handles ++ [(p.handles[handle]?).getD 0] }

/-- One more handle, to an empty context of its own. -/
def add (p : Pool) : Pool :=
  ⟨p.contexts ++ [empty], p.handles ++ [p.contexts.length]⟩

end Pool
end Context
end RouteQuery
