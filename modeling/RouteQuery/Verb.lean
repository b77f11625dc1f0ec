/-! The verbs that a path block may declare. -/
namespace RouteQuery

inductive Verb where
  | get | post | delete | put | patch
  deriving DecidableEq, Repr

namespace Verb

/-- In the order in which the schema lists them. -/
def all : List Verb := [get, post, delete, put, patch]

def name : Verb → String
  | get => "GET"
  | post => "POST"
  | delete => "DELETE"
  | put => "PUT"
  | patch => "PATCH"

def ofName? (name : String) : Option Verb := all.find? (·.name == name)

end Verb
end RouteQuery
