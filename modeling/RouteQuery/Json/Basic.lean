import RouteQuery.Json.Shortest
import RouteQuery.Text.Utf8

/-! JSON values whose objects keep the order of their keys. -/
namespace RouteQuery

/-- Integers from -2^63 to 2^64 - 1 are kept exactly; all other numbers are binary fractions. -/
inductive Json.Number where
  | int (n : Int)
  | float (x : Json.Binary64)
  deriving DecidableEq, Repr

inductive Json where
  | null
  | bool (b : Bool)
  | num (n : Json.Number)
  | str (s : String)
  | arr (items : List Json)
  | obj (members : List (String × Json))
  deriving Repr

namespace Json

instance : Inhabited Json := ⟨.null⟩

def ofNat (n : Nat) : Json := .num (.int n)

/-- Sets `key`: in place where it occurs, at the end otherwise. -/
def put {α : Type} (members : List (String × α)) (key : String) (value : α) : List (String × α) :=
  match members with
  | [] => [(key, value)]
  | (k, v) :: rest => if k = key then (key, value) :: rest else (k, v) :: put rest key value

/-- Members in the order in which each key is first seen, each with its last value. -/
def mkObj (members : List (String × Json)) : Json :=
  .obj (members.foldl (fun acc (k, v) => put acc k v) [])

def get? : Json → String → Option Json
  | .obj members, key => members.lookup key
  | _, _ => none

def isNull : Json → Bool
  | .null => true
  | _ => false

def nat? : Json → Option Nat
  | .num (.int (.ofNat n)) => some n
  | _ => none

def str? : Json → Option String
  | .str s => some s
  | _ => none

def bool? : Json → Option Bool
  | .bool b => some b
  | _ => none

/-- The values of a record with the given fields, each of which may go by several names. An object
holds them by name, among other members; an array holds the first of them in order, and no more items
than fields if it is `exact`. None when the value is neither or when one field is given twice. -/
def record? (exact : Bool) (fields : List (List String)) : Json → Option (List (Option Json))
  | .obj members => fields.mapM fun names =>
    match members.filter (·.1 ∈ names) with
    | [] => some none
    | [(_, v)] => some (some v)
    | _ => none
  | .arr items =>
    if exact && fields.length < items.length then none
    else some ((items.take fields.length).map some ++
      List.replicate (fields.length - items.length) none)
  | _ => none

/-! Two values are the same when they are built alike. -/

mutual

def same : Json → Json → Bool
  | null, null => true
  | bool b, bool c => b == c
  | num m, num n => m == n
  | str s, str t => s == t
  | arr vs, arr ws => sameItems vs ws
  | obj ms, obj ns => sameMembers ms ns
  | _, _ => false

def sameItems : List Json → List Json → Bool
  | [], [] => true
  | v :: vs, w :: ws => same v w && sameItems vs ws
  | _, _ => false

def sameMembers : List (String × Json) → List (String × Json) → Bool
  | [], [] => true
  | (k, v) :: ms, (l, w) :: ns => k == l && same v w && sameMembers ms ns
  | _, _ => false

end

mutual

theorem same_iff : ∀ {v w : Json}, same v w = true ↔ v = w
  | .null, w | .bool _, w | .num _, w | .str _, w => by cases w <;> simp [same]
  | .arr vs, w => by cases w <;> simp [same, @sameItems_iff vs]
  | .obj ms, w => by cases w <;> simp [same, @sameMembers_iff ms]

theorem sameItems_iff : ∀ {vs ws : List Json}, sameItems vs ws = true ↔ vs = ws
  | [], ws => by cases ws <;> simp [sameItems]
  | v :: vs, ws => by cases ws <;> simp [sameItems, @same_iff v, @sameItems_iff vs]

theorem sameMembers_iff : ∀ {ms ns : List (String × Json)}, sameMembers ms ns = true ↔ ms = ns
  | [], ns => by cases ns <;> simp [sameMembers]
  | (k, v) :: ms, ns => by
    cases ns <;> simp [sameMembers, @same_iff v, @sameMembers_iff ms, Prod.ext_iff, and_assoc]

end

instance : DecidableEq Json := fun v w => decidable_of_iff (same v w = true) same_iff
end Json
end RouteQuery
