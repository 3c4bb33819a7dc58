import SqlGraph.Decimal.Binary64

/-!
# JSON values

A cell of a result, a parameter of a statement and a component of a key are JSON values.
Integers and floats are kept apart, so `1` and `1.0` differ, and members of an object are listed
by ascending key, each key once (`Json.ofMembers`).

Equality (`==`) is equality of contents with floats compared by value, which makes the two zeros
equal; it is therefore coarser than structural equality.
-/

namespace SqlGraph

/-- A number of a JSON value: an integer, or a float. -/
inductive Number where
  | integer (n : Int)
  | float (x : Binary64)
deriving DecidableEq, Inhabited

namespace Number

/-- Equality within one class of numbers, floats by value. -/
def same : Number → Number → Bool
  | .integer m, .integer n => m == n
  | .float x, .float y => x.sameValue y
  | _, _ => false

instance : BEq Number := ⟨same⟩

end Number

/-- A JSON value. -/
inductive Json where
  | null
  | bool (b : Bool)
  | number (n : Number)
  | string (s : String)
  | array (items : List Json)
  | object (members : List (String × Json))
deriving Inhabited

namespace Json

/-! ## Equality -/

mutual

/-- Equality of contents, numbers by `Number.same`. -/
def same : Json → Json → Bool
  | .null, .null => true
  | .bool a, .bool b => a == b
  | .number a, .number b => a == b
  | .string a, .string b => a == b
  | .array a, .array b => sameItems a b
  | .object a, .object b => sameMembers a b
  | _, _ => false

/-- Equality of lists of values, item by item. -/
def sameItems : List Json → List Json → Bool
  | [], [] => true
  | a :: as, b :: bs => same a b && sameItems as bs
  | _, _ => false

/-- Equality of lists of members, keys and values both. -/
def sameMembers : List (String × Json) → List (String × Json) → Bool
  | [], [] => true
  | (k, a) :: as, (l, b) :: bs => k == l && same a b && sameMembers as bs
  | _, _ => false

end

instance : BEq Json := ⟨same⟩

/-! ## Access -/

/-- Whether the value is `null`. -/
def isNull : Json → Bool
  | .null => true
  | _ => false

/-- The name of the class a value belongs to. -/
def className : Json → String
  | .null => "null"
  | .bool _ => "bool"
  | .number _ => "number"
  | .string _ => "string"
  | .array _ => "array"
  | .object _ => "object"

/-- A natural number as a value. -/
def ofNat (n : Nat) : Json := .number (.integer n)

/-- The member of an object with the given key. -/
def member? (key : String) : Json → Option Json
  | .object members => members.lookup key
  | _ => none

/-- The value as a string. -/
def string? : Json → Option String
  | .string s => some s
  | _ => none

/-- The value as a truth value. -/
def bool? : Json → Option Bool
  | .bool b => some b
  | _ => none

/-- The value as an integer. -/
def int? : Json → Option Int
  | .number (.integer n) => some n
  | _ => none

/-- The value as a natural number. -/
def nat? (v : Json) : Option Nat :=
  v.int?.bind fun n => if 0 ≤ n then some n.toNat else none

/-- The items of an array. -/
def array? : Json → Option (List Json)
  | .array items => some items
  | _ => none

/-- The members of an object. -/
def object? : Json → Option (List (String × Json))
  | .object members => some members
  | _ => none

/-! ## Objects -/

/-- Puts a member at its place by key, replacing a member of the same key. -/
def insertMember (key : String) (value : Json) : List (String × Json) → List (String × Json)
  | [] => [(key, value)]
  | (k, v) :: rest =>
    if key < k then (key, value) :: (k, v) :: rest
    else if key = k then (key, value) :: rest
    else (k, v) :: insertMember key value rest

/-- The object with the given members, the last one of each key. -/
def ofMembers (members : List (String × Json)) : Json :=
  .object (members.foldl (fun sorted m => insertMember m.1 m.2 sorted) [])

end Json

end SqlGraph
