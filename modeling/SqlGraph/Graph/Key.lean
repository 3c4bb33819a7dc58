import SqlGraph.Json.Text

/-!
# Keys

A bean is identified by the values of its key columns. A key with a null component identifies no
bean. Two keys are the same entry of a cache when they are equal and their digests are: the
digest is the data a hash is made of, and it tells apart the two zeros, which are equal.
-/

namespace SqlGraph.Graph

/-- The values of the key columns of a bean. -/
structure Key where
  values : List Json
deriving Inhabited

namespace Key

/-- Equality of contents, value by value. -/
def same (k l : Key) : Bool := Json.sameItems k.values l.values

instance : BEq Key := ⟨same⟩

/-- Whether a component is null, so that the key identifies no bean. -/
def isNull (k : Key) : Bool := k.values.any Json.isNull

/-- The only component of a key of one column. -/
def single? (k : Key) : Option Json :=
  match k.values with
  | [v] => some v
  | _ => none

end Key

/-! ## Digests -/

/-- A unit of the data a hash is made of. -/
inductive Atom where
  /-- the number of parts that follow -/
  | size (n : Nat)
  /-- the class of the value that follows -/
  | tag (n : Nat)
  | flag (b : Bool)
  | text (s : String)
deriving DecidableEq

mutual

/-- The digest of a value: its class, then its contents; numbers by their text. -/
def digest : Json → List Atom
  | .null => [.tag 0]
  | .bool b => [.tag 1, .flag b]
  | .number n => [.tag 2, .text n.text]
  | .string s => [.tag 3, .text s]
  | .array items => .tag 4 :: .size items.length :: digestItems items
  | .object members => .tag 5 :: .size members.length :: digestMembers members

/-- The digests of items in order. -/
def digestItems : List Json → List Atom
  | [] => []
  | v :: rest => digest v ++ digestItems rest

/-- The digests of members in order, each behind its key. -/
def digestMembers : List (String × Json) → List Atom
  | [] => []
  | (k, v) :: rest => .text k :: digest v ++ digestMembers rest

end

namespace Key

/-- The digest of a key: the number of its components, then theirs. -/
def digest (k : Key) : List Atom := .size k.values.length :: digestItems k.values

/-- Whether two keys find the same entry of a cache. Equal keys with different digests are taken to
miss each other: what a hash table finds under such a key is left open, as it depends on where the
digests place the two. -/
def sameEntry (k l : Key) : Bool := k == l && k.digest == l.digest

end Key

end SqlGraph.Graph
