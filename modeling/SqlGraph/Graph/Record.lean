import SqlGraph.Graph.Transformer

/-!
# Records

A record is a general content for beans: the key it was constructed with, fields by name, links
by slot, and counts of how often it was filled and fixed. A slot is told by the kind of the
related bean, the shape of the link and a name; it appears with its first fix.
-/

namespace SqlGraph.Graph

/-- How a slot keeps its related beans. -/
inductive LinkShape where
  | plainSet
  | orderedSet
  | one
  | optionalList
  | list
  | weak
deriving DecidableEq

namespace LinkShape

/-- The place of a shape among the shapes. -/
def rank : LinkShape → Nat
  | .plainSet => 0
  | .orderedSet => 1
  | .one => 2
  | .optionalList => 3
  | .list => 4
  | .weak => 5

end LinkShape

/-- A slot of a record. -/
structure SlotName where
  kind : BeanKind
  shape : LinkShape
  name : String
deriving DecidableEq

/-- Slots are ordered by kind, then by shape, then by name. -/
def SlotName.before (a b : SlotName) : Bool :=
  a.kind < b.kind ||
    (a.kind == b.kind &&
      (a.shape.rank < b.shape.rank || (a.shape == b.shape && a.name < b.name)))

/-- The related beans a slot keeps. -/
inductive Links where
  | plainSet (beans : PlainSet)
  | orderedSet (beans : OrderedSet)
  | one (bean : Option BeanId)
  | optionalList (beans : Option (List BeanId))
  | list (beans : List BeanId)
  | weak (link : WeakLink)
deriving DecidableEq

namespace Links

/-- A slot that no fix has touched. -/
def empty : LinkShape → Links
  | .plainSet => .plainSet BeanCollection.empty
  | .orderedSet => .orderedSet BeanCollection.empty
  | .one => .one none
  | .optionalList => .optionalList BeanCollection.empty
  | .list => .list BeanCollection.empty
  | .weak => .weak {}

/-- Links a related bean: collections add it, single links are overwritten. -/
def add (related : BeanId) : Links → Links
  | .plainSet beans => .plainSet (BeanCollection.add beans related)
  | .orderedSet beans => .orderedSet (BeanCollection.add beans related)
  | .one _ => .one (some related)
  | .optionalList beans => .optionalList (BeanCollection.add beans related)
  | .list beans => .list (BeanCollection.add beans related)
  | .weak _ => .weak ⟨some related⟩

/-- The beans that the slot keeps alive. -/
def held : Links → List BeanId
  | .plainSet beans => beans.members
  | .orderedSet beans => beans.members
  | .one bean => bean.toList
  | .optionalList beans => beans.getD []
  | .list beans => beans
  | .weak _ => []

end Links

/-- A general content for beans. -/
structure Record where
  key : Key := ⟨[]⟩
  fields : List (String × Json) := []
  fills : Nat := 0
  fixes : List (String × Nat) := []
  links : List (SlotName × Links) := []

/-- Counts one more occurrence of a name. -/
def countName (name : String) : List (String × Nat) → List (String × Nat)
  | [] => [(name, 1)]
  | (n, k) :: rest => if n = name then (n, k + 1) :: rest else (n, k) :: countName name rest

/-- Changes the links of a slot, which appears at its place if it is new. -/
def modifySlot (slot : SlotName) (f : Links → Links) :
    List (SlotName × Links) → List (SlotName × Links)
  | [] => [(slot, f (.empty slot.shape))]
  | (s, ls) :: rest =>
    if s = slot then (s, f ls) :: rest
    else if slot.before s then (slot, f (.empty slot.shape)) :: (s, ls) :: rest
    else (s, ls) :: modifySlot slot f rest

namespace Record

/-- A record constructed for a key. -/
def ofKey (key : Key) : Record := { key := key }

/-- Overwrites a field and counts the fill. -/
def fill (field : String) (v : Json) (r : Record) : Record :=
  { r with fields := Json.insertMember field v r.fields, fills := r.fills + 1 }

/-- The fixer that links related beans of a kind into a slot. -/
def linkFixer (kind : BeanKind) (shape : LinkShape) (name : String) : Fixer Record :=
  .wire fun related r =>
    { r with links := modifySlot ⟨kind, shape, name⟩ (Links.add related) r.links }

/-- The fixer that only counts how often it is applied. -/
def countFixer (name : String) : Fixer Record :=
  .wire fun _ r => { r with fixes := countName name r.fixes }

/-- The beans that the record keeps alive. -/
def held (r : Record) : List BeanId := r.links.flatMap fun (_, ls) => ls.held

end Record

end SqlGraph.Graph
