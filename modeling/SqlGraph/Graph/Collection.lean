import SqlGraph.Graph.Heap

/-!
# Collections of beans

A one-to-many link keeps its related beans in a collection. All collections keep a bean once,
beans being told apart by identity: a list and an ordered set keep the order of first addition,
a plain set keeps none and lists its members by handle, and an optional collection is created by
its first addition.
-/

namespace SqlGraph.Graph

/-- A collection that related beans are added to. -/
class BeanCollection (γ : Type) where
  empty : γ
  add : γ → BeanId → γ

/-- A list adds a bean at its end unless it holds it already. -/
instance : BeanCollection (List BeanId) where
  empty := []
  add beans bean := if beans.contains bean then beans else beans ++ [bean]

/-- Distinct beans in order of insertion. -/
structure OrderedSet where
  members : List BeanId := []
deriving DecidableEq

namespace OrderedSet

/-- The position of a member. -/
def position? (s : OrderedSet) (bean : BeanId) : Option Nat :=
  s.members.findIdx? fun b => b == bean

/-- Inserts a bean at the end unless it has a position. -/
def insert (s : OrderedSet) (bean : BeanId) : OrderedSet :=
  match s.position? bean with
  | some _ => s
  | none => ⟨s.members ++ [bean]⟩

end OrderedSet

instance : BeanCollection OrderedSet where
  empty := {}
  add := OrderedSet.insert

/-- Distinct beans without order, listed by ascending handle. -/
structure PlainSet where
  members : List BeanId := []
deriving DecidableEq

namespace PlainSet

/-- Inserts a bean at its place by handle. -/
def insertSorted (bean : BeanId) : List BeanId → List BeanId
  | [] => [bean]
  | b :: rest =>
    if bean < b then bean :: b :: rest
    else if bean = b then b :: rest
    else b :: insertSorted bean rest

/-- Inserts a bean. -/
def insert (s : PlainSet) (bean : BeanId) : PlainSet := ⟨insertSorted bean s.members⟩

end PlainSet

instance : BeanCollection PlainSet where
  empty := {}
  add := PlainSet.insert

/-- An optional collection is created by its first addition. -/
instance {γ : Type} [BeanCollection γ] : BeanCollection (Option γ) where
  empty := none
  add beans bean := some (BeanCollection.add (beans.getD BeanCollection.empty) bean)

end SqlGraph.Graph
