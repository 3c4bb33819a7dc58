import SqlGraph.Graph.Collection

/-!
# Fixers

A fixer wires a related bean into its owner. A wire changes the content of the owner given the
handle of the related bean; a fixer with a reverse also wires the owner into the related bean,
afterwards. The usual wires write a slot of the content: a single link, a collection, or a weak
link that does not keep its target alive.
-/

namespace SqlGraph.Graph

variable {α γ : Type}

/-- A part of a content that can be read and replaced. -/
structure Slot (α γ : Type) where
  get : α → γ
  set : γ → α → α

/-- Changes the slot of a content. -/
def Slot.modify (s : Slot α γ) (f : γ → γ) (a : α) : α := s.set (f (s.get a)) a

/-- A link that does not keep its target alive; without target until it is first written. -/
structure WeakLink where
  target : Option BeanId := none
deriving DecidableEq

/-- How a related bean is wired into its owner. -/
inductive Fixer (α : Type) where
  /-- changes the content of the owner, given the related bean -/
  | wire (link : BeanId → α → α)
  /-- wires the related bean into the owner, then the owner into the related bean -/
  | withReverse (forward reverse : Fixer α)

namespace Fixer

/-- One to one: the related bean overwrites the slot. -/
def one (slot : Slot α (Option BeanId)) : Fixer α := .wire fun related => slot.set (some related)

/-- One to many: the related bean is added to the collection in the slot. -/
def many [BeanCollection γ] (slot : Slot α γ) : Fixer α :=
  .wire fun related => slot.modify fun beans => BeanCollection.add beans related

/-- A back link: the related bean overwrites the slot, without being kept alive by it. -/
def weak (slot : Slot α WeakLink) : Fixer α := .wire fun related => slot.set ⟨some related⟩

/-- Wires a related bean into its owner. -/
def fix : Fixer α → BeanId → BeanId → Heap α → Heap α
  | .wire link, owner, related, heap => heap.modify owner (link related)
  | .withReverse forward reverse, owner, related, heap =>
    reverse.fix related owner (forward.fix owner related heap)

end Fixer

end SqlGraph.Graph
