import SqlGraph.Graph.Key

/-!
# Beans

A bean is an instance of the graph: its kind and its content. Beans live in a heap and are
referred to by their handle, the number of beans constructed before; two handles are equal when
they refer to the same instance, whatever its content.
-/

namespace SqlGraph.Graph

/-- The handle of a bean: how many beans were constructed before it. -/
abbrev BeanId := Nat

/-- The kind of a bean. Beans of different kinds are never the same bean, whatever their key. -/
abbrev BeanKind := Nat

/-- An instance of the graph. -/
structure Bean (α : Type) where
  kind : BeanKind
  content : α

/-- All beans constructed so far, in that order. -/
structure Heap (α : Type) where
  beans : List (Bean α) := []

namespace Heap

variable {α : Type}

/-- The number of beans. -/
def size (h : Heap α) : Nat := h.beans.length

/-- The bean of a handle. -/
def bean? (h : Heap α) (id : BeanId) : Option (Bean α) := h.beans[id]?

/-- The content of a bean. -/
def content? (h : Heap α) (id : BeanId) : Option α := (h.bean? id).map (·.content)

/-- Constructs a bean. -/
def construct (h : Heap α) (kind : BeanKind) (content : α) : BeanId × Heap α :=
  (h.size, ⟨h.beans ++ [⟨kind, content⟩]⟩)

/-- Changes the content of a bean. -/
def modify (h : Heap α) (id : BeanId) (f : α → α) : Heap α :=
  ⟨h.beans.modify id fun b => { b with content := f b.content }⟩

end Heap

end SqlGraph.Graph
