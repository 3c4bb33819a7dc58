import SqlGraph.Graph.Collection
import SqlGraph.Graph.Fixer

/-!
# Named handles

A desk holds named handles to shared beans, named weak handles, and one collection of each of
three shapes. A bean lives as long as a named handle or a collection holds it; a weak handle
gives its bean only while it lives. A name that is used again drops the handle it had.
-/

namespace SqlGraph.Graph

/-- One of the collections of a desk. -/
inductive Shelf where
  | list
  | ordered
  | optional
deriving DecidableEq

/-- Named handles, weak handles and collections over beans with content of type `α`. -/
structure Desk (α : Type) where
  heap : Heap α := {}
  handles : List (String × BeanId) := []
  weakHandles : List (String × WeakLink) := []
  list : List BeanId := BeanCollection.empty
  ordered : OrderedSet := BeanCollection.empty
  optional : Option (List BeanId) := BeanCollection.empty

namespace Desk

variable {α : Type}

/-- Puts a value under a name, in place of a former one. -/
def assign {β : Type} (name : String) (value : β) (entries : List (String × β)) :
    List (String × β) :=
  (name, value) :: entries.filter fun e => e.1 != name

/-- The bean of a named handle. -/
def handle? (d : Desk α) (name : String) : Option BeanId := d.handles.lookup name

/-- All strong references to beans, one for each. -/
def holders (d : Desk α) : List BeanId :=
  d.handles.map (·.2) ++ d.list ++ d.ordered.members ++ d.optional.getD []

/-- A new bean under a name. -/
def create (d : Desk α) (name : String) (content : α) : Desk α :=
  let (bean, heap) := d.heap.construct 0 content
  { d with heap, handles := assign name bean d.handles }

/-- One more handle to a bean. -/
def share (d : Desk α) (name : String) (bean : BeanId) : Desk α :=
  { d with handles := assign name bean d.handles }

/-- Changes the content of a bean. -/
def write (d : Desk α) (bean : BeanId) (content : α) : Desk α :=
  { d with heap := d.heap.modify bean fun _ => content }

/-- Drops a named handle. -/
def release (d : Desk α) (name : String) : Desk α :=
  { d with handles := d.handles.filter fun e => e.1 != name }

/-- A weak handle under a name. -/
def assignWeak (d : Desk α) (name : String) (link : WeakLink) : Desk α :=
  { d with weakHandles := assign name link d.weakHandles }

/-- The bean of a weak link while it lives. -/
def upgrade? (d : Desk α) (link : WeakLink) : Option BeanId :=
  link.target.bind fun bean => if d.holders.contains bean then some bean else none

/-- Takes the content out of a bean, which must have no other handle; its name is gone then. -/
def reclaim? (d : Desk α) (name : String) (bean : BeanId) : Option (α × Desk α) :=
  if d.holders.count bean = 1 then
    (d.heap.content? bean).map fun content => (content, d.release name)
  else none

/-- Adds a bean to a collection. -/
def add (d : Desk α) (shelf : Shelf) (bean : BeanId) : Desk α :=
  match shelf with
  | .list => { d with list := BeanCollection.add d.list bean }
  | .ordered => { d with ordered := BeanCollection.add d.ordered bean }
  | .optional => { d with optional := BeanCollection.add d.optional bean }

/-- The beans of a collection, in order. -/
def members (d : Desk α) : Shelf → List BeanId
  | .list => d.list
  | .ordered => d.ordered.members
  | .optional => d.optional.getD []

/-- The contents of the beans of a collection. -/
def contents (d : Desk α) (shelf : Shelf) : List α :=
  (d.members shelf).filterMap d.heap.content?

end Desk

end SqlGraph.Graph
