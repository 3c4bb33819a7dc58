import SqlGraph.Accumulate.Basic
import SqlGraph.Graph.Transformer

/-!
# Traversals of a whole result

A traversal transforms every row of a result with one root transformer, in a context of its own,
and hands every root bean to an accumulator once, on the first row that reads it as a root. The
first error, of the result, of a row or of the accumulator, ends the traversal.
-/

namespace SqlGraph.Graph

variable {α σ ω : Type}

/-- A root as it is handed over: its handle, and the beans at that moment. -/
structure Delivery (α : Type) where
  bean : BeanId
  heap : Heap α

/-- Deliveries are equal when they are of the same bean. -/
instance : BEq (Delivery α) := ⟨fun a b => a.bean == b.bean⟩

namespace Transformer

/-- Hands a root over unless it was handed over before. -/
def deliver (acc : Accumulator (Delivery α) σ ω) (seed : σ) (bean : BeanId) (s : State α) :
    Outcome α σ :=
  if s.context.isRoot bean then (.ok seed, s)
  else
    let s := { s with context := s.context.markRoot bean }
    (acc.aggregate seed { bean, heap := s.heap }, s)

/-- Transforms the rows ahead, handing roots over, then finishes. -/
def traverseFrom (t : Transformer α) (acc : Accumulator (Delivery α) σ ω) (seed : σ) :
    List (Except Error Row) → State α → Outcome α ω
  | [], s => (acc.finish seed, s)
  | .error e :: _, s => (.error e, s)
  | .ok row :: rest, s =>
    (t.transform row s).andThen fun root s =>
      match root with
      | none => traverseFrom t acc seed rest s
      | some bean =>
        (deliver acc seed bean s).andThen fun seed s => traverseFrom t acc seed rest s

/-- Folds the roots of a result, starting with the beans that exist already. -/
def traverse (t : Transformer α) (acc : Accumulator (Delivery α) σ ω)
    (feed : List (Except Error Row)) (heap : Heap α) : Outcome α ω :=
  t.traverseFrom acc acc.supply feed { heap := heap }

/-- The roots of a result in order of first appearance. -/
def list (t : Transformer α) (feed : List (Except Error Row)) (heap : Heap α) :
    Outcome α (List BeanId) :=
  t.traverse (Accumulator.toList.comap (·.bean)) feed heap

/-- The only root of a result, if there is one; several are an error. -/
def unique (t : Transformer α) (feed : List (Except Error Row)) (heap : Heap α) :
    Outcome α (Option BeanId) :=
  t.traverse ((Accumulator.uniqueNonNull fun _ => false).comap (·.bean)) feed heap

end Transformer

/-- The outcomes of running a traversal several times; the beans of one run stay for the next. -/
def repeated {β : Type} (run : Heap α → Outcome α β) : Nat → Heap α → List (Outcome α β)
  | 0, _ => []
  | times + 1, heap =>
    let outcome := run heap
    outcome :: repeated run times outcome.2.heap

end SqlGraph.Graph
