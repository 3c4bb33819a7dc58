import SqlGraph.Graph.Heap

/-!
# Which beans are alive

Two questions are asked of a heap, given the beans that each bean holds. `reachable` lists the
beans found from some handles by following what beans hold. `alive` lists the beans that are still
held: a bean dies when neither a handle outside nor a living bean holds it, so beans that hold
each other in a circle stay alive.
-/

namespace SqlGraph.Graph

variable {α : Type}

/-- The beans that a bean holds. -/
def heldBy (held : α → List BeanId) (h : Heap α) (id : BeanId) : List BeanId :=
  ((h.content? id).map held).getD []

/-- Adds the beans held by the ones found so far, as many times as there is fuel. -/
def reachFrom (held : α → List BeanId) (h : Heap α) : Nat → List BeanId → List BeanId
  | 0, found => found
  | fuel + 1, found =>
    let next := (found.flatMap (heldBy held h)).filter fun id => !found.contains id
    if next.isEmpty then found else reachFrom held h fuel (found ++ next.eraseDups)

/-- The beans found from some handles, by ascending handle. -/
def reachable (held : α → List BeanId) (h : Heap α) (handles : List BeanId) : List BeanId :=
  let found := reachFrom held h h.size handles
  (List.range h.size).filter fun id => found.contains id

/-- Drops the beans that neither a handle outside nor a living bean holds, as many times as there
is fuel. -/
def dropUnheld (held : α → List BeanId) (h : Heap α) (outside : List BeanId) :
    Nat → List BeanId → List BeanId
  | 0, living => living
  | fuel + 1, living =>
    let holders := outside ++ living.flatMap (heldBy held h)
    let kept := living.filter fun id => holders.contains id
    if kept.length = living.length then living else dropUnheld held h outside fuel kept

/-- The beans that are still held when the given handles are all there are outside. -/
def alive (held : α → List BeanId) (h : Heap α) (outside : List BeanId) : List BeanId :=
  dropUnheld held h outside h.size (List.range h.size)

end SqlGraph.Graph
