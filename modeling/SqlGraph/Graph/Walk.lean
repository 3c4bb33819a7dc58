import SqlGraph.Graph.Liveness
import SqlGraph.Graph.Transformer

/-!
# Walks

A walk goes through a result one step at a time: it moves the cursor, transforms the current row
with any transformer, or puts beans in place on its own account. It remembers the beans that its
steps gave, since whoever took the steps holds them. A step that fails keeps what it built before
it failed, but gives no bean.
-/

namespace SqlGraph.Graph

/-- A source being walked, what was built so far, and the beans given in order. -/
structure Walk (α : Type) where
  source : Source
  state : State α := {}
  given : List BeanId := []

namespace Walk

variable {α β : Type}

/-- The current row. -/
def row (w : Walk α) : Row := w.source.cursor.get

/-- Moves to the next row. -/
def advance (w : Walk α) : Except Error Bool × Walk α :=
  let (found, source) := w.source.advance
  (found, { w with source })

/-- The walk after a step, which gives beans if it succeeds. -/
def settle (w : Walk α) (beans : β → List BeanId) (o : Outcome α β) : Except Error β × Walk α :=
  match o with
  | (.error e, state) => (.error e, { w with state })
  | (.ok b, state) => (.ok b, { w with state, given := w.given ++ beans b })

/-- Transforms the current row. -/
def transform (w : Walk α) (t : Transformer α) : Except Error (Option BeanId) × Walk α :=
  w.settle Option.toList (t.transform w.row w.state)

/-- Produces the bean of the current row, without filling or wiring it. -/
def produce (w : Walk α) (f : Factory α) : Except Error (Option (BeanId × Bool)) × Walk α :=
  w.settle (fun made => made.toList.map (·.1)) (f.produce w.row w.state)

/-- Constructs a bean and remembers it as the one of its kind and key. -/
def place (w : Walk α) (kind : BeanKind) (key : Key) (content : α) : BeanId × Walk α :=
  let (bean, heap) := w.state.heap.construct kind content
  let context := w.state.context.remember kind key bean
  (bean, { w with state := ⟨heap, context⟩, given := w.given ++ [bean] })

/-- Starts a new context; the beans built so far stay. -/
def renew (w : Walk α) : Walk α := { w with state := { w.state with context := {} } }

/-- The beans found from the given ones. -/
def found (held : α → List BeanId) (w : Walk α) : List BeanId :=
  reachable held w.state.heap w.given

/-- The beans kept alive by the given ones and by the context. -/
def living (held : α → List BeanId) (w : Walk α) : List BeanId :=
  alive held w.state.heap (w.given ++ w.state.context.held)

end Walk

end SqlGraph.Graph
