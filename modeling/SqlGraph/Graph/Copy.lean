import SqlGraph.Graph.Transformer

/-!
# Copies of transformers

`Transformer.renamed` reads other columns: every label is looked up in a list of aliases, those of
relations included, and every relation becomes a new one. `Transformer.embedded` builds beans of
another kind whose content embeds the former one: it keeps the key and the columns and drops the
relations, whose fixers wire beans of the former kind.
-/

namespace SqlGraph.Graph

variable {α : Type}

/-- The label read in place of another. -/
def renamedLabel (aliases : List (String × String)) (label : String) : String :=
  (aliases.lookup label).getD label

mutual

/-- The transformer with its columns renamed. Relations are numbered anew from `next`; the first
number left is given back. -/
def Transformer.renamed (aliases : List (String × String)) :
    Transformer α → RelationId → Transformer α × RelationId
  | .mk factory columns relations, next =>
    let keyColumns := factory.keyColumns.map fun labels => labels.map (renamedLabel aliases)
    let columns := columns.map fun c => { c with label := renamedLabel aliases c.label }
    let (relations, next) := Relation.renamedAll aliases relations next
    (.mk { factory with keyColumns } columns relations, next)

/-- A relation with its columns renamed, under a number of its own. -/
def Relation.renamed (aliases : List (String × String)) :
    Relation α → RelationId → Relation α × RelationId
  | .mk _ target fixer policy, next =>
    let (target, after) := target.renamed aliases (next + 1)
    (.mk next target fixer policy, after)

/-- Relations renamed in order. -/
def Relation.renamedAll (aliases : List (String × String)) :
    List (Relation α) → RelationId → List (Relation α) × RelationId
  | [], next => ([], next)
  | r :: rest, next =>
    let (r, next) := r.renamed aliases next
    let (rest, next) := Relation.renamedAll aliases rest next
    (r :: rest, next)

end

/-- The same key and columns for beans of another kind, in whose content the former content is
embedded. -/
def Transformer.embedded {β : Type} (t : Transformer α) (kind : BeanKind) (construct : Key → β)
    (upcast : Slot β α) : Transformer β :=
  .mk { kind, keyColumns := t.factory.keyColumns, construct }
    (t.columns.map fun c =>
      { label := c.label
        consume := fun v b => (c.consume v (upcast.get b)).map fun a => upcast.set a b })
    []

end SqlGraph.Graph
