import SqlGraph.Graph.Context
import SqlGraph.Graph.Conversion
import SqlGraph.Graph.Fixer

/-!
# Row transformers

A transformer turns the current row into a bean. Its factory finds the bean by key in the
context or constructs it, its columns fill the content, and each of its relations transforms the
same row into a related bean and wires it in. Relations nest, so a transformer describes a whole
graph.

Every step works on a heap and a context and gives both back with its result, an error included:
what was built before the error stays built.
-/

namespace SqlGraph.Graph

/-! ## Transformers -/

/-- Where the bean of a row comes from: constructed for every row, or found by its key. -/
structure Factory (α : Type) where
  kind : BeanKind
  keyColumns : Option (List String)
  construct : Key → α

/-- A column that fills a content. -/
structure ColumnReader (α : Type) where
  label : String
  consume : Json → α → Except Error α

/-- When a relation wires its related bean in. -/
inductive Policy where
  /-- on every row with a related bean -/
  | eachRow
  /-- on the first row with a related bean, for each owner -/
  | oncePerBean
deriving DecidableEq

mutual

/-- How a row becomes a bean. -/
inductive Transformer (α : Type) where
  | mk (factory : Factory α) (columns : List (ColumnReader α)) (relations : List (Relation α))

/-- A related bean of the same row, and how it is wired in. -/
inductive Relation (α : Type) where
  | mk (id : RelationId) (target : Transformer α) (fixer : Fixer α) (policy : Policy)

end

variable {α : Type}

namespace ColumnReader

/-- Fills the content with the value as it is. -/
def raw (label : String) (fill : Json → α → α) : ColumnReader α where
  label := label
  consume v a := .ok (fill v a)

/-- Fills the content with the value read as a type; null stays null. -/
def typed (label : String) (type : ColumnType) (fill : Json → α → α) : ColumnReader α where
  label := label
  consume v a :=
    if v.isNull then .ok (fill .null a)
    else
      match type.read? v with
      | some v => .ok (fill v a)
      | none => .error (.columnConversion label)

end ColumnReader

namespace Transformer

/-- Where beans come from. -/
def factory : Transformer α → Factory α
  | .mk f _ _ => f

/-- The columns that fill a bean. -/
def columns : Transformer α → List (ColumnReader α)
  | .mk _ cs _ => cs

/-- The relations of a bean. -/
def relations : Transformer α → List (Relation α)
  | .mk _ _ rs => rs

/-- A transformer that only makes beans. -/
def ofFactory (f : Factory α) : Transformer α := .mk f [] []

/-- Adds a column. -/
def addColumn (t : Transformer α) (c : ColumnReader α) : Transformer α :=
  .mk t.factory (t.columns ++ [c]) t.relations

/-- Adds a relation. -/
def addRelation (t : Transformer α) (r : Relation α) : Transformer α :=
  .mk t.factory t.columns (t.relations ++ [r])

/-- The labels of the columns read, key columns left out. -/
def columnLabels (t : Transformer α) : List String := t.columns.map (·.label)

end Transformer

/-! ## Steps -/

/-- The beans and the context of a traversal. -/
structure State (α : Type) where
  heap : Heap α := {}
  context : Context := {}

/-- The result of a step, and the state it leaves. -/
abbrev Outcome (α β : Type) := Except Error β × State α

/-- Goes on with the result of a step, unless it failed. -/
def Outcome.andThen {β γ : Type} (o : Outcome α β) (next : β → State α → Outcome α γ) :
    Outcome α γ :=
  match o with
  | (.error e, s) => (.error e, s)
  | (.ok b, s) => next b s

/-- Reads the values of columns in order. -/
def readAll (row : Row) : List String → Except Error (List Json)
  | [] => .ok []
  | label :: rest =>
    match row label with
    | .error e => .error e
    | .ok v => (readAll row rest).map (v :: ·)

namespace Factory

/-- The bean of a row, and whether it was constructed for it. A key with a null component gives
none. -/
def produce (f : Factory α) (row : Row) (s : State α) : Outcome α (Option (BeanId × Bool)) :=
  match f.keyColumns with
  | none =>
    let (bean, heap) := s.heap.construct f.kind (f.construct ⟨[]⟩)
    (.ok (some (bean, true)), { heap, context := s.context.retain bean })
  | some labels =>
    match readAll row labels with
    | .error e => (.error e, s)
    | .ok values =>
      let key : Key := ⟨values⟩
      if key.isNull then (.ok none, s)
      else
        match s.context.cached? f.kind key with
        | some bean => (.ok (some (bean, false)), s)
        | none =>
          let (bean, heap) := s.heap.construct f.kind (f.construct key)
          (.ok (some (bean, true)), { heap, context := s.context.remember f.kind key bean })

end Factory

/-- Fills a bean from one column of a row. -/
def ColumnReader.fill (c : ColumnReader α) (bean : BeanId) (row : Row) (s : State α) :
    Outcome α Unit :=
  match row c.label with
  | .error e => (.error e, s)
  | .ok v =>
    match s.heap.content? bean with
    | none => (.ok (), s)
    | some content =>
      match c.consume v content with
      | .error e => (.error e, s)
      | .ok content => (.ok (), { s with heap := s.heap.modify bean fun _ => content })

/-- Fills a bean from columns in order. -/
def fillAll (bean : BeanId) (row : Row) : List (ColumnReader α) → State α → Outcome α Unit
  | [], s => (.ok (), s)
  | c :: rest, s => (c.fill bean row s).andThen fun _ s => fillAll bean row rest s

/-- Wires a related bean into its owner, as the policy says. -/
def applyFixer (id : RelationId) (fixer : Fixer α) (policy : Policy) (owner related : BeanId)
    (s : State α) : State α :=
  match policy with
  | .eachRow => { s with heap := fixer.fix owner related s.heap }
  | .oncePerBean =>
    if s.context.isTreated owner id then s
    else { heap := fixer.fix owner related s.heap, context := s.context.treat owner id }

mutual

/-- The bean of a row, filled and wired; none when its key has a null component. -/
def Transformer.transform : Transformer α → Row → State α → Outcome α (Option BeanId)
  | .mk factory columns relations, row, s =>
    (factory.produce row s).andThen fun produced s =>
      match produced with
      | none => (.ok none, s)
      | some (bean, _) =>
        (fillAll bean row columns s).andThen fun _ s =>
          (assembleAll relations bean row s).andThen fun _ s => (.ok (some bean), s)

/-- Transforms the row into a related bean and wires it in, unless there is none. -/
def Relation.assemble : Relation α → BeanId → Row → State α → Outcome α Unit
  | .mk id target fixer policy, owner, row, s =>
    (target.transform row s).andThen fun related s =>
      match related with
      | none => (.ok (), s)
      | some related => (.ok (), applyFixer id fixer policy owner related s)

/-- Assembles relations in order. -/
def assembleAll : List (Relation α) → BeanId → Row → State α → Outcome α Unit
  | [], _, _, s => (.ok (), s)
  | r :: rest, owner, row, s =>
    (r.assemble owner row s).andThen fun _ s => assembleAll rest owner row s

end

end SqlGraph.Graph
