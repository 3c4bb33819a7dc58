import SqlGraph.Query.Statement

/-!
# Building a query step by step

A chain builds a query clause by clause in the order the clauses are written. The type of a
chain says which clause was added last, and each step is offered only where it may come next, so
no clause can be added out of order. A chain may stop after any step; `Chain.query` is what it
built.
-/

namespace SqlGraph

/-- The clause added last. -/
inductive Stage where
  | select
  | source
  | filter
  | groups
  | having
  | ordering
  | limit
deriving DecidableEq

namespace Stage

/-- Where a grouping may come next. -/
def allowsGroups : Stage → Bool
  | .source | .filter => true
  | _ => false

/-- Where an ordering may come next. -/
def allowsOrdering : Stage → Bool
  | .source | .filter | .groups | .having | .ordering => true
  | _ => false

/-- Where a limit may come next: wherever an ordering may. -/
def allowsLimit (s : Stage) : Bool := s.allowsOrdering

end Stage

/-- A query under construction, its last clause being the given one. -/
structure Chain (stage : Stage) where
  query : Query

namespace Chain

/-- Starts with a projection. -/
def select (columns : List Expression) : Chain .select := ⟨{ columns := columns }⟩

/-! ## On the projection -/

/-- Projects one more expression. -/
def add (c : Chain .select) (e : Expression) : Chain .select :=
  ⟨{ c.query with columns := c.query.columns ++ [e] }⟩

/-- Keeps distinct rows only. -/
def distinct (c : Chain .select) : Chain .select := ⟨{ c.query with distinct := true }⟩

/-- Changes the from clause of a query. -/
private def mapSource (q : Query) (f : FromClause → FromClause) : Query :=
  { q with source := f q.source }

/-- Selects from a table. -/
def fromTable (c : Chain .select) (root : TableId) : Chain .source :=
  ⟨mapSource c.query fun f => { f with root := some root }⟩

/-- Selects from a table under an alias. -/
def fromAliased (c : Chain .select) (root : TableId) (aliasName : String) : Chain .source :=
  ⟨mapSource c.query fun f => { f with root := some root }.setAlias root aliasName⟩

/-! ## On the from clause -/

/-- Joins one more table. -/
def join (c : Chain .source) (j : Join) : Chain .source := ⟨mapSource c.query (·.join j)⟩

/-- Gives a table an alias. -/
def withAlias (c : Chain .source) (table : TableId) (aliasName : String) : Chain .source :=
  ⟨mapSource c.query (·.setAlias table aliasName)⟩

/-- Keeps the rows meeting a criterion. -/
def filter (c : Chain .source) (criterion : Criterion) : Chain .filter :=
  ⟨{ c.query with filter := c.query.filter.push .and criterion }⟩

/-! ## On conditions and groups -/

/-- Adds a criterion to the filter. -/
def andFilter (c : Chain .filter) (combinator : Combinator) (criterion : Criterion) :
    Chain .filter :=
  ⟨{ c.query with filter := c.query.filter.push combinator criterion }⟩

/-- Groups rows. -/
def groupBy {s : Stage} (c : Chain s) (_allowed : s.allowsGroups = true)
    (groups : List Expression) : Chain .groups :=
  ⟨{ c.query with groups := c.query.groups ++ groups }⟩

/-- Keeps the groups meeting a criterion. -/
def having (c : Chain .groups) (criterion : Criterion) : Chain .having :=
  ⟨{ c.query with having := c.query.having.push .and criterion }⟩

/-- Adds a criterion on groups. -/
def andHaving (c : Chain .having) (combinator : Combinator) (criterion : Criterion) :
    Chain .having :=
  ⟨{ c.query with having := c.query.having.push combinator criterion }⟩

/-! ## On the result -/

/-- Orders rows by one more key. -/
def orderBy {s : Stage} (c : Chain s) (_allowed : s.allowsOrdering = true) (key : SortKey) :
    Chain .ordering :=
  ⟨{ c.query with ordering := c.query.ordering ++ [key] }⟩

/-- Limits the number of rows. -/
def limitTo {s : Stage} (c : Chain s) (_allowed : s.allowsLimit = true) (limit : Limit) :
    Chain .limit :=
  ⟨{ c.query with limit := some limit }⟩

end Chain

end SqlGraph
