import SqlGraph.Render.Context

/-!
# References that resolve

A statement over a catalog mentions columns of the catalog, and its from clauses mention tables
registered before it (`Statement.resolves`). A catalog is layered when that holds of the statement
of every derived table (`Catalog.layered`). Both are checks that can be run.
-/

namespace SqlGraph

/-- Whether a column exists. -/
def Catalog.hasColumn (c : Catalog) (ref : ColumnRef) : Bool := (c.column? ref).isSome

section Syntax

variable (c : Catalog)

mutual

/-- Whether the columns of an expression exist. -/
def Expression.resolves : Expression → Bool
  | .mk t _ => t.resolves

/-- Whether the columns of a term exist. -/
def Term.resolves : Term → Bool
  | .column ref => c.hasColumn ref
  | .value _ => true
  | .raw _ => true
  | .count es _ => Expression.allResolve es
  | .sum e => e.resolves
  | .minimum e => e.resolves
  | .maximum e => e.resolves
  | .cast e _ _ => e.resolves

/-- Whether the columns of expressions exist. -/
def Expression.allResolve : List Expression → Bool
  | [] => true
  | e :: rest => e.resolves && Expression.allResolve rest

end

/-- Whether the columns of an operand exist. -/
def Operand.resolves : Operand → Bool
  | .value _ => true
  | .named _ => true
  | .expression e => e.resolves c

/-- Whether the columns of a predicate exist. -/
def Predicate.resolves : Predicate → Bool
  | .isNull => true
  | .equals value => value.resolves c
  | .greater value _ => value.resolves c
  | .lower value _ => value.resolves c
  | .between low high => low.resolves c && high.resolves c
  | .isIn (.collection none) => true
  | .isIn (.collection (some items)) => items.all (Operand.resolves c)
  | .isIn (.listed items) => items.all (Operand.resolves c)
  | .isIn (.named _) => true
  | .like pattern _ _ => pattern.resolves c

/-- Whether the columns of what a left side is checked against exist. -/
def Condition.resolves : Condition → Bool
  | .text _ => true
  | .operator op => op.predicate.resolves c

mutual

/-- Whether the columns of a criterion exist. -/
def Criterion.resolves : Criterion → Bool
  | .compare left condition => left.resolves c && condition.resolves c
  | .raw fragments => Fragment.allResolve fragments
  | .nested chain => Link.allResolve chain

/-- Whether the columns of a fragment exist. -/
def Fragment.resolves : Fragment → Bool
  | .text _ => true
  | .expression e => e.resolves c
  | .operator op => op.predicate.resolves c
  | .value _ => true
  | .criteria chain => Link.allResolve chain

/-- Whether the columns of fragments exist. -/
def Fragment.allResolve : List Fragment → Bool
  | [] => true
  | f :: rest => f.resolves && Fragment.allResolve rest

/-- Whether the columns of a chain exist. -/
def Link.allResolve : List Link → Bool
  | [] => true
  | .mk _ k :: rest => k.resolves && Link.allResolve rest

end

/-- The columns a join compares. -/
def Join.columns : Join → List ColumnRef
  | .cross _ => []
  | .raw _ _ _ => []
  | .column _ left right => [left, right]
  | .key _ left right => left ++ right

/-- Whether a from clause mentions existing columns, and only tables below a position. -/
def FromClause.resolves (n : Nat) (f : FromClause) : Bool :=
  f.tables.all (· < n) && f.joins.all fun j => j.columns.all c.hasColumn

/-- Whether a query mentions existing columns, and only tables below a position. -/
def Query.resolves (n : Nat) (q : Query) : Bool :=
  Expression.allResolve c q.columns && q.source.resolves c n && Link.allResolve c q.filter &&
    Expression.allResolve c q.groups && Link.allResolve c q.having &&
    Expression.allResolve c (q.ordering.map (·.expression))

/-- Whether a statement mentions existing columns, and only tables below a position. -/
def Statement.resolves (n : Nat) : Statement → Bool
  | .query q => q.resolves c n
  | .union u => u.queries.all (Query.resolves c n)

/-- Whether the statement of each derived table mentions only tables registered before it. -/
def Catalog.layered : Bool :=
  (List.range c.size).all fun n => ((c.table? n).bind (·.body)).all (Statement.resolves c n)

end Syntax

end SqlGraph
