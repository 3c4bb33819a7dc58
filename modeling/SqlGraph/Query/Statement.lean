import SqlGraph.Error
import SqlGraph.Query.Criteria
import SqlGraph.Query.From

/-!
# Queries, unions and statements

A query is its clauses. A union is a list of queries and the columns declared for it; a column
may be declared again only with the same type. A statement is one or the other.
-/

namespace SqlGraph

/-- The direction of an ordering. -/
inductive SortOrder where
  | asc
  | desc
deriving DecidableEq

/-- The direction in SQL text. -/
def SortOrder.keyword : SortOrder → String
  | .asc => "asc"
  | .desc => "desc"

/-- An expression rows are ordered by. -/
structure SortKey where
  expression : Expression
  order : Option SortOrder := none
deriving BEq

/-- How many rows are kept, and how many are skipped before. -/
structure Limit where
  count : Nat
  offset : Option Nat := none
deriving DecidableEq

/-- A select statement, by its clauses. -/
structure Query where
  columns : List Expression := []
  distinct : Bool := false
  source : FromClause := {}
  filter : Criteria := []
  groups : List Expression := []
  having : Criteria := []
  ordering : List SortKey := []
  limit : Option Limit := none
deriving BEq

instance : Inhabited Query := ⟨{}⟩

/-- Member queries and the columns declared for them. -/
structure Union where
  queries : List Query := []
  columns : List (String × SqlType) := []

namespace Union

/-- Adds a member. -/
def push (u : Union) (q : Query) : Union := { u with queries := u.queries ++ [q] }

/-- Declares a column, which must not be declared with another type. -/
def declare (u : Union) (name : String) (type : SqlType) : Except Error Union :=
  match u.columns.lookup name with
  | none => .ok { u with columns := u.columns ++ [(name, type)] }
  | some existing =>
    if existing = type then .ok u else .error (.unionColumnConflict name existing type)

/-- Equality of unions: the same members in order, the same columns in any order. -/
def same (a b : Union) : Bool :=
  a.queries == b.queries && a.columns.length == b.columns.length &&
    a.columns.all fun (name, type) => b.columns.lookup name == some type

instance : BEq Union := ⟨same⟩

end Union

/-- A query or a union. -/
inductive Statement where
  | query (q : Query)
  | union (u : Union)
deriving BEq

end SqlGraph
