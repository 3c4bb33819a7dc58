import SqlGraph.Query.Expression

/-!
# From clauses

A from clause has a root table, joins in order and aliases for some tables. Its tables are the
root and the right table of each join; its `scope` says how a query refers to tables: under
their alias, or, for a table of the clause without one, under its own name.
-/

namespace SqlGraph

/-- Which rows without a partner a join keeps. -/
inductive Direction where
  | inner
  | leftOuter
  | rightOuter
deriving DecidableEq

/-- The direction in SQL text. -/
def Direction.keyword : Direction → String
  | .inner => "inner join"
  | .leftOuter => "left outer join"
  | .rightOuter => "right outer join"

/-- A join of one more table. -/
inductive Join where
  | cross (right : TableId)
  /-- under a condition written verbatim -/
  | raw (direction : Direction) (right : TableId) (condition : String)
  /-- on two equal columns -/
  | column (direction : Direction) (left right : ColumnRef)
  /-- on columns equal pairwise -/
  | key (direction : Direction) (left right : List ColumnRef)
deriving DecidableEq

namespace Join

/-- The table the join adds, absent for a key join without right columns. -/
def rightTable? : Join → Option TableId
  | .cross right => some right
  | .raw _ right _ => some right
  | .column _ _ right => some right.table
  | .key _ _ right => right.head?.map (·.table)

/-- The direction of the join, absent for a cross join. -/
def direction? : Join → Option Direction
  | .cross _ => none
  | .raw d _ _ => some d
  | .column d _ _ => some d
  | .key d _ _ => some d

end Join

/-- A root table, joins and aliases. -/
structure FromClause where
  root : Option TableId := none
  joins : List Join := []
  aliases : TableMap String := {}
deriving DecidableEq, Inhabited

namespace FromClause

/-- The clause of one table. -/
def ofTable (root : TableId) : FromClause := { root := some root }

/-- Adds a join at the end. -/
def join (f : FromClause) (j : Join) : FromClause := { f with joins := f.joins ++ [j] }

/-- Gives a table an alias, in place of a former one. -/
def setAlias (f : FromClause) (table : TableId) (aliasName : String) : FromClause :=
  { f with aliases := f.aliases.insert table aliasName }

/-- The tables of the clause: its root, then the right table of each join. -/
def tables (f : FromClause) : List TableId :=
  f.root.toList ++ f.joins.filterMap Join.rightTable?

/-- How the clause names tables: aliased ones by their alias, its other tables by no alias. -/
def scope (f : FromClause) : TableMap (Option String) :=
  f.tables.foldl (fun m t => m.insertIfNew t none) (f.aliases.map some)

/-- The alias of the root. -/
def rootAlias? (f : FromClause) : Option String := f.root.bind f.aliases.find?

end FromClause

end SqlGraph
