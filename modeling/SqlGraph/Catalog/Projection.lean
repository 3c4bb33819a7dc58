import SqlGraph.Catalog.Basic
import SqlGraph.Json.Text

/-!
# Derived tables

What a catalog knows of an expression: the type of its values (`Expression.type?`) and the name
it is projected under (`Expression.projectedName`). A query registered as a derived table gets
one column per projected expression; a union gets the columns declared for it.
-/

namespace SqlGraph

/-- The name of a function, absent for other terms. -/
def Term.functionName? : Term → Option String
  | .count _ _ => some "count"
  | .sum _ => some "sum"
  | .minimum _ => some "min"
  | .maximum _ => some "max"
  | .cast _ _ _ => some "cast"
  | _ => none

/-- The type of a value given as a parameter. -/
def Json.sqlType : Json → SqlType
  | .bool _ => .boolean
  | .number (.float _) => .double
  | .number (.integer _) => .bigInt
  | .string _ => .text
  | _ => .json

mutual

/-- The type of an expression, unknown for verbatim text. -/
def Expression.type? (c : Catalog) : Expression → Option SqlType
  | .mk t _ => t.type? c

/-- The type of a term: a function of one argument keeps the type of its argument. -/
def Term.type? (c : Catalog) : Term → Option SqlType
  | .column ref => (c.column? ref).map (·.type)
  | .value v => some v.sqlType
  | .raw _ => none
  | .count _ _ => some .bigInt
  | .sum e => e.type? c
  | .minimum e => e.type? c
  | .maximum e => e.type? c
  | .cast _ target _ => some target

end

/-- The name of a projected term without alias. -/
def Term.projectedName (c : Catalog) : Term → String
  | .column ref => ((c.column? ref).map (·.name)).getD ""
  | .value v => v.text
  | .raw text => text
  | t => t.functionName?.getD ""

/-- The name a projected expression is known by: its alias, or one taken from its term. -/
def Expression.projectedName (c : Catalog) (e : Expression) : String :=
  e.aliasName.getD (e.term.projectedName c)

namespace Catalog

/-- The column a projected expression becomes. -/
def projectedColumn (c : Catalog) (e : Expression) : Column where
  name := e.projectedName c
  type := (e.type? c).getD (.other "unknown")
  source := some e

/-- Registers a query as a derived table. -/
def addQuery (c : Catalog) (q : Query) (name : Option String) : TableId × Catalog :=
  c.addDerived (.query q) name (q.columns.map c.projectedColumn)

/-- Registers a union as a derived table. -/
def addUnion (c : Catalog) (u : Union) (name : Option String) : TableId × Catalog :=
  c.addDerived (.union u) name (u.columns.map fun (n, t) => { name := n, type := t })

/-- Registers a statement as a derived table. -/
def addStatement (c : Catalog) (s : Statement) (name : Option String) : TableId × Catalog :=
  match s with
  | .query q => c.addQuery q name
  | .union u => c.addUnion u name

end Catalog

end SqlGraph
