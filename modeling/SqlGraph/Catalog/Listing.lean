import SqlGraph.Catalog.Projection

/-!
# Listing a catalog

`Catalog.listing` shows every table on a line of its own, followed by a line for each column
with its name, its type and the expression it stands for. Expressions are shown in full, as
nested records.
-/

namespace SqlGraph

open Text (shown shownOption shownList)

/-- A record with named fields. -/
private def shownRecord (name : String) (fields : List (String × String)) : String :=
  name ++ " \x7b " ++ ", ".intercalate (fields.map fun (k, v) => k ++ ": " ++ v) ++ " \x7d"

/-- A constructor with one argument. -/
private def shownCall (name argument : String) : String := name ++ "(" ++ argument ++ ")"

mutual

/-- A value as listings show it. -/
def Json.shown : Json → String
  | .null => "Null"
  | .bool b => shownCall "Bool" (if b then "true" else "false")
  | .number n => shownCall "Number" n.text
  | .string s => shownCall "String" (Text.shown s)
  | .array items => "Array [" ++ ", ".intercalate (shownItems items) ++ "]"
  | .object members =>
    "Object \x7b" ++ ", ".intercalate (shownMembers members) ++ "\x7d"

/-- The items of an array as listings show them. -/
def Json.shownItems : List Json → List String
  | [] => []
  | v :: rest => v.shown :: shownItems rest

/-- The members of an object as listings show them. -/
def Json.shownMembers : List (String × Json) → List String
  | [] => []
  | (k, v) :: rest => (Text.shown k ++ ": " ++ v.shown) :: shownMembers rest

end

/-- A column reference as listings show it. -/
def ColumnRef.shown (ref : ColumnRef) : String :=
  shownRecord "ColumnId"
    [("table_id", shownCall "TableId" (toString ref.table)),
     ("column_index", toString ref.position)]

/-- A function as listings show it. -/
private def shownFunction (name : String) (fields : List (String × String)) : String :=
  shownCall "Function"
    (shownRecord "Function" [("typ_", shownCall name (shownRecord name fields))])

mutual

/-- An expression as listings show it. -/
def Expression.shown : Expression → String
  | .mk t a => shownRecord "Expression" [("kind", t.shown), ("alias", shownOption Text.shown a)]

/-- A term as listings show it. -/
def Term.shown : Term → String
  | .column ref => shownCall "Column" ref.shown
  | .value v => shownCall "Parameterized" v.shown
  | .raw text => shownCall "Raw" (Text.shown text)
  | .count es distinct =>
    shownFunction "Count"
      [("exprs", "[" ++ ", ".intercalate (Expression.shownAll es) ++ "]"),
       ("distinct", if distinct then "true" else "false")]
  | .sum e => shownFunction "Sum" [("expr", e.shown)]
  | .minimum e => shownFunction "Minimum" [("expr", e.shown)]
  | .maximum e => shownFunction "Maximum" [("expr", e.shown)]
  | .cast e target sqlType =>
    shownFunction "Cast"
      [("expr", e.shown), ("target", target.shown), ("sql_type", shownOption Text.shown sqlType)]

/-- Expressions as listings show them. -/
def Expression.shownAll : List Expression → List String
  | [] => []
  | e :: rest => e.shown :: Expression.shownAll rest

end

/-- A column as listings show it. -/
def Column.shown (c : Column) : String :=
  shownRecord "ColumnDef"
    [("name", Text.shown c.name), ("value_type", c.type.shown),
     ("source", shownOption Expression.shown c.source)]

/-- A numbered line. -/
private def numbered (indent : String) (index : Nat) (text : String) : String :=
  indent ++ toString index ++ ": " ++ text ++ "\n"

/-- The lines of the table at a position. -/
def Table.listing (id : TableId) (t : Table) : String :=
  numbered "" id (t.qualifiedName?.getD "") ++
    String.join (t.columns.mapIdx fun i c => numbered "    " i c.shown)

/-- The lines of every table. -/
def Catalog.listing (c : Catalog) : String := String.join (c.tables.mapIdx Table.listing)

end SqlGraph
