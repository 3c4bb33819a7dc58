import SqlGraph.Query.Statement

/-!
# The catalog

The catalog lists tables in the order they were registered. A table has columns; a derived table
also has the statement it stands for. Tables are only ever appended and columns only added at
the end of a table, so positions stay valid: `addTable`, `addColumn`, `cloneTable` and
`addDerived` are the only ways a catalog grows.
-/

namespace SqlGraph

/-- A column of a table, and for a derived table the expression it stands for. -/
structure Column where
  name : String
  type : SqlType
  source : Option Expression := none

/-- A table. A derived one stands for a statement and may have no name. -/
structure Table where
  name : Option String
  schema : Option String := none
  columns : List Column := []
  body : Option Statement := none

namespace Table

/-- Whether the table stands for a statement. -/
def isDerived (t : Table) : Bool := t.body.isSome

/-- What a table stands for, in one word. -/
def origin (t : Table) : String :=
  match t.body with
  | none => "physical"
  | some (.query _) => "query"
  | some (.union _) => "union"

/-- The name with its schema in front. -/
def qualifiedName? (t : Table) : Option String :=
  match t.schema, t.name with
  | some schema, some name => some (schema ++ "." ++ name)
  | none, some name => some name
  | _, none => none

/-- The name of the table at a position of the catalog: its own, or `t` and the position. -/
def nameAt (t : Table) (id : TableId) : String := t.name.getD ("t" ++ toString id)

/-- The position of the first column of a name. -/
def position? (t : Table) (name : String) : Option Nat :=
  t.columns.findIdx? fun c => c.name == name

end Table

/-- The tables registered so far. -/
structure Catalog where
  tables : List Table := []

namespace Catalog

/-- The number of tables. -/
def size (c : Catalog) : Nat := c.tables.length

/-- The table at a position. -/
def table? (c : Catalog) (id : TableId) : Option Table := c.tables[id]?

/-- The definition of a column. -/
def column? (c : Catalog) (ref : ColumnRef) : Option Column :=
  (c.table? ref.table).bind fun t => t.columns[ref.position]?

/-- The first column of a name in a table. -/
def findColumn? (c : Catalog) (id : TableId) (name : String) : Option ColumnRef :=
  (c.table? id).bind fun t => (t.position? name).map fun p => ⟨id, p⟩

/-- The columns of a table, in order. -/
def columnsOf (c : Catalog) (id : TableId) : List ColumnRef :=
  match c.table? id with
  | none => []
  | some t => (List.range t.columns.length).map fun p => ⟨id, p⟩

/-! ## Growth -/

/-- Appends a table; its position is the former size. -/
def append (c : Catalog) (t : Table) : TableId × Catalog := (c.size, ⟨c.tables ++ [t]⟩)

/-- Registers a table without columns. -/
def addTable (c : Catalog) (schema : Option String) (name : String) : TableId × Catalog :=
  c.append { name := some name, schema := schema }

/-- Adds a column at the end of a table. -/
def addColumn (c : Catalog) (id : TableId) (name : String) (type : SqlType) :
    ColumnRef × Catalog :=
  let position := ((c.table? id).map fun t => t.columns.length).getD 0
  let extend := fun t : Table => { t with columns := t.columns ++ [{ name := name, type := type }] }
  (⟨id, position⟩, ⟨c.tables.modify id extend⟩)

/-- Registers a copy of a table, as it is now. -/
def cloneTable (c : Catalog) (id : TableId) : TableId × Catalog :=
  match c.table? id with
  | none => (id, c)
  | some t => c.append t

/-- Registers a derived table. -/
def addDerived (c : Catalog) (body : Statement) (name : Option String) (columns : List Column) :
    TableId × Catalog :=
  c.append { name, columns, body := some body }

end Catalog

end SqlGraph
