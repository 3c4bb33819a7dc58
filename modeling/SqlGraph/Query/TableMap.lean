/-!
# Tables and values attached to them

A table is named by its position in the catalog (`TableId`). A `TableMap` attaches a value to some
tables; its entries are listed by ascending table, so maps with the same entries are equal.
-/

namespace SqlGraph

/-- The position of a table in its catalog. -/
abbrev TableId := Nat

/-- A column, by its table and its position in it. -/
structure ColumnRef where
  table : TableId
  position : Nat
deriving DecidableEq, Inhabited

/-- Values attached to tables, each table once, by ascending table. -/
structure TableMap (α : Type) where
  entries : List (TableId × α) := []
deriving DecidableEq, Inhabited

namespace TableMap

variable {α β : Type}

/-- Attaches a value, in place of a value attached before. -/
def insertEntry (table : TableId) (value : α) : List (TableId × α) → List (TableId × α)
  | [] => [(table, value)]
  | (t, v) :: rest =>
    if table < t then (table, value) :: (t, v) :: rest
    else if table = t then (table, value) :: rest
    else (t, v) :: insertEntry table value rest

/-- Attaches a value to a table, in place of a value attached before. -/
def insert (m : TableMap α) (table : TableId) (value : α) : TableMap α :=
  ⟨insertEntry table value m.entries⟩

/-- The value attached to a table. -/
def find? (m : TableMap α) (table : TableId) : Option α := m.entries.lookup table

/-- Attaches a value to a table that has none. -/
def insertIfNew (m : TableMap α) (table : TableId) (value : α) : TableMap α :=
  match m.find? table with
  | some _ => m
  | none => m.insert table value

/-- The same tables with other values. -/
def map (f : α → β) (m : TableMap α) : TableMap β := ⟨m.entries.map fun (t, v) => (t, f v)⟩

/-- Attaches every value in turn, later ones in place of former ones. -/
def ofList (entries : List (TableId × α)) : TableMap α :=
  entries.foldl (fun m (t, v) => m.insert t v) {}

end TableMap

end SqlGraph
