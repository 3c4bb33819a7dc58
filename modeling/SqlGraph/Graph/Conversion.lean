import SqlGraph.Graph.Cursor

/-!
# Reading columns as typed values

A column is read as one of a few types. Integers are read from integers in range only, never
from floats; a float is read from any number; truth values and strings from their own class;
lists and maps item by item. Only an optional integer and an arbitrary value are read from null.
-/

namespace SqlGraph.Graph

/-- A type a column is read as. -/
inductive ColumnType where
  /-- an integer of 64 bits with sign -/
  | int64
  /-- an integer of 8 bits without sign -/
  | nat8
  | float
  | bool
  | string
  /-- a list of 64-bit integers -/
  | listInt64
  /-- 64-bit integers by name -/
  | mapInt64
  /-- a 64-bit integer or null -/
  | optionalInt64
  /-- any value -/
  | any
deriving DecidableEq

namespace ColumnType

/-- An integer between two bounds, both included. -/
def intBetween? (low high : Int) : Json → Option Json
  | .number (.integer n) => if low ≤ n && n ≤ high then some (.number (.integer n)) else none
  | _ => none

/-- An integer of 64 bits with sign. -/
def int64? : Json → Option Json := intBetween? (-(Nat.pow 2 63 : Nat)) (Nat.pow 2 63 - 1 : Nat)

/-- The value as it is read, absent when it is not of the type. -/
def read? : ColumnType → Json → Option Json
  | .int64, v => int64? v
  | .nat8, v => intBetween? 0 255 v
  | .float, .number (.integer n) => (Binary64.ofInt? n).map fun x => .number (.float x)
  | .float, .number (.float x) => some (.number (.float x))
  | .bool, .bool b => some (.bool b)
  | .string, .string s => some (.string s)
  | .listInt64, .array items => (items.mapM int64?).map .array
  | .mapInt64, .object members =>
    (members.mapM fun m => (int64? m.2).map (m.1, ·)).map .object
  | .optionalInt64, .null => some .null
  | .optionalInt64, v => int64? v
  | .any, v => some v
  | _, _ => none

end ColumnType

/-- Reads a column of a row as a typed value. -/
def Row.read (row : Row) (type : ColumnType) (label : String) : Except Error Json :=
  match row label with
  | .error e => .error e
  | .ok v =>
    match type.read? v with
    | some v => .ok v
    | none => .error (.columnConversion label)

end SqlGraph.Graph
