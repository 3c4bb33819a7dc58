import SqlGraph.Query.SqlType
import SqlGraph.Text.Shown

/-!
# Errors

Everything that can go wrong, by cause, with the name of each cause and the one function that
words it.
-/

namespace SqlGraph

/-- A type as listings and messages show it. -/
def SqlType.shown : SqlType → String
  | .boolean => "Boolean"
  | .integer => "Integer"
  | .bigInt => "BigInt"
  | .double => "Double"
  | .decimal => "Decimal"
  | .text => "Text"
  | .date => "Date"
  | .timestamp => "Timestamp"
  | .bytes => "Bytes"
  | .json => "Json"
  | .other name => "Other(" ++ Text.shown name ++ ")"

/-- The cause of a failure. -/
inductive Error where
  /-- a union column declared with two types -/
  | unionColumnConflict (name : String) (existing declared : SqlType)
  /-- a join tree has no node of this name -/
  | unknownJoin (name : String)
  /-- a join tree has a node of this name already -/
  | duplicateJoin (name : String)
  /-- an expandable placeholder is finalized without a value -/
  | missingExpansionSize (parameter : String)
  /-- a placeholder is finalized without a value -/
  | unboundParameter (parameter : String)
  /-- a second result where at most one is expected -/
  | nonUniqueResult
  /-- the result has no column of this label -/
  | columnNotFound (label : String)
  /-- the result has no column at this index -/
  | columnIndexOutOfBounds (index : Nat)
  /-- the value of a column is not of the type it is read as -/
  | columnConversion (label : String)
  /-- the cursor itself fails -/
  | cursor (reason : String)
deriving DecidableEq

namespace Error

/-- The name of the cause. -/
def name : Error → String
  | .unionColumnConflict .. => "UnionColumnConflict"
  | .unknownJoin _ => "UnknownJoin"
  | .duplicateJoin _ => "DuplicateJoin"
  | .missingExpansionSize _ => "MissingExpansionSize"
  | .unboundParameter _ => "UnboundParameter"
  | .nonUniqueResult => "NonUniqueResult"
  | .columnNotFound _ => "ColumnNotFound"
  | .columnIndexOutOfBounds _ => "ColumnIndexOutOfBounds"
  | .columnConversion _ => "ColumnConversion"
  | .cursor _ => "Cursor"

/-- The wording of an error. -/
def message : Error → String
  | .unionColumnConflict name existing declared =>
    "Union column " ++ name ++ " is already declared as " ++ existing.shown ++
      ", cannot redeclare it as " ++ declared.shown
  | .unknownJoin name => "No join named " ++ name ++ " was registered"
  | .duplicateJoin name => "A join named " ++ name ++ " is already registered"
  | .missingExpansionSize parameter =>
    "Parameter " ++ parameter ++
      " is expandable and needs a value to know how many placeholders to render"
  | .unboundParameter parameter => "No value was bound to parameter " ++ parameter
  | .nonUniqueResult => "Expected at most one result but found several"
  | .columnNotFound label => "Column " ++ label ++ " is not part of the result"
  | .columnIndexOutOfBounds index =>
    "Column index " ++ toString index ++ " is out of the result bounds"
  | .columnConversion label => "Cannot convert the value of column " ++ label
  | .cursor reason => "Cursor: " ++ reason

end Error

end SqlGraph
