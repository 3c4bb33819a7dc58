/-!
# Column types

The types a column can be declared with, and the names `cast` writes for them.
-/

namespace SqlGraph

/-- The type of the values of a column. -/
inductive SqlType where
  | boolean
  | integer
  | bigInt
  | double
  | decimal
  | text
  | date
  | timestamp
  | bytes
  | json
  | other (name : String)
deriving DecidableEq, Inhabited

namespace SqlType

/-- The name of the type in SQL text. -/
def sqlName : SqlType → String
  | .boolean => "boolean"
  | .integer => "integer"
  | .bigInt => "bigint"
  | .double => "double precision"
  | .decimal => "decimal"
  | .text => "varchar"
  | .date => "date"
  | .timestamp => "timestamp"
  | .bytes => "blob"
  | .json => "json"
  | .other name => name

/-- The types without a name of their own. -/
def standard : List SqlType :=
  [.boolean, .integer, .bigInt, .double, .decimal, .text, .date, .timestamp, .bytes, .json]

end SqlType

end SqlGraph
