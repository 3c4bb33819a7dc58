import SqlGraph.Json.Text
import SqlGraph.Render.Context
import SqlGraph.Text.Quoted

/-!
# Statements with their values written out

Values are written as SQL literals: strings quoted, the items of an array with commas between
them, an object as its JSON text quoted. A named placeholder is written as its name after a
colon.
-/

namespace SqlGraph

mutual

/-- The literal of a value. -/
def Json.literal : Json → String
  | .null => "null"
  | .bool true => "true"
  | .bool false => "false"
  | .number n => n.text
  | .string s => Text.quote s
  | .array items => ", ".intercalate (literals items)
  | .object members => Text.quote (Json.object members).text

/-- The literals of values. -/
def Json.literals : List Json → List String
  | [] => []
  | v :: rest => v.literal :: literals rest

end

namespace Inline

/-- A piece with its value written out. -/
def piece : Piece → String
  | .text s => s
  | .value v => v.literal
  | .named name _ => ":" ++ name
  | .dangling => ""

/-- The text of pieces. -/
def text (ps : List Piece) : String := String.join (ps.map piece)

/-- The text of pieces, absent when one of them dangles. -/
def text? (ps : List Piece) : Option String := (Piece.resolved? ps).map text

/-- The text of a statement, absent when it has dangling references. -/
def statement? (catalog : Catalog) (escape : String → String) (s : Statement) : Option String :=
  text? (Render.statement (.ofCatalog catalog escape) [] s)

end Inline

end SqlGraph
