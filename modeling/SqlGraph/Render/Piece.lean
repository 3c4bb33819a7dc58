import SqlGraph.Json.Value
import SqlGraph.Query.TableMap

/-!
# Pieces of SQL text

Writing a clause gives a list of pieces: text, values and named placeholders in the order they
stand in the statement. How values and placeholders are finally written is decided later, by
whoever reads the pieces. A reference to a table or column that the catalog lacks leaves a
`dangling` piece, and a list with one cannot be written.

Names are resolved through a stack of scopes, the innermost first: the first scope that names a
table decides, and an entry without alias hides the aliases of the scopes around it.
-/

namespace SqlGraph

/-- A part of a statement as it is written. -/
inductive Piece where
  /-- verbatim text -/
  | text (s : String)
  /-- a value -/
  | value (v : Json)
  /-- a placeholder bound later, expandable when it stands for a collection -/
  | named (name : String) (expandable : Bool)
  /-- a reference to a table or column that does not exist -/
  | dangling

/-- Whether the piece is a dangling reference. -/
def Piece.isDangling : Piece → Bool
  | .dangling => true
  | _ => false

/-- The pieces themselves, absent when one of them dangles. -/
def Piece.resolved? (ps : List Piece) : Option (List Piece) :=
  if ps.any Piece.isDangling then none else some ps

/-- How a statement names tables: under an alias, or under their own name. -/
abbrev Scope := TableMap (Option String)

/-- Scopes around a clause, the innermost first. -/
abbrev Scopes := List Scope

/-- The alias of a table in the innermost scope that names it. -/
def Scopes.aliasOf (scopes : Scopes) (table : TableId) : Option String :=
  (scopes.findSome? fun scope => scope.find? table).join

end SqlGraph
