import SqlGraph.Template.Basic

/-!
# Drafts

A draft is a template being written together with the scopes open at this point. Pieces are
appended to its template; scopes are opened and closed around them, and `within` opens one for
the time of a step.
-/

namespace SqlGraph

/-- A template being written, and the open scopes, the innermost first. -/
structure Draft where
  template : Template := {}
  scopes : Scopes := []

namespace Draft

/-- Appends text. -/
def write (d : Draft) (s : String) : Draft := { d with template := d.template.pushText s }

/-- Appends a place for a value. -/
def pushValue (d : Draft) (v : Json) : Draft := { d with template := d.template.pushValue v }

/-- Appends a place of a named parameter. -/
def pushNamed (d : Draft) (name : String) (expandable : Bool) : Draft :=
  { d with template := d.template.pushNamed name expandable }

/-- Appends what a clause writes under the open scopes. -/
def append (d : Draft) (clause : Scopes → List Piece) : Draft :=
  { d with template := d.template.pushPieces (clause d.scopes) }

/-- Opens a scope. -/
def openScope (d : Draft) (scope : Scope) : Draft := { d with scopes := scope :: d.scopes }

/-- Closes the innermost scope, if there is one. -/
def closeScope (d : Draft) : Draft := { d with scopes := d.scopes.tail }

/-- Runs a step within a scope of its own. -/
def within {α : Type} (d : Draft) (scope : Scope) (step : Draft → α × Draft) : α × Draft :=
  let (result, inner) := step (d.openScope scope)
  (result, inner.closeScope)

/-- The alias of a table in the innermost scope that names it. -/
def aliasOf (d : Draft) (table : TableId) : Option String := d.scopes.aliasOf table

/-- The number of open scopes. -/
def depth (d : Draft) : Nat := d.scopes.length

end Draft

end SqlGraph
