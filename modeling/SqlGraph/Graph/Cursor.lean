import SqlGraph.Error
import SqlGraph.Json.Value

/-!
# Rows and cursors

A row is read by column label. A cursor holds a whole result in memory and stands before its
first row until it is advanced; past its last row it has no current row until one is pushed, on
which it then stands. A source is a cursor that may fail after a number of advances, and its
`feed` is what reading it to the end meets: rows, and the failure if there is one.
-/

namespace SqlGraph.Graph

/-- The current row of a result: the value of each column, by label. -/
abbrev Row := String → Except Error Json

/-- A result held in memory. Rows may be shorter or longer than the list of labels. -/
structure Cursor where
  labels : List String
  rows : List (List Json) := []
  position : Option Nat := none

namespace Cursor

/-- Adds a row at the end of the result. -/
def push (c : Cursor) (row : List Json) : Cursor := { c with rows := c.rows ++ [row] }

/-- Moves to the next row; the answer is whether there is one. -/
def advance (c : Cursor) : Bool × Cursor :=
  let next := (c.position.map (· + 1)).getD 0
  (decide (next < c.rows.length), { c with position := some (min next c.rows.length) })

/-- The values of the current row. -/
def current (c : Cursor) : Except Error (List Json) :=
  match c.position.bind fun p => c.rows[p]? with
  | some row => .ok row
  | none => .error (.cursor "the cursor is not positioned on a row")

/-- The value at an index of the current row, null where the row is shorter than the labels. -/
def getAt (c : Cursor) (index : Nat) : Except Error Json :=
  match c.current with
  | .error e => .error e
  | .ok row =>
    match row[index]? with
    | some v => .ok v
    | none => if index < c.labels.length then .ok .null else .error (.columnIndexOutOfBounds index)

/-- The value of the first column of a label. -/
def get (c : Cursor) : Row := fun label =>
  match c.labels.findIdx? fun l => l == label with
  | none => .error (.columnNotFound label)
  | some index => c.getAt index

end Cursor

/-- A cursor that may fail: after the given number of advances, every further one does. -/
structure Source where
  cursor : Cursor
  failure : Option (Nat × String) := none

namespace Source

/-- Moves to the next row, or fails. -/
def advance (s : Source) : Except Error Bool × Source :=
  match s.failure with
  | some (0, reason) => (.error (.cursor reason), s)
  | some (n + 1, reason) =>
    let (found, cursor) := s.cursor.advance
    (.ok found, ⟨cursor, some (n, reason)⟩)
  | none =>
    let (found, cursor) := s.cursor.advance
    (.ok found, ⟨cursor, none⟩)

/-- What at most `fuel` advances meet. -/
def feedUpTo : Nat → Source → List (Except Error Row)
  | 0, _ => []
  | fuel + 1, s =>
    match s.advance with
    | (.error e, _) => [.error e]
    | (.ok false, _) => []
    | (.ok true, s) => .ok s.cursor.get :: feedUpTo fuel s

/-- What reading to the end meets: the rows ahead, then the failure if it comes first. -/
def feed (s : Source) : List (Except Error Row) := feedUpTo (s.cursor.rows.length + 1) s

end Source

end SqlGraph.Graph
