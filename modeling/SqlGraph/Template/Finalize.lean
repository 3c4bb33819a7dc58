import SqlGraph.Error
import SqlGraph.Template.Basic

/-!
# Finalizing a template

Finalizing numbers the places of a template from one in order of appearance and gives the value
of each. An expandable parameter bound to an array takes as many places as the array has items,
any other parameter takes one. The first place without a value is an error.
-/

namespace SqlGraph

/-- How a place is written. -/
inductive PlaceStyle where
  /-- a question mark -/
  | positional
  /-- a dollar sign and the position -/
  | numbered
deriving DecidableEq

/-- The text of the place at a position. -/
def PlaceStyle.place : PlaceStyle → Nat → String
  | .positional, _ => "?"
  | .numbered, position => "$" ++ toString position

/-- SQL text ready for execution and the values of its places, in order. -/
structure PreparedSql where
  sql : String
  values : List Json

namespace PreparedSql

/-- The values with their positions, from one. -/
def positions (p : PreparedSql) : List (Nat × Json) := p.values.mapIdx fun i v => (i + 1, v)

/-- Appends text. -/
def write (p : PreparedSql) (s : String) : PreparedSql := { p with sql := p.sql ++ s }

/-- Appends a place for a value. -/
def place (style : PlaceStyle) (p : PreparedSql) (v : Json) : PreparedSql :=
  { sql := p.sql ++ style.place (p.values.length + 1), values := p.values ++ [v] }

/-- Appends places for values, commas between them. -/
def places (style : PlaceStyle) (p : PreparedSql) : List Json → PreparedSql
  | [] => p
  | [v] => p.place style v
  | v :: w :: rest => places style ((p.place style v).write ", ") (w :: rest)

end PreparedSql

namespace Template

/-- The values that the places of a parameter take, or what is missing. -/
def placeValues (p : Parameter) : Option Binding → Except Error (List Json)
  | some ⟨some (.array items), true⟩ => .ok items
  | some ⟨some v, _⟩ => .ok [v]
  | some ⟨none, true⟩ => .error (.missingExpansionSize p.label)
  | some ⟨none, false⟩ => .error (.unboundParameter p.label)
  | none => .error (.unboundParameter p.label)

/-- Writes segments after what is written already. -/
def finalizeFrom (t : Template) (style : PlaceStyle) :
    PreparedSql → List Segment → Except Error PreparedSql
  | done, [] => .ok done
  | done, .text s :: rest => finalizeFrom t style (done.write s) rest
  | done, .parameter p :: rest =>
    match placeValues p (t.binding? p) with
    | .error e => .error e
    | .ok values => finalizeFrom t style (done.places style values) rest

/-- The text with numbered places and the value of each. -/
def finalize (t : Template) (style : PlaceStyle) : Except Error PreparedSql :=
  t.finalizeFrom style ⟨"", []⟩ t.segments

end Template

end SqlGraph
