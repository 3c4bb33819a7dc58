import SqlGraph.Render.Piece

/-!
# Templates

A template is SQL text with parameters in it: segments of text and of parameters in order, and a
binding for each parameter. Anonymous values are numbered from one and bound at once; named
parameters are bound later, all places of a name to one value. A named parameter is expandable
as soon as one of its places is.

Three operations append to a template (`pushText`, `pushValue`, `pushNamed`), one binds
(`bind`), and `parameters`, `isBound` and `text` look at it.
-/

namespace SqlGraph

/-- A parameter: the number of an anonymous value, or a name. -/
inductive Parameter where
  | index (n : Nat)
  | named (name : String)
deriving DecidableEq

/-- How a parameter is referred to. -/
def Parameter.label : Parameter → String
  | .index n => toString n
  | .named name => name

/-- A part of a template. -/
inductive Segment where
  | text (s : String)
  | parameter (p : Parameter)
deriving DecidableEq

/-- The value of a parameter, if it has one yet, and whether it expands to several places. -/
structure Binding where
  value : Option Json
  expandable : Bool

/-- SQL text with parameters and the values bound so far. -/
structure Template where
  segments : List Segment := []
  bindings : List (Parameter × Binding) := []
  valueCount : Nat := 0

namespace Template

/-- Appends text, to the last segment when it is text too. -/
def appendText (s : String) : List Segment → List Segment
  | [] => [.text s]
  | [.text t] => [.text (t ++ s)]
  | segment :: rest => segment :: appendText s rest

/-- Appends text. -/
def pushText (t : Template) (s : String) : Template :=
  { t with segments := appendText s t.segments }

/-- Appends a place for an anonymous value, under the next number. -/
def pushValue (t : Template) (v : Json) : Template :=
  let p := Parameter.index (t.valueCount + 1)
  { segments := t.segments ++ [.parameter p]
    bindings := t.bindings ++ [(p, ⟨some v, false⟩)]
    valueCount := t.valueCount + 1 }

/-- Changes the binding of a parameter. -/
def modifyBinding (p : Parameter) (f : Binding → Binding) :
    List (Parameter × Binding) → List (Parameter × Binding)
  | [] => []
  | (q, b) :: rest => if q = p then (q, f b) :: rest else (q, b) :: modifyBinding p f rest

/-- The binding of a parameter. -/
def binding? (t : Template) (p : Parameter) : Option Binding := t.bindings.lookup p

/-- Bindings with one more place of a named parameter. -/
def mergeNamed (p : Parameter) (expandable : Bool) (bindings : List (Parameter × Binding)) :
    List (Parameter × Binding) :=
  match bindings.lookup p with
  | some _ =>
    modifyBinding p (fun b => { b with expandable := b.expandable || expandable }) bindings
  | none => bindings ++ [(p, ⟨none, expandable⟩)]

/-- Appends a place of a named parameter. -/
def pushNamed (t : Template) (name : String) (expandable : Bool) : Template :=
  let p := Parameter.named name
  { t with
    segments := t.segments ++ [.parameter p]
    bindings := mergeNamed p expandable t.bindings }

/-- Binds a name to a value, in place of a value bound before; a name that the template lacks is
left aside. -/
def bind (t : Template) (name : String) (v : Json) : Template :=
  let rebind := fun b : Binding => { b with value := some v }
  { t with bindings := modifyBinding (.named name) rebind t.bindings }

/-- Binds names to values in order. -/
def bindAll (t : Template) (values : List (String × Json)) : Template :=
  values.foldl (fun t b => t.bind b.1 b.2) t

/-- The parameters in the order they first occur. -/
def parameters (t : Template) : List Parameter := t.bindings.map (·.1)

/-- Whether every parameter has a value. -/
def isBound (t : Template) : Bool := t.bindings.all fun (_, b) => b.value.isSome

/-- A segment with a parameter shown by its label. -/
def segmentText : Segment → String
  | .text s => s
  | .parameter p => ":" ++ p.label

/-- The text with parameters shown by their label. -/
def text (t : Template) : String := String.join (t.segments.map segmentText)

/-! ## From pieces -/

/-- Appends a piece. -/
def pushPiece (t : Template) : Piece → Template
  | .text s => t.pushText s
  | .value v => t.pushValue v
  | .named name expandable => t.pushNamed name expandable
  | .dangling => t

/-- Appends pieces in order. -/
def pushPieces (t : Template) (ps : List Piece) : Template := ps.foldl pushPiece t

/-- The template of pieces. -/
def ofPieces (ps : List Piece) : Template := pushPieces {} ps

/-- The template of pieces, absent when one of them dangles. -/
def ofPieces? (ps : List Piece) : Option Template := (Piece.resolved? ps).map ofPieces

end Template

end SqlGraph
