import SqlGraph.Query.Expression

/-!
# Operators

The right side of a criterion: a predicate on the left side, possibly negated. Operands are
concrete values, names bound later, or expressions; a concrete `null` is told apart, as it turns
comparisons into null checks when the operator is written.
-/

namespace SqlGraph

/-- A value slot of an operator. -/
inductive Operand where
  /-- a concrete value -/
  | value (v : Json)
  /-- a placeholder bound when the statement is finalized -/
  | named (name : String)
  /-- another expression -/
  | expression (e : Expression)

namespace Operand

/-- Whether the operand is a concrete `null`. -/
def isNull : Operand → Bool
  | .value v => v.isNull
  | _ => false

/-- Equality of operands. -/
def same : Operand → Operand → Bool
  | .value a, .value b => a == b
  | .named a, .named b => a == b
  | .expression a, .expression b => a == b
  | _, _ => false

instance : BEq Operand := ⟨same⟩

end Operand

/-- What a value is looked for in. -/
inductive Candidates where
  /-- a collection, possibly missing -/
  | collection (items : Option (List Operand))
  /-- values given one by one -/
  | listed (items : List Operand)
  /-- a placeholder that expands to the items of its value -/
  | named (name : String)
deriving BEq

/-- A predicate on the left side of a criterion. -/
inductive Predicate where
  | isNull
  | equals (value : Operand)
  | greater (value : Operand) (orEquals : Bool)
  | lower (value : Operand) (orEquals : Bool)
  | between (lower upper : Operand)
  | isIn (candidates : Candidates)
  /-- a pattern, with a wildcard added on the flagged sides of a string -/
  | like (pattern : Operand) (leading trailing : Bool)
deriving BEq

/-- A predicate, possibly negated. -/
structure Operator where
  predicate : Predicate
  negated : Bool := false
deriving BEq

namespace Operator

/-- Negates the operator; twice gives the operator back. -/
def negate (op : Operator) : Operator := { op with negated := !op.negated }

/-! ## The operators by name -/

def eq (value : Operand) : Operator := ⟨.equals value, false⟩

def notEq (value : Operand) : Operator := (eq value).negate

def gt (value : Operand) : Operator := ⟨.greater value false, false⟩

def gtEq (value : Operand) : Operator := ⟨.greater value true, false⟩

def lt (value : Operand) : Operator := ⟨.lower value false, false⟩

def ltEq (value : Operand) : Operator := ⟨.lower value true, false⟩

def between (lower upper : Operand) : Operator := ⟨.between lower upper, false⟩

/-- In a collection; a missing one reads as a null check. -/
def inList (items : Option (List Operand)) : Operator := ⟨.isIn (.collection items), false⟩

/-- Among values given one by one. -/
def inValues (items : List Operand) : Operator := ⟨.isIn (.listed items), false⟩

/-- In the collection bound to a name. -/
def inNamed (name : String) : Operator := ⟨.isIn (.named name), false⟩

def like (pattern : Operand) : Operator := ⟨.like pattern false false, false⟩

def startsWith (pattern : Operand) : Operator := ⟨.like pattern false true, false⟩

def endsWith (pattern : Operand) : Operator := ⟨.like pattern true false, false⟩

def contains (pattern : Operand) : Operator := ⟨.like pattern true true, false⟩

def isNull : Operator := ⟨.isNull, false⟩

def isNotNull : Operator := isNull.negate

end Operator

end SqlGraph
