import SqlGraph.Json.Value
import SqlGraph.Query.SqlType
import SqlGraph.Query.TableMap

/-!
# Expressions

An expression is a term, possibly under an alias. Terms are columns, values to parameterize,
verbatim text, and the functions `count`, `sum`, `min`, `max` and `cast`.
-/

namespace SqlGraph

mutual

/-- A selectable: what is computed, and the alias it is projected under. -/
inductive Expression where
  | mk (term : Term) (aliasName : Option String)

/-- What an expression computes. -/
inductive Term where
  /-- a column of a table -/
  | column (ref : ColumnRef)
  /-- a value, `null` included, given as a parameter -/
  | value (v : Json)
  /-- verbatim text -/
  | raw (text : String)
  /-- a count of rows, of values, or of distinct combinations of values -/
  | count (of : List Expression) (distinct : Bool)
  | sum (of : Expression)
  | minimum (of : Expression)
  | maximum (of : Expression)
  /-- a conversion, the name of the target type written as `sqlType` when given -/
  | cast (of : Expression) (target : SqlType) (sqlType : Option String)

end

namespace Expression

instance : Inhabited Expression := ⟨.mk (.raw "") none⟩

/-- What the expression computes. -/
def term : Expression → Term
  | .mk t _ => t

/-- The alias of the expression. -/
def aliasName : Expression → Option String
  | .mk _ a => a

/-- A term without alias. -/
def ofTerm (t : Term) : Expression := .mk t none

/-- A column without alias. -/
def column (ref : ColumnRef) : Expression := ofTerm (.column ref)

/-- The same term under an alias. -/
def aliased (e : Expression) (name : String) : Expression := .mk e.term (some name)

end Expression

/-! ## Equality -/

mutual

/-- Equality of expressions, values compared as JSON values. -/
def Expression.same : Expression → Expression → Bool
  | .mk t a, .mk u b => t.same u && a == b

/-- Equality of terms. -/
def Term.same : Term → Term → Bool
  | .column a, .column b => a == b
  | .value a, .value b => a == b
  | .raw a, .raw b => a == b
  | .count a d, .count b e => Expression.sameAll a b && d == e
  | .sum a, .sum b => a.same b
  | .minimum a, .minimum b => a.same b
  | .maximum a, .maximum b => a.same b
  | .cast a t s, .cast b u r => a.same b && t == u && s == r
  | _, _ => false

/-- Equality of lists of expressions, one by one. -/
def Expression.sameAll : List Expression → List Expression → Bool
  | [], [] => true
  | a :: as, b :: bs => a.same b && Expression.sameAll as bs
  | _, _ => false

end

instance : BEq Expression := ⟨Expression.same⟩

end SqlGraph
