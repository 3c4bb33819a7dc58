import SqlGraph.Query.Operator

/-!
# Criteria

A chain of criteria is a list of links: a criterion and the combinator before it. Grouping is by
nesting, never by precedence: a nested chain stands between parentheses. A chain *has conditions*
when some link, nested ones included, is not itself an empty chain; only such chains are written.
-/

namespace SqlGraph

/-- What joins a criterion to the ones before it. -/
inductive Combinator where
  | and
  | or
deriving DecidableEq

/-- The combinator in SQL text. -/
def Combinator.keyword : Combinator → String
  | .and => "and"
  | .or => "or"

/-- What is checked against the left side of a criterion. -/
inductive Condition where
  /-- verbatim text -/
  | text (text : String)
  | operator (op : Operator)
deriving BEq

mutual

/-- One condition of a chain. -/
inductive Criterion where
  /-- a left side and what is checked against it -/
  | compare (left : Expression) (condition : Condition)
  /-- fragments written one after the other -/
  | raw (fragments : List Fragment)
  /-- a nested chain -/
  | nested (chain : List Link)

/-- A part of a raw criterion. -/
inductive Fragment where
  | text (text : String)
  | expression (e : Expression)
  | operator (op : Operator)
  | value (v : Json)
  | criteria (chain : List Link)

/-- A criterion and the combinator before it. -/
inductive Link where
  | mk (combinator : Option Combinator) (criterion : Criterion)

end

/-- A chain of criteria, read from left to right. -/
abbrev Criteria := List Link

namespace Link

/-- The combinator before the criterion. -/
def combinator : Link → Option Combinator
  | .mk c _ => c

/-- The criterion of the link. -/
def criterion : Link → Criterion
  | .mk _ c => c

end Link

namespace Criteria

/-- A chain of one criterion, without combinator. -/
def of (c : Criterion) : Criteria := [.mk none c]

/-- Adds a criterion after a combinator. -/
def push (cs : Criteria) (combinator : Combinator) (c : Criterion) : Criteria :=
  cs ++ [.mk (some combinator) c]

end Criteria

/-! ## Equality -/

mutual

/-- Equality of criteria. -/
def Criterion.same : Criterion → Criterion → Bool
  | .compare l c, .compare m d => l == m && c == d
  | .raw a, .raw b => Fragment.sameAll a b
  | .nested a, .nested b => Link.sameAll a b
  | _, _ => false

/-- Equality of fragments. -/
def Fragment.same : Fragment → Fragment → Bool
  | .text a, .text b => a == b
  | .expression a, .expression b => a == b
  | .operator a, .operator b => a == b
  | .value a, .value b => a == b
  | .criteria a, .criteria b => Link.sameAll a b
  | _, _ => false

/-- Equality of lists of fragments, one by one. -/
def Fragment.sameAll : List Fragment → List Fragment → Bool
  | [], [] => true
  | a :: as, b :: bs => a.same b && Fragment.sameAll as bs
  | _, _ => false

/-- Equality of links. -/
def Link.same : Link → Link → Bool
  | .mk c a, .mk d b => c == d && a.same b

/-- Equality of chains, link by link. -/
def Link.sameAll : List Link → List Link → Bool
  | [], [] => true
  | a :: as, b :: bs => a.same b && Link.sameAll as bs
  | _, _ => false

end

instance : BEq Link := ⟨Link.same⟩

instance : BEq Criterion := ⟨Criterion.same⟩

/-! ## Chains with conditions -/

mutual

/-- Whether the criterion is anything but a chain without conditions. -/
def Criterion.hasConditions : Criterion → Bool
  | .compare _ _ => true
  | .raw _ => true
  | .nested chain => Link.anyConditions chain

/-- Whether the criterion of the link has conditions. -/
def Link.hasConditions : Link → Bool
  | .mk _ c => c.hasConditions

/-- Whether some link of the chain has conditions. -/
def Link.anyConditions : List Link → Bool
  | [] => false
  | l :: rest => l.hasConditions || Link.anyConditions rest

end

/-- Whether the chain is written at all. -/
def Criteria.hasConditions (cs : Criteria) : Bool := Link.anyConditions cs

end SqlGraph
