import SqlGraph.Proofs.Template.Places

/-!
# The placeholders of a statement

The placeholders of a statement are listed by a walk of its own: depth first, clause by clause,
without scopes, names or text (`Statement.placeholders`). The statement of a derived table is
walked where a from clause refers to it.
-/

namespace SqlGraph

/-! ## The walk -/

mutual

/-- The placeholders of an expression. -/
def Expression.placeholders : Expression → List Placeholder
  | .mk t _ => t.placeholders

/-- The placeholders of a term; columns and verbatim text have none. -/
def Term.placeholders : Term → List Placeholder
  | .column _ => []
  | .value v => [.value v]
  | .raw _ => []
  | .count es _ => Expression.placeholdersAll es
  | .sum e => e.placeholders
  | .minimum e => e.placeholders
  | .maximum e => e.placeholders
  | .cast e _ _ => e.placeholders

/-- The placeholders of expressions in order. -/
def Expression.placeholdersAll : List Expression → List Placeholder
  | [] => []
  | e :: rest => e.placeholders ++ Expression.placeholdersAll rest

end

/-- The placeholders of an operand; a concrete null has none. -/
def Operand.placeholders : Operand → List Placeholder
  | .value v => if v.isNull then [] else [.value v]
  | .named name => [.named name]
  | .expression e => e.placeholders

/-- The placeholders of a pattern, the wildcards added to a string. -/
def Operand.patternPlaceholders (leading trailing : Bool) : Operand → List Placeholder
  | .value (.string pattern) =>
    [.value (.string ((if leading then "%" else "") ++ pattern ++ (if trailing then "%" else "")))]
  | other => other.placeholders

/-- The placeholders of a predicate: bounds lower first, items in order. -/
def Predicate.placeholders : Predicate → List Placeholder
  | .isNull => []
  | .equals value => value.placeholders
  | .greater value _ => value.placeholders
  | .lower value _ => value.placeholders
  | .between low high => low.placeholders ++ high.placeholders
  | .isIn (.collection none) => []
  | .isIn (.collection (some items)) => items.flatMap Operand.placeholders
  | .isIn (.listed items) => items.flatMap Operand.placeholders
  | .isIn (.named name) => [.named name]
  | .like pattern leading trailing => pattern.patternPlaceholders leading trailing

/-- The placeholders of an operator, negated or not. -/
def Operator.placeholders (op : Operator) : List Placeholder := op.predicate.placeholders

/-- The placeholders of what a left side is checked against. -/
def Condition.placeholders : Condition → List Placeholder
  | .text _ => []
  | .operator op => op.placeholders

mutual

/-- The placeholders of a criterion, left side first. -/
def Criterion.placeholders : Criterion → List Placeholder
  | .compare left c => left.placeholders ++ c.placeholders
  | .raw fragments => Fragment.placeholdersAll fragments
  | .nested chain => Link.placeholdersAll chain

/-- The placeholders of a fragment. -/
def Fragment.placeholders : Fragment → List Placeholder
  | .text _ => []
  | .expression e => e.placeholders
  | .operator op => op.placeholders
  | .value v => [.value v]
  | .criteria chain => Link.placeholdersAll chain

/-- The placeholders of fragments in order. -/
def Fragment.placeholdersAll : List Fragment → List Placeholder
  | [] => []
  | f :: rest => f.placeholders ++ Fragment.placeholdersAll rest

/-- The placeholders of a chain, link by link. -/
def Link.placeholdersAll : List Link → List Placeholder
  | [] => []
  | .mk _ k :: rest => k.placeholders ++ Link.placeholdersAll rest

end

/-- The placeholders of a from clause: those of its tables where they are referred to. Without a
root it has none. -/
def FromClause.placeholders (ofTable : TableId → List Placeholder) (f : FromClause) :
    List Placeholder :=
  if f.root.isSome then f.tables.flatMap ofTable else []

/-- The placeholders of a limit: the count, then the offset. -/
def Limit.placeholders (l : Limit) : List Placeholder :=
  .value (.ofNat l.count) :: l.offset.toList.map fun n => .value (.ofNat n)

/-- The placeholders of a query in the order of its clauses. -/
def Query.placeholders (ofTable : TableId → List Placeholder) (q : Query) : List Placeholder :=
  Expression.placeholdersAll q.columns ++ q.source.placeholders ofTable ++
    Link.placeholdersAll q.filter ++ Expression.placeholdersAll q.groups ++
    Link.placeholdersAll q.having ++ q.ordering.flatMap (·.expression.placeholders) ++
    q.limit.toList.flatMap Limit.placeholders

/-- The placeholders of a statement, members of a union in order. -/
def Statement.placeholders (ofTable : TableId → List Placeholder) : Statement → List Placeholder
  | .query q => q.placeholders ofTable
  | .union u => u.queries.flatMap (Query.placeholders ofTable)

/-- The placeholders of the statement that a table stands for, among the tables below a position;
its own statement refers to tables registered before it. -/
def Catalog.tablePlaceholders (c : Catalog) : Nat → TableId → List Placeholder
  | 0, _ => []
  | n + 1, id =>
    if id = n then
      match (c.table? n).bind (·.body) with
      | some body => body.placeholders (c.tablePlaceholders n)
      | none => []
    else c.tablePlaceholders n id

/-- The placeholders of a statement over the tables of a catalog. -/
def Catalog.placeholders (c : Catalog) (s : Statement) : List Placeholder :=
  s.placeholders (c.tablePlaceholders c.size)

/-! ## Lists and nulls -/

/-- Expressions one after the other. -/
theorem Expression.placeholdersAll_eq_flatMap (es : List Expression) :
    Expression.placeholdersAll es = es.flatMap Expression.placeholders := by
  induction es with
  | nil => rfl
  | cons e rest ih =>
    unfold placeholdersAll
    rw [List.flatMap_cons, ih]

/-- A concrete null has no placeholder. -/
theorem Operand.placeholders_of_isNull {value : Operand} (h : value.isNull = true) :
    value.placeholders = [] := by
  cases value with
  | value v =>
    have hv : v.isNull = true := h
    simp [placeholders, hv]
  | named name => simp [isNull] at h
  | expression e => simp [isNull] at h

/-- A concrete null pattern has no placeholder. -/
theorem Operand.patternPlaceholders_of_isNull {pattern : Operand} (leading trailing : Bool)
    (h : pattern.isNull = true) : pattern.patternPlaceholders leading trailing = [] := by
  unfold patternPlaceholders
  split
  · simp [Operand.isNull, Json.isNull] at h
  · exact placeholders_of_isNull h

end SqlGraph
