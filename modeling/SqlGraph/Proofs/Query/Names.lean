import SqlGraph.Query.Statement

/-!
# Names in a statement

A statement names things itself in two places: an expression may have an alias, and a from clause
may give aliases to tables; a union also names its columns. `Statement.mapNames` replaces all of
these names and leaves the rest as it is: columns and tables, which are referred to by position,
values, placeholders, and all verbatim text. Replacing names changes no condition that decides what
a clause writes, and replacing each name by itself changes nothing (`Statement.mapNames_id`).
-/

namespace SqlGraph

/-! ## Replacing names -/

mutual

/-- The expression with its aliases replaced. -/
def Expression.mapNames (f : String → String) : Expression → Expression
  | .mk t aliasName => .mk (t.mapNames f) (aliasName.map f)

/-- The term with the aliases of its expressions replaced. -/
def Term.mapNames (f : String → String) : Term → Term
  | .column ref => .column ref
  | .value v => .value v
  | .raw text => .raw text
  | .count es distinct => .count (Expression.mapAllNames f es) distinct
  | .sum e => .sum (e.mapNames f)
  | .minimum e => .minimum (e.mapNames f)
  | .maximum e => .maximum (e.mapNames f)
  | .cast e target sqlType => .cast (e.mapNames f) target sqlType

/-- Expressions with their aliases replaced. -/
def Expression.mapAllNames (f : String → String) : List Expression → List Expression
  | [] => []
  | e :: rest => e.mapNames f :: Expression.mapAllNames f rest

end

/-- The operand with the aliases of its expression replaced; a placeholder keeps its name. -/
def Operand.mapNames (f : String → String) : Operand → Operand
  | .value v => .value v
  | .named name => .named name
  | .expression e => .expression (e.mapNames f)

/-- What a value is looked for in, with the aliases of its expressions replaced. -/
def Candidates.mapNames (f : String → String) : Candidates → Candidates
  | .collection items => .collection (items.map (List.map (Operand.mapNames f)))
  | .listed items => .listed (items.map (Operand.mapNames f))
  | .named name => .named name

/-- The predicate with the aliases of its expressions replaced. -/
def Predicate.mapNames (f : String → String) : Predicate → Predicate
  | .isNull => .isNull
  | .equals value => .equals (value.mapNames f)
  | .greater value orEquals => .greater (value.mapNames f) orEquals
  | .lower value orEquals => .lower (value.mapNames f) orEquals
  | .between low high => .between (low.mapNames f) (high.mapNames f)
  | .isIn candidates => .isIn (candidates.mapNames f)
  | .like pattern leading trailing => .like (pattern.mapNames f) leading trailing

/-- The operator with the aliases of its expressions replaced. -/
def Operator.mapNames (f : String → String) (op : Operator) : Operator :=
  { op with predicate := op.predicate.mapNames f }

/-- What is checked against a left side, with the aliases of its expressions replaced. -/
def Condition.mapNames (f : String → String) : Condition → Condition
  | .text s => .text s
  | .operator op => .operator (op.mapNames f)

mutual

/-- The criterion with the aliases of its expressions replaced. -/
def Criterion.mapNames (f : String → String) : Criterion → Criterion
  | .compare left condition => .compare (left.mapNames f) (condition.mapNames f)
  | .raw fragments => .raw (Fragment.mapAllNames f fragments)
  | .nested chain => .nested (Link.mapAllNames f chain)

/-- The fragment with the aliases of its expressions replaced. -/
def Fragment.mapNames (f : String → String) : Fragment → Fragment
  | .text s => .text s
  | .expression e => .expression (e.mapNames f)
  | .operator op => .operator (op.mapNames f)
  | .value v => .value v
  | .criteria chain => .criteria (Link.mapAllNames f chain)

/-- Fragments with the aliases of their expressions replaced. -/
def Fragment.mapAllNames (f : String → String) : List Fragment → List Fragment
  | [] => []
  | fragment :: rest => fragment.mapNames f :: Fragment.mapAllNames f rest

/-- The chain with the aliases of its expressions replaced. -/
def Link.mapAllNames (f : String → String) : List Link → List Link
  | [] => []
  | .mk combinator k :: rest => .mk combinator (k.mapNames f) :: Link.mapAllNames f rest

end

/-- The from clause with the aliases of its tables replaced; verbatim conditions stay. -/
def FromClause.mapNames (f : String → String) (source : FromClause) : FromClause :=
  { source with aliases := source.aliases.map f }

/-- The sort key with the aliases of its expression replaced. -/
def SortKey.mapNames (f : String → String) (k : SortKey) : SortKey :=
  { k with expression := k.expression.mapNames f }

/-- The query with all its names replaced, clause by clause. -/
def Query.mapNames (f : String → String) (q : Query) : Query :=
  { q with
    columns := q.columns.map (Expression.mapNames f)
    source := q.source.mapNames f
    filter := Link.mapAllNames f q.filter
    groups := q.groups.map (Expression.mapNames f)
    having := Link.mapAllNames f q.having
    ordering := q.ordering.map (SortKey.mapNames f) }

/-- The statement with all its names replaced, those of the columns of a union included. -/
def Statement.mapNames (f : String → String) : Statement → Statement
  | .query q => .query (q.mapNames f)
  | .union u =>
    .union {
      queries := u.queries.map (Query.mapNames f)
      columns := u.columns.map fun (name, type) => (f name, type) }

/-! ## What does not depend on names -/

section Decisions

variable (f : String → String)

theorem Expression.mapAllNames_eq_map (es : List Expression) :
    Expression.mapAllNames f es = es.map (Expression.mapNames f) := by
  induction es with
  | nil => rfl
  | cons e rest ih => rw [Expression.mapAllNames, List.map_cons, ih]

@[simp] theorem Operand.isNull_mapNames (value : Operand) :
    (value.mapNames f).isNull = value.isNull := by
  cases value <;> rfl

mutual

@[simp] theorem Criterion.hasConditions_mapNames (k : Criterion) :
    (k.mapNames f).hasConditions = k.hasConditions := by
  cases k with
  | compare left condition => rfl
  | raw fragments => rfl
  | nested chain => exact Link.anyConditions_mapAllNames chain

theorem Link.anyConditions_mapAllNames (chain : List Link) :
    Link.anyConditions (Link.mapAllNames f chain) = Link.anyConditions chain := by
  cases chain with
  | nil => rfl
  | cons link rest =>
    cases link with
    | mk combinator k =>
      rw [Link.mapAllNames, Link.anyConditions, Link.anyConditions, Link.hasConditions,
        Link.hasConditions, Criterion.hasConditions_mapNames k, Link.anyConditions_mapAllNames rest]

end

@[simp] theorem Criteria.hasConditions_mapAllNames (cs : Criteria) :
    Criteria.hasConditions (Link.mapAllNames f cs) = cs.hasConditions :=
  Link.anyConditions_mapAllNames f cs

@[simp] theorem FromClause.root_mapNames (source : FromClause) :
    (source.mapNames f).root = source.root := rfl

@[simp] theorem FromClause.joins_mapNames (source : FromClause) :
    (source.mapNames f).joins = source.joins := rfl

@[simp] theorem FromClause.tables_mapNames (source : FromClause) :
    (source.mapNames f).tables = source.tables := rfl

end Decisions

/-! ## Names that stay -/

mutual

@[simp] theorem Expression.mapNames_id (e : Expression) : e.mapNames id = e := by
  cases e with
  | mk t aliasName => rw [Expression.mapNames, Term.mapNames_id t, Option.map_id_fun, id]

@[simp] theorem Term.mapNames_id (t : Term) : t.mapNames id = t := by
  cases t with
  | column ref => rfl
  | value v => rfl
  | raw text => rfl
  | count es distinct => rw [Term.mapNames, Expression.mapAllNames_id es]
  | sum e => rw [Term.mapNames, Expression.mapNames_id e]
  | minimum e => rw [Term.mapNames, Expression.mapNames_id e]
  | maximum e => rw [Term.mapNames, Expression.mapNames_id e]
  | cast e target sqlType => rw [Term.mapNames, Expression.mapNames_id e]

theorem Expression.mapAllNames_id (es : List Expression) : Expression.mapAllNames id es = es := by
  cases es with
  | nil => rfl
  | cons e rest =>
    rw [Expression.mapAllNames, Expression.mapNames_id e, Expression.mapAllNames_id rest]

end

theorem Expression.map_mapNames_id (es : List Expression) :
    es.map (Expression.mapNames id) = es := by
  rw [← Expression.mapAllNames_eq_map, Expression.mapAllNames_id]

@[simp] theorem Operand.mapNames_id (value : Operand) : value.mapNames id = value := by
  cases value with
  | value v => rfl
  | named name => rfl
  | expression e => rw [Operand.mapNames, Expression.mapNames_id]

theorem Operand.mapNames_id_fun : Operand.mapNames id = id := funext Operand.mapNames_id

@[simp] theorem Predicate.mapNames_id (p : Predicate) : p.mapNames id = p := by
  cases p with
  | isNull => rfl
  | equals value => rw [Predicate.mapNames, Operand.mapNames_id]
  | greater value orEquals => rw [Predicate.mapNames, Operand.mapNames_id]
  | lower value orEquals => rw [Predicate.mapNames, Operand.mapNames_id]
  | between low high => rw [Predicate.mapNames, Operand.mapNames_id, Operand.mapNames_id]
  | isIn candidates =>
    cases candidates with
    | collection items =>
      rw [Predicate.mapNames, Candidates.mapNames, Operand.mapNames_id_fun, List.map_id_fun,
        Option.map_id_fun, id]
    | listed items =>
      rw [Predicate.mapNames, Candidates.mapNames, Operand.mapNames_id_fun, List.map_id]
    | named name => rfl
  | like pattern leading trailing => rw [Predicate.mapNames, Operand.mapNames_id]

@[simp] theorem Operator.mapNames_id (op : Operator) : op.mapNames id = op := by
  rw [Operator.mapNames, Predicate.mapNames_id]

@[simp] theorem Condition.mapNames_id (condition : Condition) :
    condition.mapNames id = condition := by
  cases condition with
  | text text => rfl
  | operator op => rw [Condition.mapNames, Operator.mapNames_id]

mutual

@[simp] theorem Criterion.mapNames_id (k : Criterion) : k.mapNames id = k := by
  cases k with
  | compare left condition =>
    rw [Criterion.mapNames, Expression.mapNames_id, Condition.mapNames_id]
  | raw fragments => rw [Criterion.mapNames, Fragment.mapAllNames_id fragments]
  | nested chain => rw [Criterion.mapNames, Link.mapAllNames_id chain]

@[simp] theorem Fragment.mapNames_id (fragment : Fragment) : fragment.mapNames id = fragment := by
  cases fragment with
  | text text => rfl
  | expression e => rw [Fragment.mapNames, Expression.mapNames_id]
  | operator op => rw [Fragment.mapNames, Operator.mapNames_id]
  | value v => rfl
  | criteria chain => rw [Fragment.mapNames, Link.mapAllNames_id chain]

theorem Fragment.mapAllNames_id (fs : List Fragment) : Fragment.mapAllNames id fs = fs := by
  cases fs with
  | nil => rfl
  | cons fragment rest =>
    rw [Fragment.mapAllNames, Fragment.mapNames_id fragment, Fragment.mapAllNames_id rest]

theorem Link.mapAllNames_id (chain : List Link) : Link.mapAllNames id chain = chain := by
  cases chain with
  | nil => rfl
  | cons link rest =>
    cases link with
    | mk combinator k =>
      rw [Link.mapAllNames, Criterion.mapNames_id k, Link.mapAllNames_id rest]

end

@[simp] theorem FromClause.mapNames_id (source : FromClause) : source.mapNames id = source := by
  obtain ⟨root, joins, ⟨entries⟩⟩ := source
  have hentries : (entries.map fun (t, v) => (t, id v)) = entries := List.map_id entries
  unfold FromClause.mapNames TableMap.map
  rw [hentries]

theorem SortKey.mapNames_id (k : SortKey) : k.mapNames id = k := by
  rw [SortKey.mapNames, Expression.mapNames_id]

@[simp] theorem Query.mapNames_id (q : Query) : q.mapNames id = q := by
  have hordering : q.ordering.map (SortKey.mapNames id) = q.ordering := by
    rw [funext SortKey.mapNames_id]
    exact List.map_id q.ordering
  rw [Query.mapNames, Expression.map_mapNames_id, FromClause.mapNames_id, Link.mapAllNames_id,
    Expression.map_mapNames_id, Link.mapAllNames_id, hordering]

/-- Replacing each name by itself changes nothing. -/
@[simp] theorem Statement.mapNames_id (s : Statement) : s.mapNames id = s := by
  cases s with
  | query q => rw [Statement.mapNames, Query.mapNames_id]
  | union u =>
    have hqueries : u.queries.map (Query.mapNames id) = u.queries := by
      rw [funext Query.mapNames_id]
      exact List.map_id u.queries
    have hcolumns : (u.columns.map fun (name, type) => (id name, type)) = u.columns :=
      List.map_id u.columns
    rw [Statement.mapNames, hqueries, hcolumns]

end SqlGraph
