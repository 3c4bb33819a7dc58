import SqlGraph.Proofs.Render.Resolved

/-!
# What a statement refers to

A query refers to the columns of its clauses (`Query.refs`) and, in its from clause, to tables it
writes out (`FromClause.tables`) or names. The checks of resolved references are checks of these
lists: `Statement.resolves_eq`.
-/

namespace SqlGraph

/-! ## Columns -/

mutual

/-- The columns of an expression. -/
def Expression.refs : Expression → List ColumnRef
  | .mk t _ => t.refs

/-- The columns of a term. -/
def Term.refs : Term → List ColumnRef
  | .column ref => [ref]
  | .value _ => []
  | .raw _ => []
  | .count es _ => Expression.allRefs es
  | .sum e => e.refs
  | .minimum e => e.refs
  | .maximum e => e.refs
  | .cast e _ _ => e.refs

/-- The columns of expressions. -/
def Expression.allRefs : List Expression → List ColumnRef
  | [] => []
  | e :: rest => e.refs ++ Expression.allRefs rest

end

/-- The columns of an operand. -/
def Operand.refs : Operand → List ColumnRef
  | .value _ => []
  | .named _ => []
  | .expression e => e.refs

/-- The columns of a predicate. -/
def Predicate.refs : Predicate → List ColumnRef
  | .isNull => []
  | .equals value => value.refs
  | .greater value _ => value.refs
  | .lower value _ => value.refs
  | .between low high => low.refs ++ high.refs
  | .isIn (.collection none) => []
  | .isIn (.collection (some items)) => items.flatMap Operand.refs
  | .isIn (.listed items) => items.flatMap Operand.refs
  | .isIn (.named _) => []
  | .like pattern _ _ => pattern.refs

/-- The columns of what a left side is checked against. -/
def Condition.refs : Condition → List ColumnRef
  | .text _ => []
  | .operator op => op.predicate.refs

mutual

/-- The columns of a criterion. -/
def Criterion.refs : Criterion → List ColumnRef
  | .compare left condition => left.refs ++ condition.refs
  | .raw fragments => Fragment.allRefs fragments
  | .nested chain => Link.allRefs chain

/-- The columns of a fragment. -/
def Fragment.refs : Fragment → List ColumnRef
  | .text _ => []
  | .expression e => e.refs
  | .operator op => op.predicate.refs
  | .value _ => []
  | .criteria chain => Link.allRefs chain

/-- The columns of fragments. -/
def Fragment.allRefs : List Fragment → List ColumnRef
  | [] => []
  | f :: rest => f.refs ++ Fragment.allRefs rest

/-- The columns of a chain. -/
def Link.allRefs : List Link → List ColumnRef
  | [] => []
  | .mk _ k :: rest => k.refs ++ Link.allRefs rest

end

/-- The columns that the joins of a from clause compare. -/
def FromClause.refs (f : FromClause) : List ColumnRef := f.joins.flatMap Join.columns

/-- The columns of a query, clause by clause. -/
def Query.refs (q : Query) : List ColumnRef :=
  Expression.allRefs q.columns ++ q.source.refs ++ Link.allRefs q.filter ++
    Expression.allRefs q.groups ++ Link.allRefs q.having ++
    Expression.allRefs (q.ordering.map (·.expression))

/-- The columns of expressions are those of each of them. -/
theorem Expression.allRefs_eq_flatMap (es : List Expression) :
    Expression.allRefs es = es.flatMap Expression.refs := by
  induction es with
  | nil => rfl
  | cons e rest ih => rw [Expression.allRefs, List.flatMap_cons, ih]

/-! ## Statements -/

namespace Statement

/-- The query itself, or the members of a union. -/
def queries : Statement → List Query
  | .query q => [q]
  | .union u => u.queries

/-- The columns of a statement. -/
def refs (s : Statement) : List ColumnRef := s.queries.flatMap Query.refs

/-- The tables that the from clauses of a statement write out. -/
def sources (s : Statement) : List TableId := s.queries.flatMap fun q => q.source.tables

/-- The tables that the from clauses of a statement give an alias to. -/
def aliased (s : Statement) : List TableId :=
  s.queries.flatMap fun q => q.source.aliases.entries.map (·.1)

/-- Every table that a statement mentions. -/
def tables (s : Statement) : List TableId := s.sources ++ s.aliased ++ s.refs.map (·.table)

/-- The tables written out are mentioned. -/
theorem sources_subset_tables (s : Statement) : s.sources ⊆ s.tables := by
  intro id hid
  rw [tables, List.append_assoc]
  exact List.mem_append_left _ hid

end Statement

/-! ## Columns that exist -/

section Resolves

variable (c : Catalog)

mutual

theorem Expression.resolves_eq (e : Expression) : e.resolves c = e.refs.all c.hasColumn := by
  cases e with
  | mk t aliasName => exact Term.resolves_eq t

theorem Term.resolves_eq (t : Term) : t.resolves c = t.refs.all c.hasColumn := by
  cases t with
  | column ref => exact (Bool.and_true _).symm
  | value v => rfl
  | raw text => rfl
  | count es distinct => exact Expression.allResolve_eq es
  | sum e => exact Expression.resolves_eq e
  | minimum e => exact Expression.resolves_eq e
  | maximum e => exact Expression.resolves_eq e
  | cast e target sqlType => exact Expression.resolves_eq e

theorem Expression.allResolve_eq (es : List Expression) :
    Expression.allResolve c es = (Expression.allRefs es).all c.hasColumn := by
  cases es with
  | nil => rfl
  | cons e rest =>
    rw [Expression.allResolve, Expression.allRefs, List.all_append, Expression.resolves_eq e,
      Expression.allResolve_eq rest]

end

theorem Operand.resolves_eq (value : Operand) :
    value.resolves c = value.refs.all c.hasColumn := by
  cases value with
  | value v => rfl
  | named name => rfl
  | expression e => exact Expression.resolves_eq c e

theorem Operand.all_resolves_eq (items : List Operand) :
    items.all (Operand.resolves c) = (items.flatMap Operand.refs).all c.hasColumn := by
  rw [List.all_flatMap]
  exact congrArg items.all (funext (Operand.resolves_eq c))

theorem Predicate.resolves_eq (p : Predicate) : p.resolves c = p.refs.all c.hasColumn := by
  cases p with
  | isNull => rfl
  | equals value => exact Operand.resolves_eq c value
  | greater value orEquals => exact Operand.resolves_eq c value
  | lower value orEquals => exact Operand.resolves_eq c value
  | between low high =>
    rw [Predicate.resolves, Predicate.refs, List.all_append, Operand.resolves_eq c low,
      Operand.resolves_eq c high]
  | isIn candidates =>
    cases candidates with
    | collection items =>
      cases items with
      | none => rfl
      | some items => exact Operand.all_resolves_eq c items
    | listed items => exact Operand.all_resolves_eq c items
    | named name => rfl
  | like pattern leading trailing => exact Operand.resolves_eq c pattern

theorem Condition.resolves_eq (condition : Condition) :
    condition.resolves c = condition.refs.all c.hasColumn := by
  cases condition with
  | text text => rfl
  | operator op => exact Predicate.resolves_eq c op.predicate

mutual

theorem Criterion.resolves_eq (k : Criterion) : k.resolves c = k.refs.all c.hasColumn := by
  cases k with
  | compare left condition =>
    rw [Criterion.resolves, Criterion.refs, List.all_append, Expression.resolves_eq c left,
      Condition.resolves_eq c condition]
  | raw fragments => exact Fragment.allResolve_eq fragments
  | nested chain => exact Link.allResolve_eq chain

theorem Fragment.resolves_eq (f : Fragment) : f.resolves c = f.refs.all c.hasColumn := by
  cases f with
  | text text => rfl
  | expression e => exact Expression.resolves_eq c e
  | operator op => exact Predicate.resolves_eq c op.predicate
  | value v => rfl
  | criteria chain => exact Link.allResolve_eq chain

theorem Fragment.allResolve_eq (fs : List Fragment) :
    Fragment.allResolve c fs = (Fragment.allRefs fs).all c.hasColumn := by
  cases fs with
  | nil => rfl
  | cons f rest =>
    rw [Fragment.allResolve, Fragment.allRefs, List.all_append, Fragment.resolves_eq f,
      Fragment.allResolve_eq rest]

theorem Link.allResolve_eq (chain : List Link) :
    Link.allResolve c chain = (Link.allRefs chain).all c.hasColumn := by
  cases chain with
  | nil => rfl
  | cons link rest =>
    cases link with
    | mk combinator k =>
      rw [Link.allResolve, Link.allRefs, List.all_append, Criterion.resolves_eq k,
        Link.allResolve_eq rest]

end

/-- A query resolves when its columns exist and it writes out tables below the position. -/
theorem Query.resolves_iff (n : Nat) (q : Query) :
    q.resolves c n = true ↔
      (∀ ref ∈ q.refs, c.hasColumn ref = true) ∧ ∀ id ∈ q.source.tables, id < n := by
  have hsource : q.source.resolves c n =
      (q.source.tables.all (· < n) && q.source.refs.all c.hasColumn) := by
    rw [FromClause.resolves, FromClause.refs, List.all_flatMap]
  have htables : q.source.tables.all (· < n) = true ↔ ∀ id ∈ q.source.tables, id < n := by
    simp
  rw [← htables, ← List.all_eq_true]
  unfold Query.resolves Query.refs
  rw [hsource, Expression.allResolve_eq, Link.allResolve_eq, Expression.allResolve_eq,
    Link.allResolve_eq, Expression.allResolve_eq]
  simp only [List.all_append, Bool.and_eq_true]
  constructor
  · rintro ⟨⟨⟨⟨⟨hcolumns, hids, hjoins⟩, hfilter⟩, hgroups⟩, hhaving⟩, hordering⟩
    exact ⟨⟨⟨⟨⟨⟨hcolumns, hjoins⟩, hfilter⟩, hgroups⟩, hhaving⟩, hordering⟩, hids⟩
  · rintro ⟨⟨⟨⟨⟨⟨hcolumns, hjoins⟩, hfilter⟩, hgroups⟩, hhaving⟩, hordering⟩, hids⟩
    exact ⟨⟨⟨⟨⟨hcolumns, hids, hjoins⟩, hfilter⟩, hgroups⟩, hhaving⟩, hordering⟩

/-- A statement resolves when its columns exist and it writes out tables below the position. -/
theorem Statement.resolves_iff (n : Nat) (s : Statement) :
    s.resolves c n = true ↔
      (∀ ref ∈ s.refs, c.hasColumn ref = true) ∧ ∀ id ∈ s.sources, id < n := by
  have hqueries : s.resolves c n = s.queries.all (Query.resolves c n) := by
    cases s with
    | query q => exact (Bool.and_true _).symm
    | union u => rfl
  rw [hqueries, List.all_eq_true]
  constructor
  · intro h
    constructor
    · intro ref href
      obtain ⟨q, hq, hmem⟩ := List.mem_flatMap.mp href
      exact ((Query.resolves_iff c n q).mp (h q hq)).1 ref hmem
    · intro id hid
      obtain ⟨q, hq, hmem⟩ := List.mem_flatMap.mp hid
      exact ((Query.resolves_iff c n q).mp (h q hq)).2 id hmem
  · rintro ⟨hrefs, hsources⟩ q hq
    refine (Query.resolves_iff c n q).mpr ⟨fun ref href => ?_, fun id hid => ?_⟩
    · exact hrefs ref (List.mem_flatMap.mpr ⟨q, hq, href⟩)
    · exact hsources id (List.mem_flatMap.mpr ⟨q, hq, hid⟩)

end Resolves

end SqlGraph
