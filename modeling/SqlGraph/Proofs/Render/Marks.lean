import SqlGraph.Proofs.Render.Placeholders

/-!
# What a statement asks of its places

A place is marked with a value, or with a name and whether the name is to expand there. The walk
over the places of a statement tells the marks apart (`Statement.marks`): only a name in place of a
whole `in` list asks to expand, a name that is an operand never does. Every clause is then shown to
be written with the marks of its walk, up to `marks_ofCatalog` for whole statements.

Without what they ask for, the marks are the placeholders of the statement
(`placeholders_ofCatalog`).
-/

namespace SqlGraph

/-! ## Marks -/

/-- What a place is marked with: a value, or a name and whether it is to expand. -/
inductive Mark where
  | value (v : Json)
  | named (name : String) (expandable : Bool)

/-- What stands at the place. -/
def Mark.placeholder : Mark → Placeholder
  | .value v => .value v
  | .named name _ => .named name

/-- The mark of a place that is not to expand. -/
def Placeholder.mark : Placeholder → Mark
  | .value v => .value v
  | .named name => .named name false

@[simp] theorem Placeholder.map_placeholder_map_mark (xs : List Placeholder) :
    (xs.map Placeholder.mark).map Mark.placeholder = xs := by
  rw [List.map_map]
  refine (List.map_congr_left fun x _ => ?_).trans (List.map_id xs)
  cases x <;> rfl

/-- What a piece marks a place with. -/
def Piece.mark? : Piece → Option Mark
  | .value v => some (.value v)
  | .named name expandable => some (.named name expandable)
  | .text _ => none
  | .dangling => none

/-- The marks of pieces, in order. -/
def Piece.marks (ps : List Piece) : List Mark := ps.filterMap Piece.mark?

theorem Piece.marks_append (ps qs : List Piece) :
    Piece.marks (ps ++ qs) = Piece.marks ps ++ Piece.marks qs := List.filterMap_append

/-- What pieces leave places for, they mark. -/
theorem Piece.map_marks (ps : List Piece) :
    (Piece.marks ps).map Mark.placeholder = Piece.placeholders ps := by
  unfold marks placeholders
  rw [List.map_filterMap]
  refine List.filterMap_congr fun x _ => ?_
  cases x <;> rfl

/-! ## The walk -/

/-- The marks of a predicate: a name in place of a list is to expand, its operands are not. -/
def Predicate.marks : Predicate → List Mark
  | .isIn (.named name) => [.named name true]
  | other => other.placeholders.map Placeholder.mark

/-- The marks of an operator, negated or not. -/
def Operator.marks (op : Operator) : List Mark := op.predicate.marks

/-- The marks of what a left side is checked against. -/
def Condition.marks : Condition → List Mark
  | .text _ => []
  | .operator op => op.marks

mutual

/-- The marks of a criterion, left side first. -/
def Criterion.marks : Criterion → List Mark
  | .compare left c => left.placeholders.map Placeholder.mark ++ c.marks
  | .raw fragments => Fragment.marksAll fragments
  | .nested chain => Link.marksAll chain

/-- The marks of a fragment. -/
def Fragment.marks : Fragment → List Mark
  | .text _ => []
  | .expression e => e.placeholders.map Placeholder.mark
  | .operator op => op.marks
  | .value v => [.value v]
  | .criteria chain => Link.marksAll chain

/-- The marks of fragments in order. -/
def Fragment.marksAll : List Fragment → List Mark
  | [] => []
  | f :: rest => f.marks ++ Fragment.marksAll rest

/-- The marks of a chain, link by link. -/
def Link.marksAll : List Link → List Mark
  | [] => []
  | .mk _ k :: rest => k.marks ++ Link.marksAll rest

end

/-- The marks of a from clause: those of its tables where they are referred to. -/
def FromClause.marks (ofTable : TableId → List Mark) (f : FromClause) : List Mark :=
  if f.root.isSome then f.tables.flatMap ofTable else []

/-- The marks of a query in the order of its clauses. -/
def Query.marks (ofTable : TableId → List Mark) (q : Query) : List Mark :=
  (Expression.placeholdersAll q.columns).map Placeholder.mark ++ q.source.marks ofTable ++
    Link.marksAll q.filter ++ (Expression.placeholdersAll q.groups).map Placeholder.mark ++
    Link.marksAll q.having ++
    (q.ordering.flatMap (·.expression.placeholders)).map Placeholder.mark ++
    (q.limit.toList.flatMap Limit.placeholders).map Placeholder.mark

/-- The marks of a statement, members of a union in order. -/
def Statement.marks (ofTable : TableId → List Mark) : Statement → List Mark
  | .query q => q.marks ofTable
  | .union u => u.queries.flatMap (Query.marks ofTable)

/-- The marks of the statement that a table stands for, among the tables below a position. -/
def Catalog.tableMarks (c : Catalog) : Nat → TableId → List Mark
  | 0, _ => []
  | n + 1, id =>
    if id = n then
      match (c.table? n).bind (·.body) with
      | some body => body.marks (c.tableMarks n)
      | none => []
    else c.tableMarks n id

/-- The marks of a statement over the tables of a catalog. -/
def Catalog.marks (c : Catalog) (s : Statement) : List Mark :=
  s.marks (c.tableMarks c.size)

/-! ## Placeholders -/

theorem Predicate.map_marks (p : Predicate) :
    p.marks.map Mark.placeholder = p.placeholders := by
  unfold Predicate.marks
  split
  · rfl
  · exact Placeholder.map_placeholder_map_mark _

theorem Condition.map_marks (c : Condition) :
    c.marks.map Mark.placeholder = c.placeholders := by
  cases c with
  | text text => rfl
  | operator op => exact op.predicate.map_marks

mutual

theorem Criterion.map_marks (k : Criterion) :
    k.marks.map Mark.placeholder = k.placeholders := by
  cases k with
  | compare left c =>
    unfold Criterion.marks Criterion.placeholders
    rw [List.map_append, Placeholder.map_placeholder_map_mark, c.map_marks]
  | raw fragments => exact Fragment.map_marksAll fragments
  | nested chain => exact Link.map_marksAll chain

theorem Fragment.map_marks (f : Fragment) :
    f.marks.map Mark.placeholder = f.placeholders := by
  cases f with
  | text text => rfl
  | expression e => exact Placeholder.map_placeholder_map_mark _
  | operator op => exact op.predicate.map_marks
  | value v => rfl
  | criteria chain => exact Link.map_marksAll chain

theorem Fragment.map_marksAll (fs : List Fragment) :
    (Fragment.marksAll fs).map Mark.placeholder = Fragment.placeholdersAll fs := by
  cases fs with
  | nil => rfl
  | cons f rest =>
    unfold Fragment.marksAll Fragment.placeholdersAll
    rw [List.map_append, Fragment.map_marks f, Fragment.map_marksAll rest]

theorem Link.map_marksAll (chain : List Link) :
    (Link.marksAll chain).map Mark.placeholder = Link.placeholdersAll chain := by
  cases chain with
  | nil => rfl
  | cons link rest =>
    cases link with
    | mk c k =>
      unfold Link.marksAll Link.placeholdersAll
      rw [List.map_append, Criterion.map_marks k, Link.map_marksAll rest]

end

section Clauses

variable {ofTable : TableId → List Mark} {ofTable' : TableId → List Placeholder}
  (htable : ∀ id, (ofTable id).map Mark.placeholder = ofTable' id)

include htable

theorem FromClause.map_marks (f : FromClause) :
    (f.marks ofTable).map Mark.placeholder = f.placeholders ofTable' := by
  unfold FromClause.marks FromClause.placeholders
  rw [apply_ite (List.map Mark.placeholder), List.map_flatMap]
  simp only [htable, List.map_nil]

theorem Query.map_marks (q : Query) :
    (q.marks ofTable).map Mark.placeholder = q.placeholders ofTable' := by
  unfold Query.marks Query.placeholders
  simp only [List.map_append, Placeholder.map_placeholder_map_mark, FromClause.map_marks htable,
    Link.map_marksAll]

theorem Statement.map_marks (s : Statement) :
    (s.marks ofTable).map Mark.placeholder = s.placeholders ofTable' := by
  cases s with
  | query q => exact q.map_marks htable
  | union u =>
    unfold Statement.marks Statement.placeholders
    simp only [List.map_flatMap, Query.map_marks htable]

end Clauses

theorem Catalog.map_tableMarks (c : Catalog) (n : Nat) (id : TableId) :
    (c.tableMarks n id).map Mark.placeholder = c.tablePlaceholders n id := by
  induction n generalizing id with
  | zero => rfl
  | succ n ih =>
    unfold Catalog.tableMarks Catalog.tablePlaceholders
    by_cases hid : id = n
    · rw [if_pos hid, if_pos hid]
      cases (c.table? n).bind (·.body) with
      | none => rfl
      | some body => exact body.map_marks ih
    · rw [if_neg hid, if_neg hid]
      exact ih id

/-- The placeholders of a statement are its marks without what they ask for. -/
theorem Catalog.map_marks (c : Catalog) (s : Statement) :
    (c.marks s).map Mark.placeholder = c.placeholders s :=
  s.map_marks (c.map_tableMarks c.size)

namespace Render

/-! ## Pieces -/

@[simp] theorem marks_nil : Piece.marks [] = [] := rfl

@[simp] theorem marks_cons_text (s : String) (ps : List Piece) :
    Piece.marks (.text s :: ps) = Piece.marks ps := rfl

@[simp] theorem marks_cons_dangling (ps : List Piece) :
    Piece.marks (.dangling :: ps) = Piece.marks ps := rfl

@[simp] theorem marks_cons_value (v : Json) (ps : List Piece) :
    Piece.marks (.value v :: ps) = .value v :: Piece.marks ps := rfl

@[simp] theorem marks_cons_named (name : String) (expandable : Bool) (ps : List Piece) :
    Piece.marks (.named name expandable :: ps) =
      .named name expandable :: Piece.marks ps := rfl

/-- A separator of text marks nothing between the items. -/
@[simp] theorem marks_separated (separator : String) (items : List (List Piece)) :
    Piece.marks (separated separator items) = items.flatMap Piece.marks := by
  induction items with
  | nil => rfl
  | cons item rest ih =>
    cases rest with
    | nil => simp [separated_singleton]
    | cons next rest =>
      rw [separated_cons_cons, Piece.marks_append, marks_cons_text, ih]
      exact List.flatMap_cons.symm

section Names

variable (ctx : Context) (scopes : Scopes)

@[simp] theorem marks_name (s : String) : Piece.marks (name ctx s) = [] := rfl

@[simp] theorem marks_qualifiedName (t : Table) :
    Piece.marks (qualifiedName ctx t) = [] := by
  unfold qualifiedName
  cases t.schema <;> cases t.name <;> simp [Piece.marks_append]

@[simp] theorem marks_tableName (id : TableId) :
    Piece.marks (tableName ctx scopes id) = [] := by
  unfold tableName
  split
  · rfl
  · split
    · rfl
    · split <;> simp

@[simp] theorem marks_column (ref : ColumnRef) :
    Piece.marks (column ctx scopes ref) = [] := by
  unfold column
  rw [Piece.marks_append, marks_tableName, List.nil_append, marks_cons_text]
  split <;> rfl

end Names

/-! ## Expressions and operators -/

section Expressions

variable (ctx : Context) (scopes : Scopes)

mutual

theorem marks_expression (e : Expression) :
    Piece.marks (expression ctx scopes e) = e.placeholders.map Placeholder.mark := by
  cases e with
  | mk t aliasName => exact marks_term t

theorem marks_term (t : Term) :
    Piece.marks (term ctx scopes t) = t.placeholders.map Placeholder.mark := by
  cases t with
  | column ref => exact marks_column ctx scopes ref
  | value v => rfl
  | raw text => rfl
  | count es distinct =>
    have hes := marks_expressionList es
    unfold term Term.placeholders
    cases distinct <;> cases es.isEmpty <;> simp [Piece.marks_append, hes]
  | sum e =>
    simpa [term, Term.placeholders, Piece.marks_append] using marks_expression e
  | minimum e =>
    simpa [term, Term.placeholders, Piece.marks_append] using marks_expression e
  | maximum e =>
    simpa [term, Term.placeholders, Piece.marks_append] using marks_expression e
  | cast e target sqlType =>
    simpa [term, Term.placeholders, Piece.marks_append] using marks_expression e

theorem marks_expressionList (es : List Expression) :
    (expressionList ctx scopes es).flatMap Piece.marks =
      (Expression.placeholdersAll es).map Placeholder.mark := by
  cases es with
  | nil => rfl
  | cons e rest =>
    have he := marks_expression e
    have hrest := marks_expressionList rest
    unfold expressionList Expression.placeholdersAll
    rw [List.flatMap_cons, he, hrest, List.map_append]

end

/-- Any operand but a concrete null. -/
theorem marks_operand {value : Operand} (h : value.isNull = false) :
    Piece.marks (operand ctx scopes value) = value.placeholders.map Placeholder.mark := by
  cases value with
  | value v =>
    have hv : v.isNull = false := h
    simp [operand, Operand.placeholders, Placeholder.mark, hv]
  | named name => rfl
  | expression e => exact marks_expression ctx scopes e

/-- An item of a list, where a null is a word. -/
theorem marks_listItem (value : Operand) :
    Piece.marks (listItem ctx scopes value) = value.placeholders.map Placeholder.mark := by
  unfold listItem
  by_cases hnull : value.isNull = true
  · rw [if_pos hnull, Operand.placeholders_of_isNull hnull]
    rfl
  · rw [if_neg hnull]
    exact marks_operand ctx scopes (by simpa using hnull)

theorem marks_inItems (negated : Bool) (items : List Operand) :
    Piece.marks (inItems ctx scopes negated items) =
      (items.flatMap Operand.placeholders).map Placeholder.mark := by
  have hitems : (items.map (listItem ctx scopes)).flatMap Piece.marks =
      (items.flatMap Operand.placeholders).map Placeholder.mark := by
    rw [List.flatMap_map, List.map_flatMap]
    exact congrArg (items.flatMap ·) (funext (marks_listItem ctx scopes))
  unfold inItems inOpening
  rw [List.cons_append, marks_cons_text, Piece.marks_append, marks_separated, hitems]
  exact List.append_nil _

/-- A pattern other than a concrete null. -/
theorem marks_likePattern {pattern : Operand} (leading trailing : Bool)
    (h : pattern.isNull = false) :
    Piece.marks (likePattern ctx scopes leading trailing pattern) =
      (pattern.patternPlaceholders leading trailing).map Placeholder.mark := by
  cases pattern with
  | value v =>
    cases v with
    | string s => rfl
    | _ => exact marks_operand ctx scopes h
  | named name => exact marks_operand ctx scopes h
  | expression e => exact marks_operand ctx scopes h

/-- A comparison that a concrete null turns into a null check. -/
private theorem marks_unlessNull {value : Operand} {check ps : List Piece}
    (hcheck : Piece.marks check = [])
    (hps : value.isNull = false → Piece.marks ps = value.placeholders.map Placeholder.mark) :
    Piece.marks (if value.isNull then check else ps) =
      value.placeholders.map Placeholder.mark := by
  by_cases hnull : value.isNull = true
  · rw [if_pos hnull, hcheck, Operand.placeholders_of_isNull hnull, List.map_nil]
  · rw [if_neg hnull]
    exact hps (by simpa using hnull)

theorem marks_predicate (negated : Bool) (p : Predicate) :
    Piece.marks (predicate ctx scopes negated p) = p.marks := by
  cases p with
  | isNull => rfl
  | equals value => exact marks_unlessNull rfl (marks_operand ctx scopes)
  | greater value orEquals => exact marks_unlessNull rfl (marks_operand ctx scopes)
  | lower value orEquals => exact marks_unlessNull rfl (marks_operand ctx scopes)
  | between low high =>
    simp only [predicate, Predicate.marks, Predicate.placeholders]
    -- a missing bound contributes nothing, whatever the other one is compared with
    cases hlow : low.isNull <;> cases hhigh : high.isNull
    · have hl := marks_operand ctx scopes hlow
      have hh := marks_operand ctx scopes hhigh
      simp only [List.cons_append, marks_cons_text, Piece.marks_append, hl, hh, List.map_append]
    · rw [Operand.placeholders_of_isNull hhigh, List.append_nil]
      exact marks_operand ctx scopes hlow
    · rw [Operand.placeholders_of_isNull hlow, List.nil_append]
      exact marks_operand ctx scopes hhigh
    · rw [Operand.placeholders_of_isNull hlow, Operand.placeholders_of_isNull hhigh]
      rfl
  | isIn candidates =>
    cases candidates with
    | collection items =>
      cases items with
      | none => rfl
      | some items => exact marks_inItems ctx scopes negated items
    | listed items => exact marks_inItems ctx scopes negated items
    | named name => rfl
  | like pattern leading trailing =>
    simp only [predicate, Predicate.marks, Predicate.placeholders]
    by_cases hnull : pattern.isNull = true
    · rw [if_pos hnull, Operand.patternPlaceholders_of_isNull leading trailing hnull]
      rfl
    · rw [if_neg hnull]
      exact marks_likePattern ctx scopes leading trailing (by simpa using hnull)

theorem marks_operator (op : Operator) :
    Piece.marks (operator ctx scopes op) = op.marks :=
  marks_predicate ctx scopes op.negated op.predicate

/-! ## Criteria -/

theorem marks_condition (c : Condition) :
    Piece.marks (condition ctx scopes c) = c.marks := by
  cases c with
  | text text => rfl
  | operator op => exact marks_operator ctx scopes op

mutual

/-- A criterion that is only empty chains marks nothing. -/
theorem marks_of_not_hasConditions (k : Criterion) (h : k.hasConditions = false) :
    k.marks = [] := by
  cases k with
  | compare left c => simp [Criterion.hasConditions] at h
  | raw fragments => simp [Criterion.hasConditions] at h
  | nested chain => exact marksAll_of_not_anyConditions chain h

/-- A chain without conditions marks nothing. -/
theorem marksAll_of_not_anyConditions (chain : List Link)
    (h : Link.anyConditions chain = false) : Link.marksAll chain = [] := by
  cases chain with
  | nil => rfl
  | cons link rest =>
    cases link with
    | mk c k =>
      have hboth : k.hasConditions = false ∧ Link.anyConditions rest = false := by
        simpa [Link.anyConditions, Link.hasConditions] using h
      unfold Link.marksAll
      rw [marks_of_not_hasConditions k hboth.1,
        marksAll_of_not_anyConditions rest hboth.2]
      rfl

end

mutual

theorem marks_criterion (k : Criterion) :
    Piece.marks (criterion ctx scopes k) = k.marks := by
  cases k with
  | compare left c =>
    unfold criterion Criterion.marks
    rw [Piece.marks_append, marks_expression, marks_cons_text,
      marks_condition]
  | raw fragments => exact marks_fragmentList fragments
  | nested chain =>
    simpa [criterion, Criterion.marks, Piece.marks_append] using
      marks_links true chain

theorem marks_fragment (f : Fragment) :
    Piece.marks (fragment ctx scopes f) = f.marks := by
  cases f with
  | text text => rfl
  | expression e => exact marks_expression ctx scopes e
  | operator op => exact marks_operator ctx scopes op
  | value v => rfl
  | criteria chain =>
    simpa [fragment, Fragment.marks, Piece.marks_append] using
      marks_links true chain

theorem marks_fragmentList (fs : List Fragment) :
    Piece.marks (fragmentList ctx scopes fs) = Fragment.marksAll fs := by
  cases fs with
  | nil => rfl
  | cons f rest =>
    unfold fragmentList Fragment.marksAll
    rw [Piece.marks_append, marks_fragment f, marks_fragmentList rest]

theorem marks_links (first : Bool) (chain : List Link) :
    Piece.marks (links ctx scopes first chain) = Link.marksAll chain := by
  cases chain with
  | nil => rfl
  | cons link rest =>
    cases link with
    | mk c k =>
      unfold links Link.marksAll
      cases hk : k.hasConditions with
      | true =>
        have hcombinator : Piece.marks (if first then [] else combinator c) = [] := by
          cases first <;> rfl
        rw [if_pos rfl, Piece.marks_append, Piece.marks_append, hcombinator,
          marks_criterion k, marks_links false rest]
        rfl
      | false =>
        -- a link that is skipped has nothing to contribute
        rw [if_neg Bool.false_ne_true, marks_links first rest,
          marks_of_not_hasConditions k hk, List.nil_append]

end

end Expressions

/-! ## Clauses -/

section Clauses

variable {ctx : Context} {ofTable : TableId → List Mark} (scopes : Scopes)

theorem marks_projected (e : Expression) :
    Piece.marks (projected ctx scopes e) = e.placeholders.map Placeholder.mark := by
  unfold projected
  rw [Piece.marks_append, marks_expression]
  cases e.aliasName <;> exact List.append_nil _

theorem marks_select (q : Query) :
    Piece.marks (select ctx scopes q) =
      (Expression.placeholdersAll q.columns).map Placeholder.mark := by
  have hcolumns : (q.columns.map (projected ctx scopes)).flatMap Piece.marks =
      (q.columns.flatMap Expression.placeholders).map Placeholder.mark := by
    rw [List.flatMap_map, List.map_flatMap]
    exact congrArg (q.columns.flatMap ·) (funext (marks_projected scopes))
  unfold select
  rw [List.cons_append, marks_cons_text, Piece.marks_append, marks_separated,
    hcolumns, Expression.placeholdersAll_eq_flatMap]
  cases q.distinct <;> rfl

theorem marks_columnsEqual (left right : ColumnRef) :
    Piece.marks (columnsEqual ctx scopes left right) = [] := by
  simp [columnsEqual, Piece.marks_append]

theorem marks_columnsEqual_zip (left right : List ColumnRef) :
    (List.zipWith (columnsEqual ctx scopes) left right).flatMap Piece.marks = [] := by
  induction left generalizing right with
  | nil => rfl
  | cons l left ih =>
    cases right with
    | nil => rfl
    | cons r right =>
      rw [List.zipWith_cons_cons, List.flatMap_cons, marks_columnsEqual, ih, List.nil_append]

/-- A join has the marks of the table it adds. -/
theorem marks_join
    (htable : ∀ id, Piece.marks (tableReference ctx scopes id) = ofTable id)
    {j : Join} {id : TableId} (hj : j.rightTable? = some id) :
    Piece.marks (join ctx scopes j) = ofTable id := by
  cases j with
  | cross right =>
    obtain rfl : right = id := Option.some.inj hj
    exact htable right
  | raw direction right condition =>
    obtain rfl : right = id := Option.some.inj hj
    simp [join, Piece.marks_append, htable]
  | column direction left right =>
    obtain rfl : right.table = id := Option.some.inj hj
    simp [join, Piece.marks_append, marks_columnsEqual, htable]
  | key direction left right =>
    cases right with
    | nil => simp [Join.rightTable?] at hj
    | cons first rest =>
      obtain rfl : first.table = id := Option.some.inj hj
      simp [join, Piece.marks_append, marks_columnsEqual_zip, htable]

/-- Joins have the marks of the tables they add, in order. -/
theorem marks_joins
    (htable : ∀ id, Piece.marks (tableReference ctx scopes id) = ofTable id)
    (joins : List Join) :
    Piece.marks (joins.flatMap fun j =>
        match j.rightTable? with
        | some _ => .text " " :: join ctx scopes j
        | none => []) = (joins.filterMap Join.rightTable?).flatMap ofTable := by
  induction joins with
  | nil => rfl
  | cons j rest ih =>
    rw [List.flatMap_cons, Piece.marks_append, ih, List.filterMap_cons]
    cases hj : j.rightTable? with
    | none => rfl
    | some id =>
      rw [marks_cons_text, marks_join scopes htable hj]
      rfl

theorem marks_fromClause
    (htable : ∀ scopes id, Piece.marks (tableReference ctx scopes id) = ofTable id)
    (f : FromClause) :
    Piece.marks (fromClause ctx scopes f) = f.marks ofTable := by
  unfold fromClause FromClause.marks FromClause.tables
  cases f.root with
  | none => rfl
  | some root =>
    simp only [Option.isSome_some, if_true, Option.toList_some, List.singleton_append,
      List.flatMap_cons]
    rw [List.cons_append, marks_cons_text, Piece.marks_append, htable]
    exact congrArg (ofTable root ++ ·) (marks_joins _ (htable _) f.joins)

theorem marks_sortKey (k : SortKey) :
    Piece.marks (sortKey ctx scopes k) =
      k.expression.placeholders.map Placeholder.mark := by
  unfold sortKey
  rw [Piece.marks_append, marks_expression]
  cases k.order <;> exact List.append_nil _

theorem marks_limit (l : Limit) :
    Piece.marks (limit l) = l.placeholders.map Placeholder.mark := by
  unfold limit Limit.placeholders
  cases l.offset <;> rfl

/-- A clause that marks nothing may be left out. -/
private theorem marks_clauseWhen {present : Bool} {keyword : String} {ps : List Piece}
    (h : present = false → Piece.marks ps = []) :
    Piece.marks (clauseWhen present keyword ps) = Piece.marks ps := by
  cases present with
  | true => rfl
  | false => exact (h rfl).symm

/-- A chain of criteria, left out when it has no conditions. -/
theorem marks_criteriaClause (keyword : String) (cs : Criteria) :
    Piece.marks (clauseWhen cs.hasConditions keyword (criteria ctx scopes cs)) =
      Link.marksAll cs := by
  rw [marks_clauseWhen]
  · exact marks_links ctx scopes true cs
  · intro h
    exact (marks_links ctx scopes true cs).trans (marksAll_of_not_anyConditions cs h)

/-- The grouping expressions, left out when there are none. -/
theorem marks_groupsClause (keyword : String) (es : List Expression) :
    Piece.marks (clauseWhen (!es.isEmpty) keyword (expressions ctx scopes es)) =
      (Expression.placeholdersAll es).map Placeholder.mark := by
  have hes : Piece.marks (expressions ctx scopes es) =
      (Expression.placeholdersAll es).map Placeholder.mark := by
    unfold expressions
    rw [marks_separated, marks_expressionList]
  rw [marks_clauseWhen]
  · exact hes
  · intro h
    cases es with
    | nil => rfl
    | cons e rest => simp at h

/-- The sort keys, left out when there are none. -/
theorem marks_orderingClause (keyword : String) (keys : List SortKey) :
    Piece.marks (clauseWhen (!keys.isEmpty) keyword (ordering ctx scopes keys)) =
      (keys.flatMap (·.expression.placeholders)).map Placeholder.mark := by
  rw [marks_clauseWhen]
  · unfold ordering
    rw [marks_separated, List.flatMap_map, List.map_flatMap]
    exact congrArg (keys.flatMap ·) (funext (marks_sortKey scopes))
  · intro h
    cases keys with
    | nil => rfl
    | cons k rest => simp at h

variable (htable : ∀ scopes id, Piece.marks (tableReference ctx scopes id) = ofTable id)
include htable

theorem marks_query (q : Query) :
    Piece.marks (query ctx scopes q) = q.marks ofTable := by
  unfold query Query.marks
  simp only [Piece.marks_append]
  rw [marks_select, marks_fromClause _ htable, marks_criteriaClause,
    marks_groupsClause, marks_criteriaClause, marks_orderingClause]
  congr 1
  cases q.limit with
  | none => rfl
  | some l => simp [marks_limit]

theorem marks_statement (s : Statement) :
    Piece.marks (statement ctx scopes s) = s.marks ofTable := by
  cases s with
  | query q => exact marks_query scopes htable q
  | union u =>
    show Piece.marks (separated " union all " (u.queries.map (query ctx scopes))) = _
    rw [marks_separated, List.flatMap_map]
    exact congrArg (u.queries.flatMap ·) (funext (marks_query scopes htable))

end Clauses

/-! ## Derived tables -/

section Catalog

variable (catalog : Catalog) (escape : String → String)

/-- A table that stands for no statement marks nothing. -/
theorem tableMarks_eq_nil {id : TableId} (h : (catalog.table? id).bind (·.body) = none)
    (n : Nat) : catalog.tableMarks n id = [] := by
  induction n with
  | zero => rfl
  | succ n ih =>
    unfold Catalog.tableMarks
    by_cases hid : id = n
    · subst hid
      rw [if_pos rfl, h]
    · rw [if_neg hid]
      exact ih

/-- A table where it is referred to has the marks of its statement, when the statement is written
with them. -/
theorem marks_tableReference {ctx : Context} {n : Nat} (hcatalog : ctx.catalog = catalog)
    (hderived : ∀ id scopes, Piece.marks (ctx.derived id scopes) =
      catalog.tableMarks n id) (scopes : Scopes) (id : TableId) :
    Piece.marks (tableReference ctx scopes id) = catalog.tableMarks n id := by
  unfold tableReference
  rw [hcatalog]
  -- a missing table is a dangling piece, and its walk finds no statement either
  cases ht : catalog.table? id with
  | none =>
    rw [tableMarks_eq_nil catalog (by rw [ht]; rfl)]
    rfl
  | some t =>
    -- the alias that may follow is text either way
    cases hbody : t.isDerived with
    | true =>
      simp only [hbody, if_true, List.cons_append, marks_cons_text,
        Piece.marks_append, hderived]
      cases scopes.aliasOf id <;> simp
    | false =>
      have hnone : t.body = none := by simpa [Table.isDerived] using hbody
      rw [Piece.marks_append, hbody, if_neg Bool.false_ne_true, marks_qualifiedName,
        tableMarks_eq_nil catalog (by rw [ht]; exact hnone)]
      cases scopes.aliasOf id <;> simp

/-- The context for the tables below a position writes the statement of each of them with its
marks. -/
theorem marks_below_derived (n : Nat) (id : TableId) (scopes : Scopes) :
    Piece.marks ((Context.below catalog escape n).derived id scopes) =
      catalog.tableMarks n id := by
  induction n generalizing id scopes with
  | zero => rfl
  | succ n ih =>
    have hcatalog := Context.catalog_below catalog escape n
    unfold Context.below Catalog.tableMarks
    by_cases hid : id = n
    · simp only [if_pos hid]
      cases (catalog.table? n).bind (·.body) with
      | none => rfl
      | some body =>
        exact marks_statement scopes
          (marks_tableReference catalog hcatalog ih) body
    · simp only [if_neg hid]
      exact ih id scopes

/-- The pieces of a statement mark what the walk says. -/
theorem marks_ofCatalog (s : Statement) :
    Piece.marks (statement (.ofCatalog catalog escape) [] s) = catalog.marks s := by
  have hcatalog := Context.catalog_ofCatalog catalog escape
  exact marks_statement [] (marks_tableReference catalog hcatalog
    (marks_below_derived catalog escape catalog.size)) s

/-- The pieces of a statement leave places for the placeholders of the walk. -/
theorem placeholders_ofCatalog (s : Statement) :
    Piece.placeholders (statement (.ofCatalog catalog escape) [] s) = catalog.placeholders s := by
  rw [← Piece.map_marks, marks_ofCatalog, Catalog.map_marks]

end Catalog

end Render

end SqlGraph
