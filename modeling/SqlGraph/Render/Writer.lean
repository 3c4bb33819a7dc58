import SqlGraph.Render.Inline
import SqlGraph.Template.Draft

/-!
# Writing step by step

A writer fills a draft clause by clause. What a step has done to the draft stays: the steps after it
find its text, the numbers it has given out, and the scopes as it leaves them. A query opens the
scope of its from clause before its clauses and closes it behind them, and a column is named by the
scopes that are open when it is written.

A step that refers to a table or column that does not exist has no result.
-/

namespace SqlGraph

/-- A step changes the draft, unless it fails. -/
abbrev Writing := StateT Draft Option

namespace Writing

/-- The draft after a step. -/
def after (step : Writing Unit) (d : Draft) : Option Draft := (step.run d).map (·.2)

/-- Appends text. -/
def write (s : String) : Writing Unit := modify (·.write s)

/-- Opens a scope. -/
def openScope (scope : Scope) : Writing Unit := modify (·.openScope scope)

/-- Closes the innermost scope. -/
def closeScope : Writing Unit := modify Draft.closeScope

/-- A step between two texts. -/
def surrounded (opening closing : String) (step : Writing Unit) : Writing Unit := do
  write opening
  step
  write closing

/-- Steps with a text between them. -/
def separated (separator : String) : List (Writing Unit) → Writing Unit
  | [] => pure ()
  | [step] => step
  | step :: next :: rest => do
    step
    write separator
    separated separator (next :: rest)

/-- A step that is taken only under a condition. -/
def onlyWhen (present : Bool) (step : Writing Unit) : Writing Unit :=
  if present then step else pure ()

/-- A step behind a text, only when there is something to say. -/
def clauseWhen (present : Bool) (keyword : String) (step : Writing Unit) : Writing Unit :=
  onlyWhen present do
    write keyword
    step

mutual

/-- Writes a value out. -/
def literal : Json → Writing Unit
  | .null => write "null"
  | .bool true => write "true"
  | .bool false => write "false"
  | .number n => write n.text
  | .string s => write (Text.quote s)
  | .array items => separated ", " (literals items)
  | .object members => write (Text.quote (Json.object members).text)

/-- Writes each value of a list out. -/
def literals : List Json → List (Writing Unit)
  | [] => []
  | v :: rest => literal v :: literals rest

end

end Writing

/-- How values and names are written. -/
inductive PlaceForm where
  /-- as places of the template -/
  | place
  /-- values written out, names after a colon -/
  | inline

/-- A writer knows the tables, how names are escaped, how values and names are written, and how the
statement of a derived table is written. -/
structure Writer where
  catalog : Catalog
  escape : String → String
  form : PlaceForm
  derived : TableId → Writing Unit

namespace Writer

open Writing

/-! ## Values and names -/

section Names

variable (w : Writer)

/-- A value. -/
def value (v : Json) : Writing Unit :=
  match w.form with
  | .place => modify (·.pushValue v)
  | .inline => literal v

/-- A placeholder bound later. -/
def named (n : String) (expandable : Bool) : Writing Unit :=
  match w.form with
  | .place => modify (·.pushNamed n expandable)
  | .inline => do
    write ":"
    write n

/-- A name, escaped. -/
def name (s : String) : Writing Unit := write (w.escape s)

/-- The name of a table with its schema in front. -/
def qualifiedName (t : Table) : Writing Unit := do
  t.schema.forM fun schema => do
    w.name schema
    write "."
  t.name.forM w.name

/-- The table part of a column reference. -/
def tableName (id : TableId) : Writing Unit :=
  match w.catalog.table? id with
  | none => failure
  | some t => do
    match (← get).aliasOf id with
    | some aliasName => w.name aliasName
    | none => if t.isDerived then w.name (t.nameAt id) else w.qualifiedName t

/-- A column with its table in front. -/
def column (ref : ColumnRef) : Writing Unit := do
  w.tableName ref.table
  write "."
  match w.catalog.column? ref with
  | some c => w.name c.name
  | none => failure

/-- What stands for a table where it is introduced: its statement or its name. -/
def introduced (id : TableId) (t : Table) : Writing Unit :=
  if t.isDerived then surrounded "(" ")" (w.derived id) else w.qualifiedName t

/-- The name that a table is introduced by. -/
def introducedBy (s : String) : Writing Unit := do
  write " as "
  w.name s

/-- A table where a from clause introduces it. Its alias is looked up after its statement has been
written. -/
def tableReference (id : TableId) : Writing Unit :=
  match w.catalog.table? id with
  | none => failure
  | some t => do
    w.introduced id t
    match (← get).aliasOf id, t.isDerived with
    | some aliasName, _ => w.introducedBy aliasName
    | none, true => w.introducedBy (t.nameAt id)
    | none, false => pure ()

end Names

/-! ## Expressions -/

mutual

/-- An expression, without its alias. -/
def expression (w : Writer) : Expression → Writing Unit
  | .mk t _ => term w t

/-- A term. -/
def term (w : Writer) : Term → Writing Unit
  | .column ref => w.column ref
  | .value v => w.value v
  | .raw text => write text
  | .count es distinct => do
    write "count("
    onlyWhen distinct (write "distinct ")
    onlyWhen es.isEmpty (write "*")
    separated ", " (expressionList w es)
    write ")"
  | .sum e => surrounded "sum(" ")" (expression w e)
  | .minimum e => surrounded "min(" ")" (expression w e)
  | .maximum e => surrounded "max(" ")" (expression w e)
  | .cast e target sqlType => do
    write "cast("
    expression w e
    write " as "
    write (sqlType.getD target.sqlName)
    write ")"

/-- Each expression of a list on its own. -/
def expressionList (w : Writer) : List Expression → List (Writing Unit)
  | [] => []
  | e :: rest => expression w e :: expressionList w rest

end

/-- Expressions with commas between them. -/
def expressions (w : Writer) (es : List Expression) : Writing Unit :=
  separated ", " (w.expressionList es)

/-! ## Operators -/

section Operators

variable (w : Writer)

/-- An operand. -/
def operand : Operand → Writing Unit
  | .value v => w.value v
  | .named n => w.named n false
  | .expression e => w.expression e

/-- A null check. -/
def nullCheck (negated : Bool) : Writing Unit :=
  write (if negated then "is not null" else "is null")

/-- A comparison with an operand. -/
def comparison (greater orEquals negated : Bool) (value : Operand) : Writing Unit := do
  write (Render.comparisonSymbol greater orEquals negated)
  w.operand value

/-- An item of an `in` list. -/
def listItem (value : Operand) : Writing Unit :=
  if value.isNull then write "null" else w.operand value

/-- The opening of an `in` list. -/
def inOpening (negated : Bool) : Writing Unit := write (if negated then "not in (" else "in (")

/-- An `in` list of given items. -/
def inItems (negated : Bool) (items : List Operand) : Writing Unit := do
  inOpening negated
  separated ", " (items.map w.listItem)
  write ")"

/-- The pattern of a `like`. -/
def likePattern (leading trailing : Bool) : Operand → Writing Unit
  | .value (.string pattern) => w.value (.string (Render.withWildcards leading trailing pattern))
  | other => w.operand other

/-- A predicate, possibly negated. -/
def predicate (negated : Bool) : Predicate → Writing Unit
  | .isNull => nullCheck negated
  | .equals value =>
    if value.isNull then nullCheck negated
    else do
      write (if negated then "<> " else "= ")
      w.operand value
  | .greater value orEquals =>
    if value.isNull then nullCheck negated else w.comparison true orEquals negated value
  | .lower value orEquals =>
    if value.isNull then nullCheck negated else w.comparison false orEquals negated value
  | .between lower upper =>
    match lower.isNull, upper.isNull with
    | true, true => nullCheck negated
    | false, true => w.comparison true false negated lower
    | true, false => w.comparison false false negated upper
    | false, false => do
      write (if negated then "not between " else "between ")
      w.operand lower
      write " and "
      w.operand upper
  | .isIn (.collection none) => nullCheck negated
  | .isIn (.collection (some items)) => w.inItems negated items
  | .isIn (.listed items) => w.inItems negated items
  | .isIn (.named n) => do
    inOpening negated
    w.named n true
    write ")"
  | .like pattern leading trailing =>
    if pattern.isNull then nullCheck negated
    else do
      write (if negated then "not like " else "like ")
      w.likePattern leading trailing pattern

/-- The right side of a criterion. -/
def operator (op : Operator) : Writing Unit := w.predicate op.negated op.predicate

/-- What is checked against a left side. -/
def condition : Condition → Writing Unit
  | .text text => write text
  | .operator op => w.operator op

end Operators

/-! ## Criteria -/

/-- A combinator between two criteria. -/
def combinator (c : Option Combinator) : Writing Unit := do
  write " "
  write (c.getD .and).keyword
  write " "

mutual

/-- A criterion, without its combinator. -/
def criterion (w : Writer) : Criterion → Writing Unit
  | .compare left c => do
    w.expression left
    write " "
    w.condition c
  | .raw fragments => fragmentList w fragments
  | .nested chain => surrounded "(" ")" (links w true chain)

/-- A fragment. -/
def fragment (w : Writer) : Fragment → Writing Unit
  | .text text => write text
  | .expression e => w.expression e
  | .operator op => w.operator op
  | .value v => w.value v
  | .criteria chain => surrounded "(" ")" (links w true chain)

/-- Fragments one after the other. -/
def fragmentList (w : Writer) : List Fragment → Writing Unit
  | [] => pure ()
  | f :: rest => do
    fragment w f
    fragmentList w rest

/-- The links that have conditions, each but the first behind its combinator. -/
def links (w : Writer) (first : Bool) : List Link → Writing Unit
  | [] => pure ()
  | .mk c k :: rest =>
    if k.hasConditions then do
      onlyWhen (!first) (combinator c)
      criterion w k
      links w false rest
    else
      links w first rest

end

/-- A chain of criteria. -/
def criteria (w : Writer) (cs : Criteria) : Writing Unit := w.links true cs

/-! ## Clauses -/

section Clauses

variable (w : Writer)

/-- A projected expression with its alias. -/
def projected (e : Expression) : Writing Unit := do
  w.expression e
  e.aliasName.forM w.introducedBy

/-- The select clause. -/
def select (q : Query) : Writing Unit := do
  write "select "
  onlyWhen q.distinct (write "distinct ")
  separated ", " (q.columns.map w.projected)

/-- An equality of two columns. -/
def columnsEqual (left right : ColumnRef) : Writing Unit := do
  w.column left
  write " = "
  w.column right

/-- A join. -/
def join : Join → Writing Unit
  | .cross right => do
    write "cross join "
    w.tableReference right
  | .raw direction right condition => do
    write direction.keyword
    write " "
    w.tableReference right
    write " on "
    write condition
  | .column direction left right => do
    write direction.keyword
    write " "
    w.tableReference right.table
    write " on "
    w.columnsEqual left right
  | .key direction left right =>
    match right with
    | [] => pure ()
    | first :: _ => do
      write direction.keyword
      write " "
      w.tableReference first.table
      write " on "
      separated " and " (List.zipWith w.columnsEqual left right)

/-- The joins that add a table, each behind a space. -/
def joins : List Join → Writing Unit
  | [] => pure ()
  | j :: rest => do
    clauseWhen j.rightTable?.isSome " " (w.join j)
    joins rest

/-- The from clause, its own scope open once more; nothing is opened without a root. -/
def fromClause (f : FromClause) : Writing Unit :=
  match f.root with
  | none => pure ()
  | some root => do
    openScope f.scope
    write " from "
    w.tableReference root
    w.joins f.joins
    closeScope

/-- A sort key with its direction. -/
def sortKey (k : SortKey) : Writing Unit := do
  w.expression k.expression
  k.order.forM fun order => do
    write " "
    write order.keyword

/-- The sort keys of an order by clause. -/
def ordering (keys : List SortKey) : Writing Unit := separated ", " (keys.map w.sortKey)

/-- The limit clause. -/
def limit (l : Limit) : Writing Unit := do
  write " limit "
  w.value (.ofNat l.count)
  l.offset.forM fun offset => do
    write " offset "
    w.value (.ofNat offset)

/-- A query, its own scope open from its first clause to its last. -/
def query (q : Query) : Writing Unit := do
  openScope q.source.scope
  w.select q
  w.fromClause q.source
  clauseWhen q.filter.hasConditions " where " (w.criteria q.filter)
  clauseWhen (!q.groups.isEmpty) " group by " (w.expressions q.groups)
  clauseWhen q.having.hasConditions " having " (w.criteria q.having)
  clauseWhen (!q.ordering.isEmpty) " order by " (w.ordering q.ordering)
  q.limit.forM w.limit
  closeScope

/-- The members of a union. -/
def union (u : Union) : Writing Unit := separated " union all " (u.queries.map w.query)

/-- A statement. -/
def statement : Statement → Writing Unit
  | .query q => w.query q
  | .union u => w.union u

end Clauses

/-! ## Writers for a catalog -/

/-- The writer that can write the statements of the tables below a position. -/
def below (catalog : Catalog) (escape : String → String) (form : PlaceForm) : Nat → Writer
  | 0 => { catalog, escape, form, derived := fun _ => failure }
  | n + 1 =>
    let inner := below catalog escape form n
    { catalog, escape, form
      derived := fun id =>
        if id = n then
          match (catalog.table? n).bind (·.body) with
          | some body => inner.statement body
          | none => pure ()
        else inner.derived id }

/-- The writer of a catalog: it can write the statements of all its tables. -/
def ofCatalog (catalog : Catalog) (escape : String → String) (form : PlaceForm) : Writer :=
  below catalog escape form catalog.size

end Writer

end SqlGraph
