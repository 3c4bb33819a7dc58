import SqlGraph.Catalog.Basic
import SqlGraph.Render.Piece

/-!
# Writing the clauses of a statement

Each clause is written as a list of pieces, under a stack of scopes that says how tables are
named. A query opens the scope of its from clause for all its clauses, and the from clause opens
it once more for its own joins; as scopes are passed down, nothing a nested statement opens is
seen outside it.

A derived table is written where a from clause refers to it, as its statement between
parentheses. How that is done is a part of the context (`Context.derived`), so that every
function here recurses on the syntax alone.
-/

namespace SqlGraph
namespace Render

/-- What writing needs to know: the tables, how names are escaped, and how the statement of a
derived table is written. -/
structure Context where
  catalog : Catalog
  escape : String → String
  derived : TableId → Scopes → List Piece

/-- Lists of pieces with a separator between them. -/
def separated (separator : String) (items : List (List Piece)) : List Piece :=
  [Piece.text separator].intercalate items

theorem separated_singleton (separator : String) (ps : List Piece) :
    separated separator [ps] = ps := List.append_nil ps

/-- The separator stands behind every list but the last. -/
theorem separated_cons_cons (separator : String) (ps qs : List Piece) (rest : List (List Piece)) :
    separated separator (ps :: qs :: rest) =
      ps ++ .text separator :: separated separator (qs :: rest) := rfl

/-! ## Names -/

section Names

variable (ctx : Context) (scopes : Scopes)

/-- A name, escaped. -/
def name (s : String) : List Piece := [.text (ctx.escape s)]

/-- The name of a table with its schema in front. -/
def qualifiedName (t : Table) : List Piece :=
  (match t.schema with
    | some schema => name ctx schema ++ [.text "."]
    | none => []) ++
  (match t.name with
    | some n => name ctx n
    | none => [])

/-- The table part of a column reference: the alias, or the name the table has on its own. -/
def tableName (id : TableId) : List Piece :=
  match ctx.catalog.table? id with
  | none => [.dangling]
  | some t =>
    match scopes.aliasOf id with
    | some aliasName => name ctx aliasName
    | none => if t.isDerived then name ctx (t.nameAt id) else qualifiedName ctx t

/-- A column with its table in front. -/
def column (ref : ColumnRef) : List Piece :=
  tableName ctx scopes ref.table ++ .text "." ::
    (match ctx.catalog.column? ref with
      | some c => name ctx c.name
      | none => [.dangling])

/-- A table where a from clause introduces it: its name or its statement, and its alias. A
derived table always gets one. -/
def tableReference (id : TableId) : List Piece :=
  match ctx.catalog.table? id with
  | none => [.dangling]
  | some t =>
    (if t.isDerived then .text "(" :: ctx.derived id scopes ++ [.text ")"]
      else qualifiedName ctx t) ++
    (match scopes.aliasOf id, t.isDerived with
      | some aliasName, _ => .text " as " :: name ctx aliasName
      | none, true => .text " as " :: name ctx (t.nameAt id)
      | none, false => [])

end Names

/-! ## Expressions -/

mutual

/-- An expression, without its alias. -/
def expression (ctx : Context) (scopes : Scopes) : Expression → List Piece
  | .mk t _ => term ctx scopes t

/-- A term. -/
def term (ctx : Context) (scopes : Scopes) : Term → List Piece
  | .column ref => column ctx scopes ref
  | .value v => [.value v]
  | .raw text => [.text text]
  | .count es distinct =>
    .text "count(" :: (if distinct then [.text "distinct "] else []) ++
      (if es.isEmpty then [.text "*"] else []) ++
      separated ", " (expressionList ctx scopes es) ++ [.text ")"]
  | .sum e => .text "sum(" :: expression ctx scopes e ++ [.text ")"]
  | .minimum e => .text "min(" :: expression ctx scopes e ++ [.text ")"]
  | .maximum e => .text "max(" :: expression ctx scopes e ++ [.text ")"]
  | .cast e target sqlType =>
    .text "cast(" :: expression ctx scopes e ++
      [.text " as ", .text (sqlType.getD target.sqlName), .text ")"]

/-- Each expression of a list on its own. -/
def expressionList (ctx : Context) (scopes : Scopes) : List Expression → List (List Piece)
  | [] => []
  | e :: rest => expression ctx scopes e :: expressionList ctx scopes rest

end

/-- Expressions with commas between them. -/
def expressions (ctx : Context) (scopes : Scopes) (es : List Expression) : List Piece :=
  separated ", " (expressionList ctx scopes es)

/-! ## Operators -/

section Operators

variable (ctx : Context) (scopes : Scopes)

/-- An operand. -/
def operand : Operand → List Piece
  | .value v => [.value v]
  | .named n => [.named n false]
  | .expression e => expression ctx scopes e

/-- A null check. -/
def nullCheck (negated : Bool) : List Piece :=
  [.text (if negated then "is not null" else "is null")]

/-- The symbol of a comparison; negation picks the complement. -/
def comparisonSymbol (greater orEquals negated : Bool) : String :=
  match greater != negated, orEquals != negated with
  | true, false => "> "
  | true, true => ">= "
  | false, false => "< "
  | false, true => "<= "

/-- A comparison with an operand. -/
def comparison (greater orEquals negated : Bool) (value : Operand) : List Piece :=
  .text (comparisonSymbol greater orEquals negated) :: operand ctx scopes value

/-- An item of an `in` list: a concrete null is a word, not a parameter. -/
def listItem (value : Operand) : List Piece :=
  if value.isNull then [.text "null"] else operand ctx scopes value

/-- The opening of an `in` list. -/
def inOpening (negated : Bool) : Piece := .text (if negated then "not in (" else "in (")

/-- An `in` list of given items. -/
def inItems (negated : Bool) (items : List Operand) : List Piece :=
  inOpening negated :: separated ", " (items.map (listItem ctx scopes)) ++ [.text ")"]

/-- A pattern with wildcards on the flagged sides. -/
def withWildcards (leading trailing : Bool) (pattern : String) : String :=
  (if leading then "%" else "") ++ pattern ++ (if trailing then "%" else "")

/-- The pattern of a `like`; only a concrete string gets wildcards. -/
def likePattern (leading trailing : Bool) : Operand → List Piece
  | .value (.string pattern) => [.value (.string (withWildcards leading trailing pattern))]
  | other => operand ctx scopes other

/-- A predicate, possibly negated. A concrete null turns a comparison into a null check, and a
missing bound turns `between` into a strict comparison with the other. -/
def predicate (negated : Bool) : Predicate → List Piece
  | .isNull => nullCheck negated
  | .equals value =>
    if value.isNull then nullCheck negated
    else .text (if negated then "<> " else "= ") :: operand ctx scopes value
  | .greater value orEquals =>
    if value.isNull then nullCheck negated
    else comparison ctx scopes true orEquals negated value
  | .lower value orEquals =>
    if value.isNull then nullCheck negated
    else comparison ctx scopes false orEquals negated value
  | .between lower upper =>
    match lower.isNull, upper.isNull with
    | true, true => nullCheck negated
    | false, true => comparison ctx scopes true false negated lower
    | true, false => comparison ctx scopes false false negated upper
    | false, false =>
      .text (if negated then "not between " else "between ") :: operand ctx scopes lower ++
        .text " and " :: operand ctx scopes upper
  | .isIn (.collection none) => nullCheck negated
  | .isIn (.collection (some items)) => inItems ctx scopes negated items
  | .isIn (.listed items) => inItems ctx scopes negated items
  | .isIn (.named n) => [inOpening negated, .named n true, .text ")"]
  | .like pattern leading trailing =>
    if pattern.isNull then nullCheck negated
    else
      .text (if negated then "not like " else "like ") ::
        likePattern ctx scopes leading trailing pattern

/-- The right side of a criterion. -/
def operator (op : Operator) : List Piece := predicate ctx scopes op.negated op.predicate

end Operators

/-! ## Criteria -/

/-- What is checked against a left side. -/
def condition (ctx : Context) (scopes : Scopes) : Condition → List Piece
  | .text text => [.text text]
  | .operator op => operator ctx scopes op

/-- A combinator between two criteria, `and` when none is given. -/
def combinator (c : Option Combinator) : List Piece :=
  [.text " ", .text (c.getD .and).keyword, .text " "]

mutual

/-- A criterion, without its combinator. -/
def criterion (ctx : Context) (scopes : Scopes) : Criterion → List Piece
  | .compare left c => expression ctx scopes left ++ .text " " :: condition ctx scopes c
  | .raw fragments => fragmentList ctx scopes fragments
  | .nested chain => .text "(" :: links ctx scopes true chain ++ [.text ")"]

/-- A fragment; a chain stands between parentheses even when it is empty. -/
def fragment (ctx : Context) (scopes : Scopes) : Fragment → List Piece
  | .text text => [.text text]
  | .expression e => expression ctx scopes e
  | .operator op => operator ctx scopes op
  | .value v => [.value v]
  | .criteria chain => .text "(" :: links ctx scopes true chain ++ [.text ")"]

/-- Fragments one after the other. -/
def fragmentList (ctx : Context) (scopes : Scopes) : List Fragment → List Piece
  | [] => []
  | f :: rest => fragment ctx scopes f ++ fragmentList ctx scopes rest

/-- The links that have conditions; every one but the first is preceded by its combinator. -/
def links (ctx : Context) (scopes : Scopes) (first : Bool) : List Link → List Piece
  | [] => []
  | .mk c k :: rest =>
    if k.hasConditions then
      (if first then [] else combinator c) ++ criterion ctx scopes k ++ links ctx scopes false rest
    else links ctx scopes first rest

end

/-- A chain of criteria. -/
def criteria (ctx : Context) (scopes : Scopes) (cs : Criteria) : List Piece :=
  links ctx scopes true cs

/-! ## Clauses -/

section Clauses

variable (ctx : Context) (scopes : Scopes)

/-- A projected expression with its alias. -/
def projected (e : Expression) : List Piece :=
  expression ctx scopes e ++
    (match e.aliasName with
      | some aliasName => .text " as " :: name ctx aliasName
      | none => [])

/-- The select clause. -/
def select (q : Query) : List Piece :=
  .text "select " :: (if q.distinct then [.text "distinct "] else []) ++
    separated ", " (q.columns.map (projected ctx scopes))

/-- An equality of two columns. -/
def columnsEqual (left right : ColumnRef) : List Piece :=
  column ctx scopes left ++ .text " = " :: column ctx scopes right

/-- A join. A key join without right columns has no table and writes nothing; columns without a
partner are left out. -/
def join : Join → List Piece
  | .cross right => .text "cross join " :: tableReference ctx scopes right
  | .raw direction right condition =>
    .text direction.keyword :: .text " " :: tableReference ctx scopes right ++
      [.text " on ", .text condition]
  | .column direction left right =>
    .text direction.keyword :: .text " " :: tableReference ctx scopes right.table ++
      .text " on " :: columnsEqual ctx scopes left right
  | .key direction left right =>
    match right with
    | [] => []
    | first :: _ =>
      .text direction.keyword :: .text " " :: tableReference ctx scopes first.table ++
        .text " on " :: separated " and " (List.zipWith (columnsEqual ctx scopes) left right)

/-- The from clause with a space in front, nothing without a root table. -/
def fromClause (f : FromClause) : List Piece :=
  match f.root with
  | none => []
  | some root =>
    let inner := f.scope :: scopes
    .text " from " :: tableReference ctx inner root ++
      f.joins.flatMap fun j =>
        match j.rightTable? with
        | some _ => .text " " :: join ctx inner j
        | none => []

/-- A sort key with its direction. -/
def sortKey (k : SortKey) : List Piece :=
  expression ctx scopes k.expression ++
    (match k.order with
      | some order => [.text " ", .text order.keyword]
      | none => [])

/-- The sort keys of an order by clause. -/
def ordering (keys : List SortKey) : List Piece :=
  separated ", " (keys.map (sortKey ctx scopes))

/-- The limit clause, its numbers given as values. -/
def limit (l : Limit) : List Piece :=
  .text " limit " :: .value (.ofNat l.count) ::
    (match l.offset with
      | some offset => [.text " offset ", .value (.ofNat offset)]
      | none => [])

/-- A clause that is written only when it has something to say. -/
def clauseWhen (present : Bool) (keyword : String) (pieces : List Piece) : List Piece :=
  if present then .text keyword :: pieces else []

/-- A query, its own tables in scope for all its clauses. -/
def query (q : Query) : List Piece :=
  let inner := q.source.scope :: scopes
  select ctx inner q ++ fromClause ctx inner q.source ++
    clauseWhen q.filter.hasConditions " where " (criteria ctx inner q.filter) ++
    clauseWhen (!q.groups.isEmpty) " group by " (expressions ctx inner q.groups) ++
    clauseWhen q.having.hasConditions " having " (criteria ctx inner q.having) ++
    clauseWhen (!q.ordering.isEmpty) " order by " (ordering ctx inner q.ordering) ++
    (match q.limit with
      | some l => limit l
      | none => [])

/-- The members of a union. -/
def union (u : Union) : List Piece :=
  separated " union all " (u.queries.map (query ctx scopes))

/-- A statement. -/
def statement : Statement → List Piece
  | .query q => query ctx scopes q
  | .union u => union ctx scopes u

end Clauses

end Render
end SqlGraph
