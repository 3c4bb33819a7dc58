import SqlGraph.Proofs.Render.Scopes
import SqlGraph.Render.Clause

/-!
# Outlines

What a query writes, with the places left open where it names a table: in front of a column
(`Slot.reference`), and where its from clause introduces the table (`Slot.introduction`). An outline
does not depend on scopes. Filling its places as a stack of scopes names tables gives what is
written under these scopes: there is one lemma for each form of the syntax, up to
`Outline.fill_query`.
-/

namespace SqlGraph

/-- A part of an outline. -/
inductive Slot where
  /-- a piece that does not depend on how tables are named -/
  | piece (p : Piece)
  /-- the name of a table in front of one of its columns -/
  | reference (table : TableId)
  /-- a table where a from clause introduces it -/
  | introduction (table : TableId)

namespace Outline

/-! ## Filling -/

/-- What a part stands for, when the open places are filled in two ways. -/
def fillSlot (named introduced : TableId → List Piece) : Slot → List Piece
  | .piece p => [p]
  | .reference table => named table
  | .introduction table => introduced table

/-- The pieces of an outline whose open places are filled. -/
def fill (named introduced : TableId → List Piece) (slots : List Slot) : List Piece :=
  slots.flatMap (fillSlot named introduced)

/-- The tables introduced, in order. -/
def introductions (slots : List Slot) : List TableId :=
  slots.filterMap fun
    | .introduction table => some table
    | _ => none

/-- Pieces without open places. -/
def pieces (ps : List Piece) : List Slot := ps.map .piece

/-- A text. -/
def text (s : String) : Slot := .piece (.text s)

/-- Outlines with a separator between them. -/
def separated (separator : String) (items : List (List Slot)) : List Slot :=
  [text separator].intercalate items

/-! ## Outlines of the forms of the syntax -/

section Columns

variable (ctx : Render.Context)

/-- A column with its table in front. -/
def column (ref : ColumnRef) : List Slot :=
  .reference ref.table :: text "." ::
    pieces (match ctx.catalog.column? ref with
      | some c => Render.name ctx c.name
      | none => [.dangling])

mutual

/-- An expression, without its alias. -/
def expression : Expression → List Slot
  | .mk t _ => term t

/-- A term. -/
def term : Term → List Slot
  | .column ref => column ctx ref
  | .value v => [.piece (.value v)]
  | .raw s => [text s]
  | .count es distinct =>
    text "count(" :: (if distinct then [text "distinct "] else []) ++
      (if es.isEmpty then [text "*"] else []) ++ separated ", " (expressionList es) ++ [text ")"]
  | .sum e => text "sum(" :: expression e ++ [text ")"]
  | .minimum e => text "min(" :: expression e ++ [text ")"]
  | .maximum e => text "max(" :: expression e ++ [text ")"]
  | .cast e target sqlType =>
    text "cast(" :: expression e ++ [text " as ", text (sqlType.getD target.sqlName), text ")"]

/-- Each expression of a list on its own. -/
def expressionList : List Expression → List (List Slot)
  | [] => []
  | e :: rest => expression e :: expressionList rest

end

/-- Expressions with commas between them. -/
def expressions (es : List Expression) : List Slot := separated ", " (expressionList ctx es)

/-- An operand. -/
def operand : Operand → List Slot
  | .expression e => expression ctx e
  | .value v => [.piece (.value v)]
  | .named n => [.piece (.named n false)]

/-- A comparison with an operand. -/
def comparison (greater orEquals negated : Bool) (value : Operand) : List Slot :=
  text (Render.comparisonSymbol greater orEquals negated) :: operand ctx value

/-- An item of an `in` list. -/
def listItem (value : Operand) : List Slot :=
  if value.isNull then [text "null"] else operand ctx value

/-- An `in` list of given items. -/
def inItems (negated : Bool) (items : List Operand) : List Slot :=
  .piece (Render.inOpening negated) :: separated ", " (items.map (listItem ctx)) ++ [text ")"]

/-- The pattern of a `like`. -/
def likePattern (leading trailing : Bool) : Operand → List Slot
  | .value (.string pattern) =>
    [.piece (.value (.string (Render.withWildcards leading trailing pattern)))]
  | other => operand ctx other

/-- A predicate, possibly negated. -/
def predicate (negated : Bool) : Predicate → List Slot
  | .isNull => pieces (Render.nullCheck negated)
  | .equals value =>
    if value.isNull then pieces (Render.nullCheck negated)
    else text (if negated then "<> " else "= ") :: operand ctx value
  | .greater value orEquals =>
    if value.isNull then pieces (Render.nullCheck negated)
    else comparison ctx true orEquals negated value
  | .lower value orEquals =>
    if value.isNull then pieces (Render.nullCheck negated)
    else comparison ctx false orEquals negated value
  | .between lower upper =>
    match lower.isNull, upper.isNull with
    | true, true => pieces (Render.nullCheck negated)
    | false, true => comparison ctx true false negated lower
    | true, false => comparison ctx false false negated upper
    | false, false =>
      text (if negated then "not between " else "between ") :: operand ctx lower ++
        text " and " :: operand ctx upper
  | .isIn (.collection none) => pieces (Render.nullCheck negated)
  | .isIn (.collection (some items)) => inItems ctx negated items
  | .isIn (.listed items) => inItems ctx negated items
  | .isIn (.named n) => [.piece (Render.inOpening negated), .piece (.named n true), text ")"]
  | .like pattern leading trailing =>
    if pattern.isNull then pieces (Render.nullCheck negated)
    else
      text (if negated then "not like " else "like ") :: likePattern ctx leading trailing pattern

/-- What is checked against a left side. -/
def condition : Condition → List Slot
  | .text s => [text s]
  | .operator op => predicate ctx op.negated op.predicate

mutual

/-- A criterion, without its combinator. -/
def criterion : Criterion → List Slot
  | .compare left c => expression ctx left ++ text " " :: condition ctx c
  | .raw fragments => fragmentList fragments
  | .nested chain => text "(" :: links true chain ++ [text ")"]

/-- A fragment. -/
def fragment : Fragment → List Slot
  | .text s => [text s]
  | .expression e => expression ctx e
  | .operator op => predicate ctx op.negated op.predicate
  | .value v => [.piece (.value v)]
  | .criteria chain => text "(" :: links true chain ++ [text ")"]

/-- Fragments one after the other. -/
def fragmentList : List Fragment → List Slot
  | [] => []
  | f :: rest => fragment f ++ fragmentList rest

/-- The links that have conditions, each but the first behind its combinator. -/
def links (first : Bool) : List Link → List Slot
  | [] => []
  | .mk c k :: rest =>
    if k.hasConditions then
      (if first then [] else pieces (Render.combinator c)) ++ criterion k ++ links false rest
    else links first rest

end

/-- A projected expression with its alias. -/
def projected (e : Expression) : List Slot :=
  expression ctx e ++
    pieces (match e.aliasName with
      | some aliasName => .text " as " :: Render.name ctx aliasName
      | none => [])

/-- The select clause. -/
def select (q : Query) : List Slot :=
  text "select " :: (if q.distinct then [text "distinct "] else []) ++
    separated ", " (q.columns.map (projected ctx))

/-- An equality of two columns. -/
def columnsEqual (left right : ColumnRef) : List Slot :=
  column ctx left ++ text " = " :: column ctx right

/-- A join, its table introduced. -/
def join : Join → List Slot
  | .cross right => [text "cross join ", .introduction right]
  | .raw direction right condition =>
    [text direction.keyword, text " ", .introduction right, text " on ", text condition]
  | .column direction left right =>
    text direction.keyword :: text " " :: .introduction right.table :: text " on " ::
      columnsEqual ctx left right
  | .key direction left right =>
    match right with
    | [] => []
    | first :: _ =>
      text direction.keyword :: text " " :: .introduction first.table :: text " on " ::
        separated " and " (List.zipWith (columnsEqual ctx) left right)

/-- The from clause, its tables introduced. -/
def fromClause (f : FromClause) : List Slot :=
  match f.root with
  | none => []
  | some root =>
    text " from " :: .introduction root ::
      f.joins.flatMap fun j =>
        match j.rightTable? with
        | some _ => text " " :: join ctx j
        | none => []

/-- A sort key with its direction. -/
def sortKey (k : SortKey) : List Slot :=
  expression ctx k.expression ++
    pieces (match k.order with
      | some order => [.text " ", .text order.keyword]
      | none => [])

/-- The sort keys of an order by clause. -/
def ordering (keys : List SortKey) : List Slot := separated ", " (keys.map (sortKey ctx))

/-- A clause that is written only when it has something to say. -/
def clauseWhen (present : Bool) (keyword : String) (slots : List Slot) : List Slot :=
  if present then text keyword :: slots else []

/-- A query. -/
def query (q : Query) : List Slot :=
  select ctx q ++ fromClause ctx q.source ++
    clauseWhen q.filter.hasConditions " where " (links ctx true q.filter) ++
    clauseWhen (!q.groups.isEmpty) " group by " (expressions ctx q.groups) ++
    clauseWhen q.having.hasConditions " having " (links ctx true q.having) ++
    clauseWhen (!q.ordering.isEmpty) " order by " (ordering ctx q.ordering) ++
    pieces (match q.limit with
      | some l => Render.limit l
      | none => [])

end Columns

/-! ## Filled outlines -/

section Fill

variable (named introduced : TableId → List Piece)

@[simp] theorem fill_nil : fill named introduced [] = [] := rfl

@[simp] theorem fill_cons_piece (p : Piece) (slots : List Slot) :
    fill named introduced (.piece p :: slots) = p :: fill named introduced slots := rfl

@[simp] theorem fill_cons_text (s : String) (slots : List Slot) :
    fill named introduced (text s :: slots) = .text s :: fill named introduced slots := rfl

@[simp] theorem fill_cons_reference (table : TableId) (slots : List Slot) :
    fill named introduced (.reference table :: slots) =
      named table ++ fill named introduced slots := rfl

@[simp] theorem fill_cons_introduction (table : TableId) (slots : List Slot) :
    fill named introduced (.introduction table :: slots) =
      introduced table ++ fill named introduced slots := rfl

@[simp] theorem fill_append (slots slots' : List Slot) :
    fill named introduced (slots ++ slots') =
      fill named introduced slots ++ fill named introduced slots' := List.flatMap_append

@[simp] theorem fill_pieces (ps : List Piece) : fill named introduced (pieces ps) = ps := by
  induction ps with
  | nil => rfl
  | cons p rest ih => exact congrArg (p :: ·) ih

/-- What is written only under a condition. -/
@[simp] theorem fill_ite (present : Bool) (slots : List Slot) :
    fill named introduced (if present then slots else []) =
      if present then fill named introduced slots else [] := by
  cases present <;> rfl

@[simp] theorem fill_separated (separator : String) (items : List (List Slot)) :
    fill named introduced (separated separator items) =
      Render.separated separator (items.map (fill named introduced)) := by
  unfold separated Render.separated
  induction items with
  | nil => rfl
  | cons item rest ih =>
    cases rest with
    | nil => simp
    | cons next rest =>
      rw [List.map_cons, List.map_cons, List.intercalate_cons_cons, List.intercalate_cons_cons,
        fill_append, fill_append, ih]
      rfl

theorem fill_flatMap {β : Type} (items : List β) (outline : β → List Slot) :
    fill named introduced (items.flatMap outline) =
      items.flatMap fun item => fill named introduced (outline item) := List.flatMap_assoc

end Fill

/-! ## What is written under scopes -/

section Scopes

variable (ctx : Render.Context) (scopes : Scopes) (introduced : TableId → List Piece)

theorem fill_column (ref : ColumnRef) :
    fill (Render.tableName ctx scopes) introduced (column ctx ref) =
      Render.column ctx scopes ref := by
  unfold column Render.column
  cases ctx.catalog.column? ref <;>
    simp only [fill_cons_reference, fill_cons_text, fill_pieces]

mutual

theorem fill_expression (e : Expression) :
    fill (Render.tableName ctx scopes) introduced (expression ctx e) =
      Render.expression ctx scopes e := by
  cases e with
  | mk t aliasName => exact fill_term t

theorem fill_term (t : Term) :
    fill (Render.tableName ctx scopes) introduced (term ctx t) = Render.term ctx scopes t := by
  cases t with
  | column ref => exact fill_column ctx scopes introduced ref
  | value v => rfl
  | raw s => rfl
  | count es distinct =>
    simp only [term, Render.term, fill_append, fill_cons_text, fill_ite, fill_separated,
      fill_expressionList es, fill_nil]
  | sum e => simp [term, Render.term, fill_expression e]
  | minimum e => simp [term, Render.term, fill_expression e]
  | maximum e => simp [term, Render.term, fill_expression e]
  | cast e target sqlType => simp [term, Render.term, fill_expression e]

theorem fill_expressionList (es : List Expression) :
    (expressionList ctx es).map (fill (Render.tableName ctx scopes) introduced) =
      Render.expressionList ctx scopes es := by
  cases es with
  | nil => rfl
  | cons e rest =>
    rw [expressionList, Render.expressionList, List.map_cons, fill_expression e,
      fill_expressionList rest]

end

theorem fill_expressions (es : List Expression) :
    fill (Render.tableName ctx scopes) introduced (expressions ctx es) =
      Render.expressions ctx scopes es := by
  rw [expressions, Render.expressions, fill_separated, fill_expressionList]

theorem fill_operand (value : Operand) :
    fill (Render.tableName ctx scopes) introduced (operand ctx value) =
      Render.operand ctx scopes value := by
  cases value with
  | value v => rfl
  | named n => rfl
  | expression e => exact fill_expression ctx scopes introduced e

theorem fill_comparison (greater orEquals negated : Bool) (value : Operand) :
    fill (Render.tableName ctx scopes) introduced (comparison ctx greater orEquals negated value) =
      Render.comparison ctx scopes greater orEquals negated value := by
  rw [comparison, Render.comparison, fill_cons_text, fill_operand]

theorem fill_inItems (negated : Bool) (items : List Operand) :
    fill (Render.tableName ctx scopes) introduced (inItems ctx negated items) =
      Render.inItems ctx scopes negated items := by
  have hitem : fill (Render.tableName ctx scopes) introduced ∘ listItem ctx =
      Render.listItem ctx scopes := by
    funext value
    show fill _ _ (if value.isNull then _ else _) = _
    unfold Render.listItem
    cases value.isNull with
    | true => rfl
    | false => exact fill_operand ctx scopes introduced value
  simp [inItems, Render.inItems, hitem]

theorem fill_likePattern (leading trailing : Bool) (pattern : Operand) :
    fill (Render.tableName ctx scopes) introduced (likePattern ctx leading trailing pattern) =
      Render.likePattern ctx scopes leading trailing pattern := by
  cases pattern with
  | value v => cases v <;> rfl
  | named n => rfl
  | expression e => exact fill_expression ctx scopes introduced e

theorem fill_predicate (negated : Bool) (p : Predicate) :
    fill (Render.tableName ctx scopes) introduced (predicate ctx negated p) =
      Render.predicate ctx scopes negated p := by
  cases p with
  | isNull => rfl
  | equals value =>
    simp only [predicate, Render.predicate]
    cases value.isNull with
    | true => rfl
    | false => simp [fill_operand]
  | greater value orEquals =>
    simp only [predicate, Render.predicate]
    cases value.isNull with
    | true => rfl
    | false => exact fill_comparison ctx scopes introduced true orEquals negated value
  | lower value orEquals =>
    simp only [predicate, Render.predicate]
    cases value.isNull with
    | true => rfl
    | false => exact fill_comparison ctx scopes introduced false orEquals negated value
  | between low high =>
    simp only [predicate, Render.predicate]
    cases low.isNull <;> cases high.isNull
    · simp [fill_operand]
    · exact fill_comparison ctx scopes introduced true false negated low
    · exact fill_comparison ctx scopes introduced false false negated high
    · rfl
  | isIn candidates =>
    cases candidates with
    | collection items =>
      cases items with
      | none => rfl
      | some items => exact fill_inItems ctx scopes introduced negated items
    | listed items => exact fill_inItems ctx scopes introduced negated items
    | named n => rfl
  | like pattern leading trailing =>
    simp only [predicate, Render.predicate]
    cases pattern.isNull with
    | true => rfl
    | false => simp [fill_likePattern]

theorem fill_condition (c : Condition) :
    fill (Render.tableName ctx scopes) introduced (condition ctx c) =
      Render.condition ctx scopes c := by
  cases c with
  | text s => rfl
  | operator op => exact fill_predicate ctx scopes introduced op.negated op.predicate

mutual

theorem fill_criterion (k : Criterion) :
    fill (Render.tableName ctx scopes) introduced (criterion ctx k) =
      Render.criterion ctx scopes k := by
  cases k with
  | compare left c =>
    simp [criterion, Render.criterion, fill_expression, fill_condition]
  | raw fragments => exact fill_fragmentList fragments
  | nested chain => simp [criterion, Render.criterion, fill_links true chain]

theorem fill_fragment (f : Fragment) :
    fill (Render.tableName ctx scopes) introduced (fragment ctx f) =
      Render.fragment ctx scopes f := by
  cases f with
  | text s => rfl
  | expression e => exact fill_expression ctx scopes introduced e
  | operator op => exact fill_predicate ctx scopes introduced op.negated op.predicate
  | value v => rfl
  | criteria chain => simp [fragment, Render.fragment, fill_links true chain]

theorem fill_fragmentList (fs : List Fragment) :
    fill (Render.tableName ctx scopes) introduced (fragmentList ctx fs) =
      Render.fragmentList ctx scopes fs := by
  cases fs with
  | nil => rfl
  | cons f rest =>
    rw [fragmentList, Render.fragmentList, fill_append, fill_fragment f, fill_fragmentList rest]

theorem fill_links (first : Bool) (chain : List Link) :
    fill (Render.tableName ctx scopes) introduced (links ctx first chain) =
      Render.links ctx scopes first chain := by
  cases chain with
  | nil => rfl
  | cons link rest =>
    cases link with
    | mk c k =>
      unfold links Render.links
      cases k.hasConditions with
      | true =>
        have hrest := fill_links false rest
        have hk := fill_criterion k
        cases first <;> simp [hk, hrest]
      | false => exact fill_links first rest

end

theorem fill_select (q : Query) :
    fill (Render.tableName ctx scopes) introduced (select ctx q) = Render.select ctx scopes q := by
  have hprojected : fill (Render.tableName ctx scopes) introduced ∘ projected ctx =
      Render.projected ctx scopes := by
    funext e
    show fill _ _ (expression ctx e ++ pieces _) = _
    rw [fill_append, fill_expression, fill_pieces]
    rfl
  simp [select, Render.select, hprojected]

theorem fill_columnsEqual (left right : ColumnRef) :
    fill (Render.tableName ctx scopes) introduced (columnsEqual ctx left right) =
      Render.columnsEqual ctx scopes left right := by
  rw [columnsEqual, Render.columnsEqual, fill_append, fill_cons_text, fill_column, fill_column]

theorem fill_columnsEqualAll (left right : List ColumnRef) :
    fill (Render.tableName ctx scopes) introduced
        (separated " and " (List.zipWith (columnsEqual ctx) left right)) =
      Render.separated " and " (List.zipWith (Render.columnsEqual ctx scopes) left right) := by
  simp [List.map_zipWith, fill_columnsEqual]

theorem fill_join (j : Join) :
    fill (Render.tableName ctx scopes) (Render.tableReference ctx scopes) (join ctx j) =
      Render.join ctx scopes j := by
  cases j with
  | cross right => simp [join, Render.join]
  | raw direction right condition => simp [join, Render.join]
  | column direction left right => simp [join, Render.join, fill_columnsEqual]
  | key direction left right =>
    cases right with
    | nil => rfl
    | cons first rest =>
      simp only [join, Render.join, fill_cons_text, fill_cons_introduction, fill_columnsEqualAll]
      rfl

/-- A from clause is filled as its own scope names and introduces its tables. -/
theorem fill_fromClause (f : FromClause) :
    fill (Render.tableName ctx (f.scope :: scopes)) (Render.tableReference ctx (f.scope :: scopes))
      (fromClause ctx f) = Render.fromClause ctx scopes f := by
  unfold fromClause Render.fromClause
  cases f.root with
  | none => rfl
  | some root =>
    have hjoin : ∀ j : Join,
        fill (Render.tableName ctx (f.scope :: scopes))
          (Render.tableReference ctx (f.scope :: scopes))
          (match j.rightTable? with
            | some _ => text " " :: join ctx j
            | none => []) =
        match j.rightTable? with
          | some _ => .text " " :: Render.join ctx (f.scope :: scopes) j
          | none => [] := by
      intro j
      cases j.rightTable? with
      | none => rfl
      | some _ => simp [fill_join]
    simp only [fill_cons_text, fill_cons_introduction, fill_flatMap, hjoin]
    rfl

theorem fill_ordering (keys : List SortKey) :
    fill (Render.tableName ctx scopes) introduced (ordering ctx keys) =
      Render.ordering ctx scopes keys := by
  have hkey : fill (Render.tableName ctx scopes) introduced ∘ sortKey ctx =
      Render.sortKey ctx scopes := by
    funext k
    show fill _ _ (expression ctx k.expression ++ pieces _) = _
    rw [fill_append, fill_expression, fill_pieces]
    rfl
  simp [ordering, Render.ordering, hkey]

theorem fill_clauseWhen (present : Bool) (keyword : String) (slots : List Slot) :
    fill (Render.tableName ctx scopes) introduced (clauseWhen present keyword slots) =
      Render.clauseWhen present keyword
        (fill (Render.tableName ctx scopes) introduced slots) := by
  simp [clauseWhen, Render.clauseWhen]

/-- A query is its outline, filled as its scope names tables, which its from clause opens once
more where it introduces them. -/
theorem fill_query (q : Query) :
    fill (Render.tableName ctx (q.source.scope :: scopes))
      (Render.tableReference ctx (q.source.scope :: q.source.scope :: scopes)) (query ctx q) =
      Render.query ctx scopes q := by
  have htwice : Render.tableName ctx (q.source.scope :: scopes) =
      Render.tableName ctx (q.source.scope :: q.source.scope :: scopes) := by
    funext id
    unfold Render.tableName
    rw [Scopes.aliasOf_twice]
  have hsource := fill_fromClause ctx (q.source.scope :: scopes) q.source
  rw [← htwice] at hsource
  unfold query Render.query Render.criteria
  cases q.limit <;>
    simp only [fill_append, fill_select, hsource, fill_clauseWhen, fill_links, fill_expressions,
      fill_ordering, fill_pieces]

end Scopes

/-! ## Tables introduced -/

section Introductions

variable (named : TableId → List Piece)

theorem introductions_append (slots slots' : List Slot) :
    introductions (slots ++ slots') = introductions slots ++ introductions slots' :=
  List.filterMap_append

/-- An outline filled with the same pieces, whatever is introduced, introduces no table. -/
theorem introductions_eq_nil {slots : List Slot} {ps : List Piece}
    (h : ∀ introduced, fill named introduced slots = ps) : introductions slots = [] := by
  -- a piece for each introduction shows how many there are
  have hlength : ∀ slots : List Slot, (fill named (fun _ => [.dangling]) slots).length =
      (fill named (fun _ => []) slots).length + (introductions slots).length := by
    intro slots
    induction slots with
    | nil => rfl
    | cons slot rest ih =>
      cases slot with
      | piece p =>
        show (fill _ _ rest).length + 1 = (fill _ _ rest).length + 1 + (introductions rest).length
        omega
      | reference table =>
        show (named table ++ fill _ _ rest).length =
          (named table ++ fill _ _ rest).length + (introductions rest).length
        rw [List.length_append, List.length_append]
        omega
      | introduction table =>
        show (fill _ _ rest).length + 1 =
          (fill _ _ rest).length + ((introductions rest).length + 1)
        omega
  have hslots := hlength slots
  rw [h, h] at hslots
  exact List.eq_nil_of_length_eq_zero (by omega)

variable (ctx : Render.Context)

/-- A join introduces its right table. -/
theorem introductions_join {j : Join} {id : TableId} (h : j.rightTable? = some id) :
    introductions (join ctx j) = [id] := by
  cases j with
  | cross right =>
    obtain rfl : right = id := Option.some.inj h
    rfl
  | raw direction right condition =>
    obtain rfl : right = id := Option.some.inj h
    rfl
  | column direction left right =>
    obtain rfl : right.table = id := Option.some.inj h
    have hcondition := introductions_eq_nil _ fun introduced =>
      fill_columnsEqual ctx [] introduced left right
    exact congrArg (right.table :: ·) hcondition
  | key direction left right =>
    cases right with
    | nil => exact absurd h.symm (Option.some_ne_none id)
    | cons first rest =>
      obtain rfl : first.table = id := Option.some.inj h
      have hcondition := introductions_eq_nil _ fun introduced =>
        fill_columnsEqualAll ctx [] introduced left (first :: rest)
      exact congrArg (first.table :: ·) hcondition

/-- A query with a from clause introduces the tables of the clause, and no others. -/
theorem introductions_query {q : Query} (h : q.source.root.isSome) :
    introductions (query ctx q) = q.source.tables := by
  have hselect := introductions_eq_nil _ fun introduced => fill_select ctx [] introduced q
  have hcriteria : ∀ chain, introductions (links ctx true chain) = [] := fun chain =>
    introductions_eq_nil _ fun introduced => fill_links ctx [] introduced true chain
  have hgroups := introductions_eq_nil _ fun introduced =>
    fill_expressions ctx [] introduced q.groups
  have hordering := introductions_eq_nil _ fun introduced =>
    fill_ordering ctx [] introduced q.ordering
  have hpieces : ∀ ps, introductions (pieces ps) = [] := fun ps =>
    introductions_eq_nil (fun _ => []) fun introduced => fill_pieces _ introduced ps
  have hclause : ∀ present keyword {slots}, introductions slots = [] →
      introductions (clauseWhen present keyword slots) = [] := by
    intro present keyword slots hslots
    cases present with
    | true => exact hslots
    | false => rfl
  have hsource : introductions (fromClause ctx q.source) = q.source.tables := by
    obtain ⟨root, hroot⟩ := Option.isSome_iff_exists.mp h
    have hjoins : ∀ joins : List Join,
        introductions (joins.flatMap fun j =>
          match j.rightTable? with
          | some _ => text " " :: join ctx j
          | none => []) = joins.filterMap Join.rightTable? := by
      intro joins
      induction joins with
      | nil => rfl
      | cons j rest ih =>
        rw [List.flatMap_cons, introductions_append, ih, List.filterMap_cons]
        cases hright : j.rightTable? with
        | none => rfl
        | some id =>
          show introductions (join ctx j) ++ _ = _
          rw [introductions_join ctx hright]
          rfl
    unfold fromClause FromClause.tables
    rw [hroot]
    exact congrArg (root :: ·) (hjoins q.source.joins)
  unfold query
  simp only [introductions_append, hselect, hsource, hclause _ _ (hcriteria _),
    hclause _ _ hgroups, hclause _ _ hordering, hpieces, List.nil_append, List.append_nil]

end Introductions

end Outline
end SqlGraph
