import Mathlib.Data.List.Forall2
import SqlGraph.Proofs.Query.Names
import SqlGraph.Proofs.Render.References
import SqlGraph.Proofs.Render.Scopes

/-!
# Clauses written in two ways

A clause is written from the columns it refers to and the names it gives, piece after piece. So when
a relation between lists of pieces is kept by writing one list after the other
(`Piece.Compatible`), and holds of how two contexts write each column and each name, it holds of how
they write whole clauses. On the second side the names of the clause may be replaced.

There is one lemma for each form of the syntax, up to `Render.query_related`, where the tables of
the from clause come in, and `Render.statement_related`.
-/

namespace SqlGraph

/-! ## Relations between lists of pieces -/

/-- A relation that writing piece after piece keeps. -/
structure Piece.Compatible (R : List Piece → List Piece → Prop) : Prop where
  nil : R [] []
  single : ∀ p : Piece, p.isDangling = false → R [p] [p]
  append : ∀ {ps ps' qs qs' : List Piece}, R ps ps' → R qs qs' → R (ps ++ qs) (ps' ++ qs')

namespace Piece.Compatible

variable {R : List Piece → List Piece → Prop} (hR : Piece.Compatible R) {ps qs : List Piece}
include hR

theorem text (s : String) : R [.text s] [.text s] := hR.single (.text s) rfl

theorem text_cons (s : String) (h : R ps qs) : R (.text s :: ps) (.text s :: qs) :=
  hR.append (hR.text s) h

theorem concat_text (h : R ps qs) (s : String) : R (ps ++ [.text s]) (qs ++ [.text s]) :=
  hR.append h (hR.text s)

theorem separated (separator : String) {items items' : List (List Piece)}
    (h : List.Forall₂ R items items') :
    R (Render.separated separator items) (Render.separated separator items') := by
  induction h with
  | nil => exact hR.nil
  | @cons item item' rest rest' hitem hrest ih =>
    cases hrest with
    | nil => simpa [Render.separated_singleton] using hitem
    | cons hnext hrest =>
      rw [Render.separated_cons_cons, Render.separated_cons_cons]
      exact hR.append hitem (hR.append (hR.text separator) ih)

/-- Items with something between them, written each in two ways. -/
theorem separated_map (separator : String) {β γ : Type} {items : List β} {items' : List γ}
    {write : β → List Piece} {write' : γ → List Piece} {rename : β → γ}
    (hitems : items' = items.map rename)
    (h : ∀ item ∈ items, R (write item) (write' (rename item))) :
    R (Render.separated separator (items.map write))
      (Render.separated separator (items'.map write')) := by
  refine hR.separated separator ?_
  rw [hitems, List.map_map, List.forall₂_map_left_iff, List.forall₂_map_right_iff,
    List.forall₂_same]
  exact h

/-- What is written only under a condition. -/
theorem ite (present : Bool) (h : R ps qs) :
    R (if present then ps else []) (if present then qs else []) := by
  cases present with
  | true => exact h
  | false => exact hR.nil

theorem flatMap {β : Type} {items : List β} {write write' : β → List Piece}
    (h : ∀ item ∈ items, R (write item) (write' item)) :
    R (items.flatMap write) (items.flatMap write') := by
  induction items with
  | nil => exact hR.nil
  | cons item rest ih =>
    rw [List.flatMap_cons, List.flatMap_cons]
    exact hR.append (h item List.mem_cons_self)
      (ih fun other hother => h other (List.mem_cons_of_mem item hother))

end Piece.Compatible

namespace Render

/-! ## Columns -/

/-- The relation holds of how two contexts write some columns, each under scopes of its own. -/
def ColumnsRelated (R : List Piece → List Piece → Prop) (ctx ctx' : Context)
    (scopes scopes' : Scopes) (refs : List ColumnRef) : Prop :=
  ∀ ref ∈ refs, R (column ctx scopes ref) (column ctx' scopes' ref)

namespace ColumnsRelated

variable {R : List Piece → List Piece → Prop} {ctx ctx' : Context} {scopes scopes' : Scopes}
  {refs others : List ColumnRef}

theorem left (h : ColumnsRelated R ctx ctx' scopes scopes' (refs ++ others)) :
    ColumnsRelated R ctx ctx' scopes scopes' refs :=
  fun ref href => h ref (List.mem_append_left _ href)

theorem right (h : ColumnsRelated R ctx ctx' scopes scopes' (refs ++ others)) :
    ColumnsRelated R ctx ctx' scopes scopes' others :=
  fun ref href => h ref (List.mem_append_right _ href)

theorem of_mem {β : Type} {items : List β} {refsOf : β → List ColumnRef}
    (h : ColumnsRelated R ctx ctx' scopes scopes' (items.flatMap refsOf)) {item : β}
    (hitem : item ∈ items) : ColumnsRelated R ctx ctx' scopes scopes' (refsOf item) :=
  fun ref href => h ref (List.mem_flatMap.mpr ⟨item, hitem, href⟩)

theorem of_mem_expressions {es : List Expression}
    (h : ColumnsRelated R ctx ctx' scopes scopes' (Expression.allRefs es)) {e : Expression}
    (he : e ∈ es) : ColumnsRelated R ctx ctx' scopes scopes' e.refs := by
  rw [Expression.allRefs_eq_flatMap] at h
  exact h.of_mem he

/-- Opening a scope twice writes no column differently. -/
theorem twice {scope scope' : Scope}
    (h : ColumnsRelated R ctx ctx' (scope :: scopes) (scope' :: scopes') refs) :
    ColumnsRelated R ctx ctx' (scope :: scope :: scopes) (scope' :: scope' :: scopes') refs := by
  have hcolumn : ∀ (ctx : Context) (scope : Scope) (scopes : Scopes) (ref : ColumnRef),
      column ctx (scope :: scope :: scopes) ref = column ctx (scope :: scopes) ref := by
    intro ctx scope scopes ref
    unfold column tableName
    rw [Scopes.aliasOf_twice]
  intro ref href
  rw [hcolumn, hcolumn]
  exact h ref href

end ColumnsRelated

section Related

variable {R : List Piece → List Piece → Prop} {ctx ctx' : Context} {scopes scopes' : Scopes}

/-! ## Expressions, operators, criteria -/

mutual

theorem expression_related (hR : Piece.Compatible R) (f : String → String) (e : Expression)
    (hrefs : ColumnsRelated R ctx ctx' scopes scopes' e.refs) :
    R (expression ctx scopes e) (expression ctx' scopes' (e.mapNames f)) := by
  cases e with
  | mk t aliasName => exact term_related hR f t hrefs

theorem term_related (hR : Piece.Compatible R) (f : String → String) (t : Term)
    (hrefs : ColumnsRelated R ctx ctx' scopes scopes' t.refs) :
    R (term ctx scopes t) (term ctx' scopes' (t.mapNames f)) := by
  cases t with
  | column ref => exact hrefs ref (List.mem_singleton_self ref)
  | value v => exact hR.single (.value v) rfl
  | raw text => exact hR.text text
  | count es distinct =>
    have hempty : (Expression.mapAllNames f es).isEmpty = es.isEmpty := by
      cases es <;> rfl
    have hes := hR.separated ", " (expressionList_related hR f es hrefs)
    have hstar := hR.ite es.isEmpty (hR.text "*")
    have hdistinct := hR.ite distinct (hR.text "distinct ")
    unfold Term.mapNames term
    rw [hempty]
    exact hR.concat_text (hR.append (hR.append (hR.text_cons _ hdistinct) hstar) hes) ")"
  | sum e => exact hR.concat_text (hR.text_cons "sum(" (expression_related hR f e hrefs)) ")"
  | minimum e => exact hR.concat_text (hR.text_cons "min(" (expression_related hR f e hrefs)) ")"
  | maximum e => exact hR.concat_text (hR.text_cons "max(" (expression_related hR f e hrefs)) ")"
  | cast e target sqlType =>
    have htype := hR.text_cons " as " (hR.text_cons (sqlType.getD target.sqlName) (hR.text ")"))
    exact hR.append (hR.text_cons "cast(" (expression_related hR f e hrefs)) htype

theorem expressionList_related (hR : Piece.Compatible R) (f : String → String)
    (es : List Expression)
    (hrefs : ColumnsRelated R ctx ctx' scopes scopes' (Expression.allRefs es)) :
    List.Forall₂ R (expressionList ctx scopes es)
      (expressionList ctx' scopes' (Expression.mapAllNames f es)) := by
  cases es with
  | nil => exact .nil
  | cons e rest =>
    have hrest := expressionList_related hR f rest hrefs.right
    exact .cons (expression_related hR f e hrefs.left) hrest

end

variable (hR : Piece.Compatible R) (f : String → String)
include hR

theorem operand_related (value : Operand)
    (hrefs : ColumnsRelated R ctx ctx' scopes scopes' value.refs) :
    R (operand ctx scopes value) (operand ctx' scopes' (value.mapNames f)) := by
  cases value with
  | value v => exact hR.single (.value v) rfl
  | named name => exact hR.single (.named name false) rfl
  | expression e => exact expression_related hR f e hrefs

theorem comparison_related (greater orEquals negated : Bool) (value : Operand)
    (hrefs : ColumnsRelated R ctx ctx' scopes scopes' value.refs) :
    R (comparison ctx scopes greater orEquals negated value)
      (comparison ctx' scopes' greater orEquals negated (value.mapNames f)) :=
  hR.text_cons _ (operand_related hR f value hrefs)

theorem nullCheck_related (negated : Bool) : R (nullCheck negated) (nullCheck negated) :=
  hR.text _

theorem inItems_related (negated : Bool) (items : List Operand)
    (hrefs : ColumnsRelated R ctx ctx' scopes scopes' (items.flatMap Operand.refs)) :
    R (inItems ctx scopes negated items)
      (inItems ctx' scopes' negated (items.map (Operand.mapNames f))) := by
  have hitems : ∀ value ∈ items,
      R (listItem ctx scopes value) (listItem ctx' scopes' (value.mapNames f)) := by
    intro value hvalue
    unfold listItem
    rw [Operand.isNull_mapNames]
    -- a null item is a word, any other one is written as an operand
    cases value.isNull with
    | true => exact hR.text "null"
    | false => exact operand_related hR f value (hrefs.of_mem hvalue)
  exact hR.concat_text (hR.text_cons _ (hR.separated_map ", " rfl hitems)) ")"

theorem likePattern_related (leading trailing : Bool) (pattern : Operand)
    (hrefs : ColumnsRelated R ctx ctx' scopes scopes' pattern.refs) :
    R (likePattern ctx scopes leading trailing pattern)
      (likePattern ctx' scopes' leading trailing (pattern.mapNames f)) := by
  cases pattern with
  | value v => cases v <;> exact hR.single _ rfl
  | named name => exact hR.single _ rfl
  | expression e => exact expression_related hR f e hrefs

theorem predicate_related (negated : Bool) (p : Predicate)
    (hrefs : ColumnsRelated R ctx ctx' scopes scopes' p.refs) :
    R (predicate ctx scopes negated p) (predicate ctx' scopes' negated (p.mapNames f)) := by
  have hcheck := nullCheck_related hR negated
  cases p with
  | isNull => exact hcheck
  | equals value =>
    simp only [Predicate.mapNames, predicate, Operand.isNull_mapNames]
    cases value.isNull with
    | true => exact hcheck
    | false => exact hR.text_cons _ (operand_related hR f value hrefs)
  | greater value orEquals =>
    simp only [Predicate.mapNames, predicate, Operand.isNull_mapNames]
    cases value.isNull with
    | true => exact hcheck
    | false => exact comparison_related hR f true orEquals negated value hrefs
  | lower value orEquals =>
    simp only [Predicate.mapNames, predicate, Operand.isNull_mapNames]
    cases value.isNull with
    | true => exact hcheck
    | false => exact comparison_related hR f false orEquals negated value hrefs
  | between low high =>
    simp only [Predicate.mapNames, predicate, Operand.isNull_mapNames]
    cases low.isNull <;> cases high.isNull
    · have hlow := operand_related hR f low hrefs.left
      have hhigh := operand_related hR f high hrefs.right
      exact hR.append (hR.text_cons _ hlow) (hR.text_cons " and " hhigh)
    · exact comparison_related hR f true false negated low hrefs.left
    · exact comparison_related hR f false false negated high hrefs.right
    · exact hcheck
  | isIn candidates =>
    cases candidates with
    | collection items =>
      cases items with
      | none => exact hcheck
      | some items => exact inItems_related hR f negated items hrefs
    | listed items => exact inItems_related hR f negated items hrefs
    | named name =>
      exact hR.text_cons _ (hR.concat_text (hR.single (.named name true) rfl) ")")
  | like pattern leading trailing =>
    simp only [Predicate.mapNames, predicate, Operand.isNull_mapNames]
    cases pattern.isNull with
    | true => exact hcheck
    | false => exact hR.text_cons _ (likePattern_related hR f leading trailing pattern hrefs)

theorem condition_related (condition : Condition)
    (hrefs : ColumnsRelated R ctx ctx' scopes scopes' condition.refs) :
    R (Render.condition ctx scopes condition)
      (Render.condition ctx' scopes' (condition.mapNames f)) := by
  cases condition with
  | text text => exact hR.text text
  | operator op => exact predicate_related hR f op.negated op.predicate hrefs

mutual

theorem criterion_related (k : Criterion)
    (hrefs : ColumnsRelated R ctx ctx' scopes scopes' k.refs) :
    R (criterion ctx scopes k) (criterion ctx' scopes' (k.mapNames f)) := by
  cases k with
  | compare left condition =>
    have hleft := expression_related hR f left hrefs.left
    have hcondition := condition_related hR f condition hrefs.right
    exact hR.append hleft (hR.text_cons " " hcondition)
  | raw fragments => exact fragmentList_related fragments hrefs
  | nested chain => exact hR.concat_text (hR.text_cons "(" (links_related true chain hrefs)) ")"

theorem fragment_related (fragment : Fragment)
    (hrefs : ColumnsRelated R ctx ctx' scopes scopes' fragment.refs) :
    R (Render.fragment ctx scopes fragment)
      (Render.fragment ctx' scopes' (fragment.mapNames f)) := by
  cases fragment with
  | text text => exact hR.text text
  | expression e => exact expression_related hR f e hrefs
  | operator op => exact predicate_related hR f op.negated op.predicate hrefs
  | value v => exact hR.single (.value v) rfl
  | criteria chain =>
    exact hR.concat_text (hR.text_cons "(" (links_related true chain hrefs)) ")"

theorem fragmentList_related (fs : List Fragment)
    (hrefs : ColumnsRelated R ctx ctx' scopes scopes' (Fragment.allRefs fs)) :
    R (fragmentList ctx scopes fs) (fragmentList ctx' scopes' (Fragment.mapAllNames f fs)) := by
  cases fs with
  | nil => exact hR.nil
  | cons fragment rest =>
    exact hR.append (fragment_related fragment hrefs.left) (fragmentList_related rest hrefs.right)

theorem links_related (first : Bool) (chain : List Link)
    (hrefs : ColumnsRelated R ctx ctx' scopes scopes' (Link.allRefs chain)) :
    R (links ctx scopes first chain) (links ctx' scopes' first (Link.mapAllNames f chain)) := by
  cases chain with
  | nil => exact hR.nil
  | cons link rest =>
    cases link with
    | mk c k =>
      unfold Link.mapAllNames links
      rw [Criterion.hasConditions_mapNames]
      -- a link without conditions is left out, and the next one may still be the first
      cases k.hasConditions with
      | true =>
        have hcombinator : R (if first then [] else combinator c)
            (if first then [] else combinator c) := by
          cases first with
          | true => exact hR.nil
          | false => exact hR.text_cons " " (hR.text_cons _ (hR.text " "))
        have hlink := hR.append hcombinator (criterion_related k hrefs.left)
        exact hR.append hlink (links_related false rest hrefs.right)
      | false => exact links_related first rest hrefs.right

end

/-! ## Clauses -/

theorem expressions_related (es : List Expression)
    (hrefs : ColumnsRelated R ctx ctx' scopes scopes' (Expression.allRefs es)) :
    R (expressions ctx scopes es) (expressions ctx' scopes' (es.map (Expression.mapNames f))) := by
  rw [← Expression.mapAllNames_eq_map]
  exact hR.separated ", " (expressionList_related hR f es hrefs)

theorem ordering_related (keys : List SortKey)
    (hrefs : ColumnsRelated R ctx ctx' scopes scopes'
      (Expression.allRefs (keys.map (·.expression)))) :
    R (ordering ctx scopes keys) (ordering ctx' scopes' (keys.map (SortKey.mapNames f))) := by
  refine hR.separated_map ", " rfl fun k hk => ?_
  have hexpression := expression_related hR f k.expression
    (hrefs.of_mem_expressions (List.mem_map_of_mem hk))
  refine hR.append hexpression ?_
  cases k with
  | mk e order =>
    cases order with
    | none => exact hR.nil
    | some order => exact hR.text_cons " " (hR.text order.keyword)

theorem columnsEqual_related {left right : ColumnRef}
    (hleft : R (column ctx scopes left) (column ctx' scopes' left))
    (hright : R (column ctx scopes right) (column ctx' scopes' right)) :
    R (columnsEqual ctx scopes left right) (columnsEqual ctx' scopes' left right) :=
  hR.append hleft (hR.text_cons " = " hright)

theorem zipWith_columnsEqual_related {left right : List ColumnRef}
    (hrefs : ColumnsRelated R ctx ctx' scopes scopes' (left ++ right)) :
    List.Forall₂ R (List.zipWith (columnsEqual ctx scopes) left right)
      (List.zipWith (columnsEqual ctx' scopes') left right) := by
  induction left generalizing right with
  | nil => exact .nil
  | cons l left ih =>
    cases right with
    | nil => exact .nil
    | cons r right =>
      have hleft := hrefs.left
      have hright := hrefs.right
      have hrest : ColumnsRelated R ctx ctx' scopes scopes' (left ++ right) := by
        intro ref href
        rcases List.mem_append.mp href with hl | hr
        · exact hleft ref (List.mem_cons_of_mem l hl)
        · exact hright ref (List.mem_cons_of_mem r hr)
      exact .cons (columnsEqual_related hR (hleft l List.mem_cons_self)
        (hright r List.mem_cons_self)) (ih hrest)

theorem join_related {j : Join} {id : TableId} (hj : j.rightTable? = some id)
    (hrefs : ColumnsRelated R ctx ctx' scopes scopes' j.columns)
    (htable : R (tableReference ctx scopes id) (tableReference ctx' scopes' id)) :
    R (join ctx scopes j) (join ctx' scopes' j) := by
  cases j with
  | cross right =>
    obtain rfl : right = id := Option.some.inj hj
    exact hR.text_cons "cross join " htable
  | raw direction right condition =>
    obtain rfl : right = id := Option.some.inj hj
    exact hR.append (hR.text_cons _ (hR.text_cons " " htable))
      (hR.text_cons " on " (hR.text condition))
  | column direction left right =>
    obtain rfl : right.table = id := Option.some.inj hj
    have hleft := hrefs left List.mem_cons_self
    have hright := hrefs right (List.mem_cons_of_mem _ List.mem_cons_self)
    exact hR.append (hR.text_cons _ (hR.text_cons " " htable))
      (hR.text_cons " on " (columnsEqual_related hR hleft hright))
  | key direction left right =>
    cases right with
    | nil => exact hR.nil
    | cons first rest =>
      obtain rfl : first.table = id := Option.some.inj hj
      have hcolumns := hR.separated " and " (zipWith_columnsEqual_related hR hrefs)
      exact hR.append (hR.text_cons _ (hR.text_cons " " htable)) (hR.text_cons " on " hcolumns)

/-- A from clause is written from its columns and its tables, both under its own scope. -/
theorem fromClause_related {source : FromClause}
    (hrefs : ColumnsRelated R ctx ctx' (source.scope :: scopes)
      ((source.mapNames f).scope :: scopes') source.refs)
    (htables : ∀ id ∈ source.tables, R (tableReference ctx (source.scope :: scopes) id)
      (tableReference ctx' ((source.mapNames f).scope :: scopes') id)) :
    R (fromClause ctx scopes source) (fromClause ctx' scopes' (source.mapNames f)) := by
  unfold fromClause
  rw [FromClause.root_mapNames, FromClause.joins_mapNames]
  cases hroot : source.root with
  | none => exact hR.nil
  | some root =>
    have hrootTable : root ∈ source.tables := by simp [FromClause.tables, hroot]
    refine hR.append (hR.text_cons " from " (htables root hrootTable)) ?_
    refine hR.flatMap fun j hj => ?_
    cases hright : j.rightTable? with
    | none => exact hR.nil
    | some id =>
      have hid : id ∈ source.tables :=
        List.mem_append_right _ (List.mem_filterMap.mpr ⟨j, hj, hright⟩)
      exact hR.text_cons " " (join_related hR hright (hrefs.of_mem hj) (htables id hid))

theorem limit_related (l : Limit) : R (limit l) (limit l) := by
  refine hR.text_cons " limit " (hR.append (hR.single (.value (.ofNat l.count)) rfl) ?_)
  cases l.offset with
  | none => exact hR.nil
  | some offset => exact hR.text_cons " offset " (hR.single (.value (.ofNat offset)) rfl)

theorem clauseWhen_related (present : Bool) (keyword : String) {ps qs : List Piece}
    (h : R ps qs) : R (clauseWhen present keyword ps) (clauseWhen present keyword qs) :=
  hR.ite present (hR.text_cons keyword h)

section Named

variable (hname : ∀ s, R (name ctx s) (name ctx' (f s)))
include hname

theorem select_related (q : Query)
    (hrefs : ColumnsRelated R ctx ctx' scopes scopes' (Expression.allRefs q.columns)) :
    R (select ctx scopes q) (select ctx' scopes' (q.mapNames f)) := by
  have hcolumns : ∀ e ∈ q.columns,
      R (projected ctx scopes e) (projected ctx' scopes' (e.mapNames f)) := by
    intro e he
    have hexpression := expression_related hR f e (hrefs.of_mem_expressions he)
    refine hR.append hexpression ?_
    cases e with
    | mk t aliasName =>
      cases aliasName with
      | none => exact hR.nil
      | some aliasName => exact hR.text_cons " as " (hname aliasName)
  have hdistinct := hR.ite q.distinct (hR.text "distinct ")
  exact hR.append (hR.text_cons "select " hdistinct) (hR.separated_map ", " rfl hcolumns)

/-- A query is written from its columns and tables, under its own scope, which its from clause opens
once more. -/
theorem query_related {q : Query}
    (hrefs : ColumnsRelated R ctx ctx' (q.source.scope :: scopes)
      ((q.source.mapNames f).scope :: scopes') q.refs)
    (htables : ∀ id ∈ q.source.tables,
      R (tableReference ctx (q.source.scope :: q.source.scope :: scopes) id)
        (tableReference ctx'
          ((q.source.mapNames f).scope :: (q.source.mapNames f).scope :: scopes') id)) :
    R (query ctx scopes q) (query ctx' scopes' (q.mapNames f)) := by
  have hordering := ordering_related hR f q.ordering hrefs.right
  have hhaving := links_related hR f true q.having hrefs.left.right
  have hgroups := expressions_related hR f q.groups hrefs.left.left.right
  have hfilter := links_related hR f true q.filter hrefs.left.left.left.right
  have hsource := fromClause_related hR f hrefs.left.left.left.left.right.twice htables
  have hselect := select_related hR f hname q hrefs.left.left.left.left.left
  have hgroupsEmpty : (q.groups.map (Expression.mapNames f)).isEmpty = q.groups.isEmpty :=
    List.isEmpty_map
  have horderingEmpty : (q.ordering.map (SortKey.mapNames f)).isEmpty = q.ordering.isEmpty :=
    List.isEmpty_map
  unfold query criteria
  simp only [Query.mapNames, Criteria.hasConditions_mapAllNames, hgroupsEmpty, horderingEmpty]
  refine hR.append (hR.append (hR.append (hR.append (hR.append (hR.append hselect hsource) ?_) ?_)
    ?_) ?_) ?_
  · exact clauseWhen_related hR _ " where " hfilter
  · exact clauseWhen_related hR _ " group by " hgroups
  · exact clauseWhen_related hR _ " having " hhaving
  · exact clauseWhen_related hR _ " order by " hordering
  · cases q.limit with
    | none => exact hR.nil
    | some l => exact limit_related hR l

end Named

/-- A statement is written from its queries. -/
theorem statement_related {s : Statement}
    (hqueries : ∀ q ∈ s.queries, R (query ctx scopes q) (query ctx' scopes' (q.mapNames f))) :
    R (statement ctx scopes s) (statement ctx' scopes' (s.mapNames f)) := by
  cases s with
  | query q => exact hqueries q (List.mem_singleton_self q)
  | union u => exact hR.separated_map " union all " rfl hqueries

end Related

/-! ## The same clause on both sides -/

section Unchanged

variable {R : List Piece → List Piece → Prop} (hR : Piece.Compatible R) {ctx ctx' : Context}
  {scopes scopes' : Scopes}
include hR

theorem query_related_self (hname : ∀ s, R (name ctx s) (name ctx' s)) {q : Query}
    (hrefs : ColumnsRelated R ctx ctx' (q.source.scope :: scopes) (q.source.scope :: scopes')
      q.refs)
    (htables : ∀ id ∈ q.source.tables,
      R (tableReference ctx (q.source.scope :: q.source.scope :: scopes) id)
        (tableReference ctx' (q.source.scope :: q.source.scope :: scopes') id)) :
    R (query ctx scopes q) (query ctx' scopes' q) := by
  have hquery : R (query ctx scopes q) (query ctx' scopes' (q.mapNames id)) := by
    refine query_related hR id hname ?_ ?_
    · rwa [FromClause.mapNames_id]
    · rwa [FromClause.mapNames_id]
  rwa [Query.mapNames_id] at hquery

theorem statement_related_self {s : Statement}
    (hqueries : ∀ q ∈ s.queries, R (query ctx scopes q) (query ctx' scopes' q)) :
    R (statement ctx scopes s) (statement ctx' scopes' s) := by
  have hstatement : R (statement ctx scopes s) (statement ctx' scopes' (s.mapNames id)) := by
    refine statement_related hR id fun q hq => ?_
    rw [Query.mapNames_id]
    exact hqueries q hq
  rwa [Statement.mapNames_id] at hstatement

end Unchanged

end Render

end SqlGraph
