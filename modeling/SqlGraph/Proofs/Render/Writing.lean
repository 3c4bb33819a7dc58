import SqlGraph.Proofs.Template.Places
import SqlGraph.Render.Writer

/-!
# What a writer writes

A step of a writer may read and change everything in the draft. What it does can still be said in
two parts (`Writing.Runs`): the pieces that it appends, which depend on the scopes that it finds,
and the scopes that it leaves. Steps in a row append their pieces in a row, each under the scopes
that the step before it leaves (`Writing.Runs.bind`).

So each step of a writer appends the pieces of its clause and leaves the scopes as it finds them
(`Writing.Writes`): there is one lemma for each form of the syntax (`Writer.Follows`), and
`Writer.follows_below` for the statements of derived tables.
-/

namespace SqlGraph

/-! ## Pieces written out -/

mutual

/-- The text that a value is written out as, part by part. -/
def Json.written : Json → List Piece
  | .array items => Render.separated ", " (Json.writtenAll items)
  | .null => [.text "null"]
  | .bool true => [.text "true"]
  | .bool false => [.text "false"]
  | .number n => [.text n.text]
  | .string s => [.text (Text.quote s)]
  | .object members => [.text (Text.quote (Json.object members).text)]

/-- The texts that values are written out as. -/
def Json.writtenAll : List Json → List (List Piece)
  | [] => []
  | v :: rest => v.written :: Json.writtenAll rest

end

/-- A piece with its value or its name written out. -/
def Piece.inlined : Piece → List Piece
  | .text s => [.text s]
  | .value v => v.written
  | .named name _ => [.text ":", .text name]
  | .dangling => [.dangling]

/-- Pieces as they are written. -/
def PlaceForm.pieces : PlaceForm → List Piece → List Piece
  | .place, ps => ps
  | .inline, ps => ps.flatMap Piece.inlined

theorem PlaceForm.pieces_append (form : PlaceForm) (ps qs : List Piece) :
    form.pieces (ps ++ qs) = form.pieces ps ++ form.pieces qs := by
  cases form with
  | place => rfl
  | inline => exact List.flatMap_append

theorem Piece.resolved?_append (ps qs : List Piece) :
    Piece.resolved? (ps ++ qs) =
      (Piece.resolved? ps).bind fun ps => (Piece.resolved? qs).map fun qs => ps ++ qs := by
  unfold resolved?
  rw [List.any_append]
  cases ps.any Piece.isDangling <;> cases qs.any Piece.isDangling <;> rfl

/-! ## Steps -/

namespace Writing

/-- A step is followed by the next one unless it fails. -/
theorem after_bind (step next : Writing Unit) (d : Draft) :
    after (step >>= fun _ => next) d = (step.after d).bind next.after := by
  unfold after
  rw [StateT.run_bind]
  cases step.run d <;> rfl

/-- The step writes pieces, as they are under the scopes that it finds, and leaves other scopes. -/
def Runs (form : PlaceForm) (step : Writing Unit) (pieces : Scopes → List Piece)
    (move : Scopes → Scopes) : Prop :=
  ∀ d, step.after d = (Piece.resolved? (pieces d.scopes)).map fun ps =>
    ⟨d.template.pushPieces (form.pieces ps), move d.scopes⟩

/-- The step writes pieces and leaves the scopes as it finds them. -/
abbrev Writes (form : PlaceForm) (step : Writing Unit) (pieces : Scopes → List Piece) : Prop :=
  Runs form step pieces fun scopes => scopes

section Rules

variable {form : PlaceForm} {step next : Writing Unit} {pieces others : Scopes → List Piece}
  {move further : Scopes → Scopes}

theorem Runs.congr {pieces' : Scopes → List Piece} {move' : Scopes → Scopes}
    (h : Runs form step pieces move) (hpieces : ∀ scopes, pieces scopes = pieces' scopes)
    (hmove : ∀ scopes, move scopes = move' scopes) : Runs form step pieces' move' := by
  intro d
  rw [h d, hpieces, hmove]

/-- What is written first comes first, and leaves its scopes to what is written next. -/
theorem Runs.bind (h : Runs form step pieces move) (hnext : Runs form next others further) :
    Runs form (step >>= fun _ => next) (fun scopes => pieces scopes ++ others (move scopes))
      fun scopes => further (move scopes) := by
  intro d
  rw [after_bind, h d, Piece.resolved?_append]
  cases Piece.resolved? (pieces d.scopes) with
  | none => rfl
  | some ps =>
    -- the next step finds the scopes that this one leaves, so its pieces are those under them
    simp only [Option.map_some, Option.bind_some, hnext _]
    cases Piece.resolved? (others (move d.scopes)) with
    | none => rfl
    | some qs =>
      simp only [Option.map_some, PlaceForm.pieces_append, Template.pushPieces, List.foldl_append]

/-- Both steps find and leave the same scopes. -/
theorem writes_bind (h : Writes form step pieces) (hnext : Writes form next others) :
    Writes form (step >>= fun _ => next) fun scopes => pieces scopes ++ others scopes :=
  h.bind hnext

theorem writes_nothing : Writes form (pure ()) fun _ => [] := by
  intro d
  cases form <;> rfl

theorem writes_dangling : Writes form failure fun _ => [.dangling] := by
  intro d
  rfl

theorem writes_text (s : String) : Writes form (write s) fun _ => [.text s] := by
  intro d
  cases form <;> rfl

theorem runs_openScope (scope : Scope) :
    Runs form (openScope scope) (fun _ => []) fun scopes => scope :: scopes := by
  intro d
  cases form <;> rfl

theorem runs_closeScope : Runs form closeScope (fun _ => []) List.tail := by
  intro d
  cases form <;> rfl

/-- A step that looks at the scopes before it writes. -/
theorem writes_of_scopes {next : Draft → Writing Unit}
    (h : ∀ d : Draft, Writes form (next d) fun _ => pieces d.scopes) :
    Writes form (get >>= next) pieces :=
  fun d => h d d

theorem Runs.surrounded (opening closing : String) (h : Writes form step pieces) :
    Writes form (surrounded opening closing step)
      fun scopes => .text opening :: pieces scopes ++ [.text closing] :=
  (writes_text opening).bind (h.bind (writes_text closing))

/-- A step that is taken only under a condition. -/
theorem Runs.onlyWhen (present : Bool) (h : Writes form step pieces) :
    Writes form (onlyWhen present step) fun scopes => if present then pieces scopes else [] := by
  cases present with
  | true => exact h
  | false => exact writes_nothing

/-- One of two steps. -/
theorem Runs.ite (present : Bool) (h : Writes form step pieces) (hnext : Writes form next others) :
    Writes form (if present = true then step else next)
      fun scopes => if present = true then pieces scopes else others scopes := by
  cases present with
  | true => exact h
  | false => exact hnext

theorem Runs.clauseWhen (present : Bool) (keyword : String) (h : Writes form step pieces) :
    Writes form (clauseWhen present keyword step)
      fun scopes => Render.clauseWhen present keyword (pieces scopes) :=
  ((writes_text keyword).bind h).onlyWhen present

theorem writes_separated (separator : String) {β : Type} {items : List β}
    {step : β → Writing Unit} {pieces : β → Scopes → List Piece}
    (h : ∀ item ∈ items, Writes form (step item) (pieces item)) :
    Writes form (separated separator (items.map step))
      fun scopes => Render.separated separator (items.map fun item => pieces item scopes) := by
  induction items with
  | nil => exact writes_nothing
  | cons item rest ih =>
    have hitem := h item List.mem_cons_self
    have hrest := ih fun other hother => h other (List.mem_cons_of_mem item hother)
    cases rest with
    | nil => exact hitem.congr (fun _ => (Render.separated_singleton _ _).symm) fun _ => rfl
    | cons other rest => exact hitem.bind ((writes_text separator).bind hrest)

end Rules

/-! ## Values -/

mutual

theorem after_literal (v : Json) (d : Draft) :
    (literal v).after d = some { d with template := d.template.pushPieces v.written } := by
  cases v with
  | array items => exact after_literals items d
  | bool b => cases b <;> rfl
  | _ => rfl

theorem after_literals (vs : List Json) (d : Draft) :
    (separated ", " (literals vs)).after d =
      some { d with template :=
        d.template.pushPieces (Render.separated ", " (Json.writtenAll vs)) } := by
  match vs with
  | [] => rfl
  | [v] =>
    rw [Json.writtenAll, Json.writtenAll, Render.separated_singleton]
    exact after_literal v d
  | v :: v' :: rest =>
    -- the separator goes to the draft that the first value leaves, the other values behind it
    have hrest : ∀ d, (write ", " >>= fun _ => separated ", " (literals (v' :: rest))).after d =
        some ⟨d.template.pushPieces
          (.text ", " :: Render.separated ", " (Json.writtenAll (v' :: rest))), d.scopes⟩ :=
      fun d => (after_bind _ _ d).trans (after_literals (v' :: rest) (d.write ", "))
    rw [Json.writtenAll, Json.writtenAll, Render.separated_cons_cons, Template.pushPieces,
      List.foldl_append]
    exact (after_bind _ _ d).trans (by rw [after_literal, Option.bind_some]; exact hrest _)

end

end Writing

namespace Writer

open Writing

variable (w : Writer)

theorem writes_value (v : Json) : Writes w.form (w.value v) fun _ => [.value v] := by
  intro d
  unfold value
  cases w.form with
  | place => rfl
  | inline =>
    rw [after_literal]
    simp [Piece.resolved?, Piece.isDangling, PlaceForm.pieces, Piece.inlined]

theorem writes_named (n : String) (expandable : Bool) :
    Writes w.form (w.named n expandable) fun _ => [.named n expandable] := by
  intro d
  unfold named
  cases w.form <;> rfl

theorem writes_limit (l : Limit) : Writes w.form (w.limit l) fun _ => Render.limit l := by
  refine (writes_text " limit ").bind ((w.writes_value _).bind ?_)
  cases l.offset with
  | none => exact writes_nothing
  | some offset => exact (writes_text " offset ").bind (w.writes_value _)

/-- The writer knows what the context knows, and writes derived tables as the context says. -/
structure Follows (w : Writer) (ctx : Render.Context) : Prop where
  catalog : w.catalog = ctx.catalog
  escape : w.escape = ctx.escape
  derived : ∀ id, Writes w.form (w.derived id) (ctx.derived id)

variable {w} {ctx : Render.Context}

namespace Follows

section Names

/-! ## Names -/

variable (h : w.Follows ctx)
include h

theorem name (s : String) : Writes w.form (w.name s) fun _ => Render.name ctx s := by
  unfold Writer.name Render.name
  rw [h.escape]
  exact writes_text _

theorem qualifiedName (t : Table) :
    Writes w.form (w.qualifiedName t) fun _ => Render.qualifiedName ctx t := by
  refine writes_bind ?_ ?_
  · cases t.schema with
    | none => exact writes_nothing
    | some schema => exact (h.name schema).bind (writes_text ".")
  · cases t.name with
    | none => exact writes_nothing
    | some n => exact h.name n

theorem tableName (id : TableId) :
    Writes w.form (w.tableName id) fun scopes => Render.tableName ctx scopes id := by
  unfold Writer.tableName Render.tableName
  rw [h.catalog]
  cases ctx.catalog.table? id with
  | none => exact writes_dangling
  | some t =>
    refine writes_of_scopes fun d => ?_
    simp only [Draft.aliasOf]
    cases d.scopes.aliasOf id with
    | some aliasName => exact h.name aliasName
    | none =>
      cases t.isDerived with
      | true => exact h.name _
      | false => exact h.qualifiedName t

theorem column (ref : ColumnRef) :
    Writes w.form (w.column ref) fun scopes => Render.column ctx scopes ref := by
  refine (h.tableName ref.table).bind ((writes_text ".").bind ?_)
  rw [h.catalog]
  cases ctx.catalog.column? ref with
  | some c => exact h.name c.name
  | none => exact writes_dangling

/-- The alias is looked up under the scopes that the statement of the table leaves. -/
theorem tableReference (id : TableId) :
    Writes w.form (w.tableReference id) fun scopes => Render.tableReference ctx scopes id := by
  have hby : ∀ s, Writes w.form (w.introducedBy s) fun _ => .text " as " :: Render.name ctx s :=
    fun s => (writes_text " as ").bind (h.name s)
  unfold Writer.tableReference Render.tableReference
  rw [h.catalog]
  cases ctx.catalog.table? id with
  | none => exact writes_dangling
  | some t =>
    refine writes_bind ?_ (writes_of_scopes fun d => ?_)
    · unfold Writer.introduced
      cases t.isDerived with
      | true => exact (h.derived id).surrounded "(" ")"
      | false => exact h.qualifiedName t
    · simp only [Draft.aliasOf]
      cases d.scopes.aliasOf id with
      | some aliasName => exact hby aliasName
      | none =>
        cases t.isDerived with
        | true => exact hby _
        | false => exact writes_nothing

end Names

/-! ## Expressions -/

mutual

theorem expression (h : w.Follows ctx) (e : Expression) :
    Writes w.form (w.expression e) fun scopes => Render.expression ctx scopes e := by
  cases e with
  | mk t aliasName => exact term h t

theorem term (h : w.Follows ctx) (t : Term) :
    Writes w.form (w.term t) fun scopes => Render.term ctx scopes t := by
  cases t with
  | column ref => exact h.column ref
  | value v => exact w.writes_value v
  | raw text => exact writes_text text
  | count es distinct =>
    refine ((writes_text "count(").bind (((writes_text "distinct ").onlyWhen distinct).bind
      (((writes_text "*").onlyWhen es.isEmpty).bind
        ((expressionList h es).bind (writes_text ")"))))).congr (fun scopes => ?_) fun _ => rfl
    simp [Render.term]
  | sum e => exact (expression h e).surrounded "sum(" ")"
  | minimum e => exact (expression h e).surrounded "min(" ")"
  | maximum e => exact (expression h e).surrounded "max(" ")"
  | cast e target sqlType =>
    exact (writes_text "cast(").bind ((expression h e).bind
      ((writes_text " as ").bind ((writes_text _).bind (writes_text ")"))))

/-- A list of expressions, with commas between them. -/
theorem expressionList (h : w.Follows ctx) (es : List Expression) :
    Writes w.form (separated ", " (w.expressionList es))
      fun scopes => Render.separated ", " (Render.expressionList ctx scopes es) := by
  match es with
  | [] => exact writes_nothing
  | [e] =>
    exact (expression h e).congr (fun _ => (Render.separated_singleton _ _).symm) fun _ => rfl
  | e :: e' :: rest =>
    exact (expression h e).bind ((writes_text ", ").bind (expressionList h (e' :: rest)))

end

/-! ## Operators -/

section Operators

variable (h : w.Follows ctx)
include h

theorem operand (value : Operand) :
    Writes w.form (w.operand value) fun scopes => Render.operand ctx scopes value := by
  cases value with
  | value v => exact w.writes_value v
  | named n => exact w.writes_named n false
  | expression e => exact h.expression e

theorem comparison (greater orEquals negated : Bool) (value : Operand) :
    Writes w.form (w.comparison greater orEquals negated value)
      fun scopes => Render.comparison ctx scopes greater orEquals negated value :=
  (writes_text _).bind (h.operand value)

theorem listItem (value : Operand) :
    Writes w.form (w.listItem value) fun scopes => Render.listItem ctx scopes value := by
  exact (writes_text "null").ite _ (h.operand value)

theorem inItems (negated : Bool) (items : List Operand) :
    Writes w.form (w.inItems negated items)
      fun scopes => Render.inItems ctx scopes negated items :=
  (writes_text _).bind
    ((writes_separated ", " fun item _ => h.listItem item).bind (writes_text ")"))

theorem likePattern (leading trailing : Bool) (pattern : Operand) :
    Writes w.form (w.likePattern leading trailing pattern)
      fun scopes => Render.likePattern ctx scopes leading trailing pattern := by
  cases pattern with
  | value v =>
    cases v with
    | string s => exact w.writes_value _
    | _ => exact w.writes_value _
  | named n => exact w.writes_named n false
  | expression e => exact h.expression e

theorem predicate (negated : Bool) (p : Predicate) :
    Writes w.form (w.predicate negated p)
      fun scopes => Render.predicate ctx scopes negated p := by
  cases p with
  | isNull => exact writes_text _
  | equals value => exact (writes_text _).ite _ ((writes_text _).bind (h.operand value))
  | greater value orEquals => exact (writes_text _).ite _ (h.comparison true orEquals negated value)
  | lower value orEquals => exact (writes_text _).ite _ (h.comparison false orEquals negated value)
  | between lower upper =>
    simp only [Writer.predicate, Render.predicate]
    cases lower.isNull <;> cases upper.isNull
    · exact (writes_text _).bind
        ((h.operand lower).bind ((writes_text " and ").bind (h.operand upper)))
    · exact h.comparison true false negated lower
    · exact h.comparison false false negated upper
    · exact writes_text _
  | isIn candidates =>
    cases candidates with
    | collection items =>
      cases items with
      | none => exact writes_text _
      | some items => exact h.inItems negated items
    | listed items => exact h.inItems negated items
    | named n => exact (writes_text _).bind ((w.writes_named n true).bind (writes_text ")"))
  | like pattern leading trailing =>
    exact (writes_text _).ite _ ((writes_text _).bind (h.likePattern leading trailing pattern))

theorem operator (op : Operator) :
    Writes w.form (w.operator op) fun scopes => Render.operator ctx scopes op :=
  h.predicate op.negated op.predicate

theorem condition (c : Condition) :
    Writes w.form (w.condition c) fun scopes => Render.condition ctx scopes c := by
  cases c with
  | text text => exact writes_text text
  | operator op => exact h.operator op

end Operators

/-! ## Criteria -/

mutual

theorem criterion (h : w.Follows ctx) (k : Criterion) :
    Writes w.form (w.criterion k) fun scopes => Render.criterion ctx scopes k := by
  cases k with
  | compare left c => exact (h.expression left).bind ((writes_text " ").bind (h.condition c))
  | raw fragments => exact fragmentList h fragments
  | nested chain => exact (links h true chain).surrounded "(" ")"

theorem fragment (h : w.Follows ctx) (f : Fragment) :
    Writes w.form (w.fragment f) fun scopes => Render.fragment ctx scopes f := by
  cases f with
  | text text => exact writes_text text
  | expression e => exact h.expression e
  | operator op => exact h.operator op
  | value v => exact w.writes_value v
  | criteria chain => exact (links h true chain).surrounded "(" ")"

theorem fragmentList (h : w.Follows ctx) (fs : List Fragment) :
    Writes w.form (w.fragmentList fs) fun scopes => Render.fragmentList ctx scopes fs := by
  cases fs with
  | nil => exact writes_nothing
  | cons f rest => exact (fragment h f).bind (fragmentList h rest)

theorem links (h : w.Follows ctx) (first : Bool) (chain : List Link) :
    Writes w.form (w.links first chain) fun scopes => Render.links ctx scopes first chain := by
  cases chain with
  | nil => exact writes_nothing
  | cons link rest =>
    obtain ⟨c, k⟩ := link
    have hcombinator : Writes w.form (combinator c) fun _ => Render.combinator c :=
      (writes_text " ").bind ((writes_text _).bind (writes_text " "))
    have hk := criterion h k
    have hrest := links h false rest
    have hskipped := links h first rest
    have hwritten := (hcombinator.onlyWhen (!first)).bind (hk.bind hrest)
    refine (hwritten.ite k.hasConditions hskipped).congr (fun scopes => ?_) fun _ => rfl
    cases first <;> simp [Render.links]

end

/-! ## Clauses -/

section Clauses

variable (h : w.Follows ctx)
include h

theorem projected (e : Expression) :
    Writes w.form (w.projected e) fun scopes => Render.projected ctx scopes e := by
  refine (h.expression e).bind ?_
  cases e.aliasName with
  | none => exact writes_nothing
  | some s => exact (writes_text " as ").bind (h.name s)

theorem select (q : Query) :
    Writes w.form (w.select q) fun scopes => Render.select ctx scopes q := by
  refine ((writes_text "select ").bind (((writes_text "distinct ").onlyWhen q.distinct).bind
    (writes_separated ", " fun e _ => h.projected e))).congr (fun scopes => ?_) fun _ => rfl
  simp [Render.select]

theorem columnsEqual (left right : ColumnRef) :
    Writes w.form (w.columnsEqual left right)
      fun scopes => Render.columnsEqual ctx scopes left right :=
  (h.column left).bind ((writes_text " = ").bind (h.column right))

theorem join (j : Join) :
    Writes w.form (w.join j) fun scopes => Render.join ctx scopes j := by
  cases j with
  | cross right => exact (writes_text "cross join ").bind (h.tableReference right)
  | raw direction right condition =>
    exact (writes_text _).bind ((writes_text " ").bind ((h.tableReference right).bind
      ((writes_text " on ").bind (writes_text condition))))
  | column direction left right =>
    exact (writes_text _).bind ((writes_text " ").bind ((h.tableReference right.table).bind
      ((writes_text " on ").bind (h.columnsEqual left right))))
  | key direction left right =>
    cases right with
    | nil => exact writes_nothing
    | cons first rest =>
      -- the equalities are written pair by pair, in the order of the columns
      have hpair : ∀ pair ∈ left.zip (first :: rest),
          Writes w.form (w.columnsEqual pair.1 pair.2)
            fun scopes => Render.columnsEqual ctx scopes pair.1 pair.2 :=
        fun pair _ => h.columnsEqual pair.1 pair.2
      have hequal := writes_separated " and " hpair
      have hkey := (writes_text direction.keyword).bind ((writes_text " ").bind
        ((h.tableReference first.table).bind ((writes_text " on ").bind hequal)))
      simp only [List.map_zip_eq_zipWith] at hkey
      exact hkey

theorem joins (js : List Join) :
    Writes w.form (w.joins js) fun scopes => js.flatMap fun j =>
      match j.rightTable? with
      | some _ => .text " " :: Render.join ctx scopes j
      | none => [] := by
  induction js with
  | nil => exact writes_nothing
  | cons j rest ih =>
    refine writes_bind ?_ ih
    beta_reduce
    cases j.rightTable? with
    | none => exact writes_nothing
    | some _ => exact (writes_text " ").bind (h.join j)

/-- What the clause opens it closes. -/
theorem fromClause (f : FromClause) :
    Writes w.form (w.fromClause f) fun scopes => Render.fromClause ctx scopes f := by
  unfold Writer.fromClause Render.fromClause
  cases f.root with
  | none => exact writes_nothing
  | some root =>
    refine ((runs_openScope f.scope).bind ((writes_text " from ").bind
      ((h.tableReference root).bind ((h.joins f.joins).bind runs_closeScope)))).congr
      (fun scopes => ?_) fun _ => rfl
    rw [List.append_nil]
    rfl

theorem sortKey (k : SortKey) :
    Writes w.form (w.sortKey k) fun scopes => Render.sortKey ctx scopes k := by
  refine (h.expression k.expression).bind ?_
  cases k.order with
  | none => exact writes_nothing
  | some order => exact (writes_text " ").bind (writes_text order.keyword)

theorem ordering (keys : List SortKey) :
    Writes w.form (w.ordering keys) fun scopes => Render.ordering ctx scopes keys :=
  writes_separated ", " fun k _ => h.sortKey k

/-- All clauses are written under the scope that the query opens, and closes behind them. -/
theorem query (q : Query) :
    Writes w.form (w.query q) fun scopes => Render.query ctx scopes q := by
  have hlimit : Writes w.form (q.limit.forM w.limit) fun _ => q.limit.elim [] Render.limit := by
    cases q.limit with
    | none => exact writes_nothing
    | some l => exact w.writes_limit l
  refine ((runs_openScope q.source.scope).bind ((h.select q).bind ((h.fromClause q.source).bind
    (((h.links true q.filter).clauseWhen _ " where ").bind
      (((h.expressionList q.groups).clauseWhen _ " group by ").bind
        (((h.links true q.having).clauseWhen _ " having ").bind
          (((h.ordering q.ordering).clauseWhen _ " order by ").bind
            (hlimit.bind runs_closeScope)))))))).congr (fun scopes => ?_) fun _ => rfl
  unfold Render.query
  cases q.limit <;> simp [Render.criteria, Render.expressions]

theorem union (u : Union) :
    Writes w.form (w.union u) fun scopes => Render.union ctx scopes u :=
  writes_separated " union all " fun q _ => h.query q

theorem statement (s : Statement) :
    Writes w.form (w.statement s) fun scopes => Render.statement ctx scopes s := by
  cases s with
  | query q => exact h.query q
  | union u => exact h.union u

end Clauses

end Follows

/-! ## Writers for a catalog -/

theorem form_below (catalog : Catalog) (escape : String → String) (form : PlaceForm) (n : Nat) :
    (below catalog escape form n).form = form := by
  cases n <;> rfl

/-- The statements of the tables below a position are written as in their context. -/
theorem follows_below (catalog : Catalog) (escape : String → String) (form : PlaceForm) (n : Nat) :
    (below catalog escape form n).Follows (.below catalog escape n) := by
  induction n with
  | zero => exact ⟨rfl, rfl, fun _ => writes_dangling⟩
  | succ n ih =>
    refine ⟨rfl, rfl, fun id => ?_⟩
    have hform := form_below catalog escape form n
    show Writes form (if id = n then _ else _) fun scopes => if id = n then _ else _
    by_cases hid : id = n
    · -- its statement is left to the writer for the tables before it
      simp only [if_pos hid]
      cases (catalog.table? n).bind (·.body) with
      | none => exact writes_nothing
      | some body => simpa only [hform] using ih.statement body
    · simp only [if_neg hid]
      simpa only [hform] using ih.derived id

end Writer

end SqlGraph
