import SqlGraph.Proofs.Render.Marks
import SqlGraph.Proofs.Render.Writing
import SqlGraph.Proofs.Template.Merging

/-!
# Writing is compositional

What a writer is asked to write is a clause of some form (`Clause`). Into whatever draft a clause is
written, it comes out as in an empty draft under the same scopes, merged with what is there already
(`Writer.clause_composes`). The members of a union are written one by one, each as if it stood
alone.

A statement that is written step by step into an empty draft gives its prepared or its inline form
(`Writer.prepared_eq`, `Writer.inline_eq`).
-/

namespace SqlGraph

/-- What a writer can be asked to write. -/
inductive Clause where
  | statement (s : Statement)
  | query (q : Query)
  | union (u : Union)
  | select (q : Query)
  | fromClause (f : FromClause)
  | join (j : Join)
  | tableReference (id : TableId)
  | tableName (id : TableId)
  | qualifiedName (t : Table)
  | column (ref : ColumnRef)
  | name (s : String)
  | expression (e : Expression)
  | term (t : Term)
  | expressions (es : List Expression)
  | criteria (cs : Criteria)
  | criterion (k : Criterion)
  | operator (op : Operator)
  | nullCheck (negated : Bool)
  | comparison (greater orEquals negated : Bool) (o : Operand)
  | operand (o : Operand)
  | ordering (keys : List SortKey)
  | limit (l : Limit)
  | value (v : Json)
  | named (name : String) (expandable : Bool)

/-- The pieces of a clause. -/
def Clause.pieces (ctx : Render.Context) (scopes : Scopes) : Clause → List Piece
  | .statement s => Render.statement ctx scopes s
  | .query q => Render.query ctx scopes q
  | .union u => Render.union ctx scopes u
  | .select q => Render.select ctx scopes q
  | .fromClause f => Render.fromClause ctx scopes f
  | .join j => Render.join ctx scopes j
  | .tableReference id => Render.tableReference ctx scopes id
  | .tableName id => Render.tableName ctx scopes id
  | .qualifiedName t => Render.qualifiedName ctx t
  | .column ref => Render.column ctx scopes ref
  | .name s => Render.name ctx s
  | .expression e => Render.expression ctx scopes e
  | .term t => Render.term ctx scopes t
  | .expressions es => Render.expressions ctx scopes es
  | .criteria cs => Render.criteria ctx scopes cs
  | .criterion k => Render.criterion ctx scopes k
  | .operator op => Render.operator ctx scopes op
  | .nullCheck negated => Render.nullCheck negated
  | .comparison greater orEquals negated o =>
    Render.comparison ctx scopes greater orEquals negated o
  | .operand o => Render.operand ctx scopes o
  | .ordering keys => Render.ordering ctx scopes keys
  | .limit l => Render.limit l
  | .value v => [.value v]
  | .named n expandable => [.named n expandable]

/-! ## Pieces in a row -/

namespace Piece

/-- Of lists of pieces none may dangle. -/
theorem mapM_resolved? (items : List (List Piece)) :
    items.mapM resolved? =
      if items.any (·.any isDangling) then none else some items := by
  induction items with
  | nil => rfl
  | cons ps rest ih =>
    rw [List.mapM_cons, ih]
    unfold resolved?
    rw [List.any_cons]
    cases ps.any isDangling <;> cases rest.any (·.any isDangling) <;> rfl

theorem any_isDangling_separated (separator : String) (items : List (List Piece)) :
    (Render.separated separator items).any isDangling = items.any (·.any isDangling) := by
  induction items with
  | nil => rfl
  | cons ps rest ih =>
    cases rest with
    | nil => simp [Render.separated_singleton]
    | cons qs rest =>
      rw [Render.separated_cons_cons, List.any_append, List.any_cons, ih, List.any_cons]
      rfl

/-- Lists with a text between them are resolved when each of them is. -/
theorem resolved?_separated (separator : String) (items : List (List Piece)) :
    resolved? (Render.separated separator items) =
      (items.mapM resolved?).map (Render.separated separator) := by
  rw [mapM_resolved?, resolved?, any_isDangling_separated]
  cases items.any (·.any isDangling) <;> rfl

end Piece

theorem PlaceForm.pieces_separated (form : PlaceForm) (separator : String)
    (items : List (List Piece)) :
    form.pieces (Render.separated separator items) =
      Render.separated separator (items.map form.pieces) := by
  induction items with
  | nil => cases form <;> rfl
  | cons ps rest ih =>
    cases rest with
    | nil => simp [Render.separated_singleton]
    | cons qs rest =>
      have htext : ∀ ps, form.pieces (.text separator :: ps) = .text separator :: form.pieces ps := by
        cases form <;> exact fun _ => rfl
      rw [Render.separated_cons_cons, form.pieces_append, htext, ih]
      rfl

/-! ## Pieces written out -/

theorem Inline.text_separated (separator : String) (items : List (List Piece)) :
    Inline.text (Render.separated separator items) =
      separator.intercalate (items.map Inline.text) := by
  induction items with
  | nil => rfl
  | cons ps rest ih =>
    cases rest with
    | nil => simp [Render.separated_singleton]
    | cons qs rest =>
      have htext : ∀ ps, Inline.text (.text separator :: ps) = separator ++ Inline.text ps :=
        fun ps => by simp [Inline.text, Inline.piece]
      rw [Render.separated_cons_cons, Inline.text_append, htext, ih]
      simp only [List.map_cons, String.intercalate_cons_cons, String.append_assoc]

mutual

theorem Json.marks_written (v : Json) : Piece.marks v.written = [] := by
  cases v with
  | array items =>
    show Piece.marks (Render.separated ", " (Json.writtenAll items)) = []
    rw [Render.marks_separated, List.flatMap_eq_nil_iff]
    exact Json.marks_writtenAll items
  | bool b => cases b <;> rfl
  | _ => rfl

theorem Json.marks_writtenAll (vs : List Json) :
    ∀ ps ∈ Json.writtenAll vs, Piece.marks ps = [] := by
  cases vs with
  | nil => simp [Json.writtenAll]
  | cons v rest =>
    intro ps hps
    obtain rfl | hps := List.mem_cons.mp hps
    · exact Json.marks_written v
    · exact Json.marks_writtenAll rest ps hps

end

mutual

/-- The parts of a value written out are its literal. -/
theorem Json.text_written (v : Json) : Inline.text v.written = v.literal := by
  cases v with
  | array items =>
    show Inline.text (Render.separated ", " (Json.writtenAll items)) =
      ", ".intercalate (Json.literals items)
    rw [Inline.text_separated, Json.text_writtenAll items]
  | bool b => cases b <;> simp [Json.written, Json.literal, Inline.text, Inline.piece]
  | _ => simp [Json.written, Json.literal, Inline.text, Inline.piece]

theorem Json.text_writtenAll (vs : List Json) :
    (Json.writtenAll vs).map Inline.text = Json.literals vs := by
  cases vs with
  | nil => rfl
  | cons v rest =>
    rw [Json.writtenAll, Json.literals, List.map_cons, Json.text_written v,
      Json.text_writtenAll rest]

end

namespace Piece

/-- Nothing that is written out leaves a place. -/
theorem marks_inlined (ps : List Piece) : marks (PlaceForm.inline.pieces ps) = [] := by
  show marks (ps.flatMap inlined) = []
  induction ps with
  | nil => rfl
  | cons p rest ih =>
    rw [List.flatMap_cons, marks_append, ih, List.append_nil]
    cases p with
    | value v => exact v.marks_written
    | _ => rfl

/-- Pieces written out have the text of the pieces. -/
theorem text_inlined (ps : List Piece) :
    Inline.text (PlaceForm.inline.pieces ps) = Inline.text ps := by
  show Inline.text (ps.flatMap inlined) = _
  induction ps with
  | nil => rfl
  | cons p rest ih =>
    have hp : Inline.text p.inlined = Inline.piece p := by
      cases p with
      | value v => exact v.text_written
      | _ => simp [inlined, Inline.text, Inline.piece]
    rw [List.flatMap_cons, Inline.text_append, ih, hp]
    simp [Inline.text]

end Piece

namespace Template

theorem text_pushText (t : Template) (s : String) : (t.pushText s).text = t.text ++ s := by
  have hlast : ∀ segments, String.join ((appendText s segments).map segmentText) =
      String.join (segments.map segmentText) ++ s := by
    intro segments
    fun_induction appendText s segments with
    | case1 => simp [segmentText]
    | case2 t => simp [segmentText]
    | case3 segment rest _ ih => simp [ih, String.append_assoc]
  exact hlast t.segments

/-- Pieces without places add their text. -/
theorem text_pushPieces (t : Template) {ps : List Piece} (h : Piece.marks ps = []) :
    (t.pushPieces ps).text = t.text ++ Inline.text ps := by
  induction ps generalizing t with
  | nil => exact String.append_empty.symm
  | cons p rest ih =>
    cases p with
    | text s =>
      show ((t.pushText s).pushPieces rest).text = _
      rw [ih _ h, text_pushText, String.append_assoc]
      simp [Inline.text, Inline.piece]
    | value v => simp at h
    | named n expandable => simp at h
    | dangling =>
      show (t.pushPieces rest).text = _
      rw [ih _ h]
      simp [Inline.text, Inline.piece]

end Template

namespace Writer

/-- A clause, step by step. -/
def clause (w : Writer) : Clause → Writing Unit
  | .statement s => w.statement s
  | .query q => w.query q
  | .union u => w.union u
  | .select q => w.select q
  | .fromClause f => w.fromClause f
  | .join j => w.join j
  | .tableReference id => w.tableReference id
  | .tableName id => w.tableName id
  | .qualifiedName t => w.qualifiedName t
  | .column ref => w.column ref
  | .name s => w.name s
  | .expression e => w.expression e
  | .term t => w.term t
  | .expressions es => w.expressions es
  | .criteria cs => w.criteria cs
  | .criterion k => w.criterion k
  | .operator op => w.operator op
  | .nullCheck negated => nullCheck negated
  | .comparison greater orEquals negated o => w.comparison greater orEquals negated o
  | .operand o => w.operand o
  | .ordering keys => w.ordering keys
  | .limit l => w.limit l
  | .value v => w.value v
  | .named n expandable => w.named n expandable

open Writing

theorem Follows.clause {w : Writer} {ctx : Render.Context} (h : w.Follows ctx) (c : Clause) :
    Writes w.form (w.clause c) fun scopes => c.pieces ctx scopes := by
  cases c with
  | statement s => exact h.statement s
  | query q => exact h.query q
  | union u => exact h.union u
  | select q => exact h.select q
  | fromClause f => exact h.fromClause f
  | join j => exact h.join j
  | tableReference id => exact h.tableReference id
  | tableName id => exact h.tableName id
  | qualifiedName t => exact h.qualifiedName t
  | column ref => exact h.column ref
  | name s => exact h.name s
  | expression e => exact h.expression e
  | term t => exact h.term t
  | expressions es => exact h.expressionList es
  | criteria cs => exact h.links true cs
  | criterion k => exact h.criterion k
  | operator op => exact h.operator op
  | nullCheck negated => exact writes_text _
  | comparison greater orEquals negated o => exact h.comparison greater orEquals negated o
  | operand o => exact h.operand o
  | ordering keys => exact h.ordering keys
  | limit l => exact w.writes_limit l
  | value v => exact w.writes_value v
  | named n expandable => exact w.writes_named n expandable

/-! ## Into any draft -/

/-- A step that writes pieces writes the same into every draft, behind what is there. -/
theorem after_eq_merge {form : PlaceForm} {step : Writing Unit} {pieces : Scopes → List Piece}
    (h : Writes form step pieces) (d : Draft) :
    step.after d = (step.after ⟨{}, d.scopes⟩).map fun fresh =>
      ⟨d.template.merge fresh.template, d.scopes⟩ := by
  rw [h d, h ⟨{}, d.scopes⟩, Option.map_map]
  congr 1
  funext ps
  exact congrArg (Draft.mk · d.scopes) (d.template.pushPieces_eq_merge _)

section Union

variable {w : Writer} {ctx : Render.Context} (h : w.Follows ctx)
include h

theorem mapM_query_after (scopes : Scopes) (qs : List Query) :
    (qs.mapM fun q => (w.query q).after ⟨{}, scopes⟩) =
      ((qs.map (Render.query ctx scopes)).mapM Piece.resolved?).map fun items =>
        items.map fun ps => ⟨Template.ofPieces (w.form.pieces ps), scopes⟩ := by
  induction qs with
  | nil => rfl
  | cons q rest ih =>
    rw [List.mapM_cons, ih, List.map_cons, List.mapM_cons, h.query q]
    cases Piece.resolved? (Render.query ctx scopes q) with
    | none => rfl
    | some ps =>
      cases (rest.map (Render.query ctx scopes)).mapM Piece.resolved? <;> rfl

/-- The members of a union are written one by one, each as into an empty draft. -/
theorem union_after (u : Union) (d : Draft) :
    (w.union u).after d =
      (u.queries.mapM fun q => (w.query q).after ⟨{}, d.scopes⟩).map fun members =>
        ⟨d.template.merge (Template.joined " union all " (members.map (·.template))),
          d.scopes⟩ := by
  have hpieces : ∀ items, w.form.pieces (Render.separated " union all " items) =
      Render.separated " union all " (items.map w.form.pieces) := w.form.pieces_separated _
  rw [h.union u d, mapM_query_after h]
  unfold Render.union
  rw [Piece.resolved?_separated, Option.map_map, Option.map_map]
  congr 1
  funext items
  -- the templates of the members are those of their pieces
  have hmembers : ∀ member : List Piece → Draft,
      (∀ ps, (member ps).template = Template.ofPieces (w.form.pieces ps)) →
        (items.map member).map (·.template) = (items.map w.form.pieces).map Template.ofPieces := by
    intro member hmember
    rw [List.map_map, List.map_map]
    exact List.map_congr_left fun ps _ => hmember ps
  simp only [Function.comp_apply]
  rw [hpieces, Template.pushPieces_eq_merge, ← Template.joined_map_ofPieces,
    hmembers _ fun _ => rfl]

end Union

/-- Whatever a writer of the catalog is asked to write, and into whatever draft: the clause comes
out as in an empty draft under the same scopes, merged with what is there already; so nothing that
has been written or bound changes, but that a name may become expandable, and the scopes are as
before. The members of a union are written independently, with `union all` between them. What is
written is the pieces of the clause. -/
theorem clause_composes (catalog : Catalog) (escape : String → String) (form : PlaceForm)
    (c : Clause) (d : Draft) :
    let w := ofCatalog catalog escape form
    ((w.clause c).after d =
      ((w.clause c).after ⟨{}, d.scopes⟩).map fun fresh =>
        ⟨d.template.merge fresh.template, d.scopes⟩) ∧
    (∀ d', (w.clause c).after d = some d' →
      d'.scopes = d.scopes ∧ d.template.Continues d'.template) ∧
    (∀ u, (w.union u).after d =
      (u.queries.mapM fun q => (w.query q).after ⟨{}, d.scopes⟩).map fun members =>
        ⟨d.template.merge (Template.joined " union all " (members.map (·.template))),
          d.scopes⟩) ∧
    (w.clause c).after d =
      (Piece.resolved? (c.pieces (.ofCatalog catalog escape) d.scopes)).map fun ps =>
        ⟨d.template.pushPieces (form.pieces ps), d.scopes⟩ := by
  intro w
  have hform : w.form = form := form_below catalog escape form catalog.size
  have hfollows : w.Follows (.ofCatalog catalog escape) :=
    follows_below catalog escape form catalog.size
  have hmerge := after_eq_merge (hfollows.clause c) d
  refine ⟨hmerge, fun d' hd => ?_, fun u => union_after hfollows u d, ?_⟩
  · rw [hmerge, Option.map_eq_some_iff] at hd
    obtain ⟨fresh, -, rfl⟩ := hd
    exact ⟨rfl, Template.continues_merge _ _⟩
  · rw [← hform]
    exact hfollows.clause c d

/-- A draft with a value and a name, and clauses of which one lets the name expand and one brings
another value. -/
private def begun : Draft :=
  ⟨.ofPieces [.text "a = ", .value (.ofNat 1), .text " or b = ", .named "ids" false,
    .text " or "], [.ofList []]⟩

private def twoMore : Clause := .criteria
  [.mk none (.compare (.ofTerm (.raw "b")) (.operator (.inNamed "ids"))),
    .mk (some .or) (.compare (.ofTerm (.raw "a")) (.operator (.eq (.value (.ofNat 2)))))]

/-- The new value gets the next number, and the name that was there expands from now on. -/
theorem clause_composes_begun :
    ∃ d', ((ofCatalog ⟨[]⟩ id .place).clause twoMore).after begun = some d' ∧
      d'.scopes = begun.scopes ∧ begun.template.Continues d'.template ∧
      d'.template.bindings = [(.index 1, ⟨some (.ofNat 1), false⟩), (.named "ids", ⟨none, true⟩),
        (.index 2, ⟨some (.ofNat 2), false⟩)] := by
  obtain ⟨-, hkept, -, -⟩ := clause_composes ⟨[]⟩ id .place twoMore begun
  obtain ⟨hscopes, hcontinues⟩ := hkept _ rfl
  exact ⟨_, rfl, hscopes, hcontinues, rfl⟩

/-! ## Statements on their own -/

/-- A statement that is written step by step into an empty draft gives its prepared form. -/
theorem prepared_eq (catalog : Catalog) (escape : String → String) (s : Statement) :
    (((ofCatalog catalog escape .place).statement s).after {}).map (·.template) =
      Prepared.statement? catalog escape s := by
  have hs := (follows_below catalog escape .place catalog.size).statement s {}
  rw [form_below] at hs
  rw [ofCatalog, hs, Option.map_map]
  rfl

/-- With values and names written out, its text is the inline form. -/
theorem inline_eq (catalog : Catalog) (escape : String → String) (s : Statement) :
    (((ofCatalog catalog escape .inline).statement s).after {}).map (·.template.text) =
      Inline.statement? catalog escape s := by
  have hs := (follows_below catalog escape .inline catalog.size).statement s {}
  rw [form_below] at hs
  rw [ofCatalog, hs, Option.map_map]
  unfold Inline.statement? Inline.text?
  congr 1
  funext ps
  show (Template.pushPieces {} (PlaceForm.inline.pieces ps)).text = Inline.text ps
  rw [Template.text_pushPieces _ (Piece.marks_inlined ps), Piece.text_inlined]
  exact String.empty_append

end Writer

end SqlGraph
