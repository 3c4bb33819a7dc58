import SqlGraph.Proofs.Catalog.Growth
import SqlGraph.Proofs.Render.Prepared

/-!
# Statements stay as they are while the catalog grows

Tables are only appended to a catalog and columns only added at the end of a table. So whatever was
written of a catalog is written the same of the catalog it grows into: a piece list that does not
dangle is kept (`Piece.Keeps`), name by name, then derived table by derived table up to the position
of each (`Render.Context.grown_below`), and so for every statement: `Catalog.statement_runAll`.

Nothing is asked of the operations. What they register may even be ill-formed, as a statement that
was written does not mention it.
-/

namespace SqlGraph

/-- Pieces without a dangling one are kept as they are. -/
def Piece.Keeps (ps qs : List Piece) : Prop := Piece.dangles ps = false → qs = ps

namespace Piece.Keeps

theorem of_eq {ps qs : List Piece} (h : ps = qs) : Keeps ps qs := fun _ => h.symm

theorem of_dangles {ps qs : List Piece} (h : Piece.dangles ps = true) : Keeps ps qs := by
  intro hnot
  rw [h] at hnot
  contradiction

/-- What is read off pieces that do not dangle is read off those that keep them. -/
theorem resolved? {ps qs rs : List Piece} (h : Keeps ps qs) (hrs : Piece.resolved? ps = some rs) :
    Piece.resolved? qs = some rs := by
  have hnot : Piece.dangles ps = false := by
    unfold Piece.resolved? at hrs
    split at hrs
    · simp at hrs
    · exact Bool.eq_false_iff.mpr ‹_›
  rw [h hnot]
  exact hrs

end Piece.Keeps

/-- A concatenation dangles when one of its parts does. -/
theorem Piece.Compatible.keeps : Piece.Compatible Piece.Keeps where
  nil _ := rfl
  single _ _ _ := rfl
  append h h' hnot := by
    rw [Render.dangles_append, Bool.or_eq_false_iff] at hnot
    rw [h hnot.1, h' hnot.2]

namespace Render

/-! ## Contexts of a catalog and of one it grows into -/

/-- The second context is of a catalog that the first one's grows into, and keeps what the first
one writes for the tables it has. -/
structure Context.Grown (ctx ctx' : Context) : Prop where
  catalog : ctx.catalog.Grown ctx'.catalog
  escape : ctx.escape = ctx'.escape
  derived : ∀ id t scopes, ctx.catalog.table? id = some t →
    Piece.Keeps (ctx.derived id scopes) (ctx'.derived id scopes)

section Grown

variable {ctx ctx' : Context} (h : ctx.Grown ctx')
include h

theorem name_grown (s : String) : name ctx s = name ctx' s := by
  unfold name
  rw [h.escape]

theorem qualifiedName_grown {t t' : Table} (ht : t.Grown t') :
    qualifiedName ctx t = qualifiedName ctx' t' := by
  unfold qualifiedName
  simp only [ht.schema, ht.name, name_grown h]

theorem tableName_grown (scopes : Scopes) (id : TableId) :
    Piece.Keeps (tableName ctx scopes id) (tableName ctx' scopes id) := by
  unfold tableName
  cases htable : ctx.catalog.table? id with
  | none => exact .of_dangles rfl
  | some t =>
    obtain ⟨t', htable', ht⟩ := h.catalog id t htable
    rw [htable']
    refine .of_eq ?_
    simp only [ht.isDerived, ht.nameAt, name_grown h, qualifiedName_grown h ht]

theorem column_grown (scopes : Scopes) (ref : ColumnRef) :
    Piece.Keeps (column ctx scopes ref) (column ctx' scopes ref) := by
  refine Piece.Compatible.keeps.append (tableName_grown h scopes ref.table) ?_
  refine Piece.Compatible.keeps.text_cons "." ?_
  cases hcolumn : ctx.catalog.column? ref with
  | none => exact .of_dangles rfl
  | some c =>
    rw [h.catalog.column? hcolumn]
    exact .of_eq (name_grown h c.name)

theorem tableReference_grown (scopes : Scopes) (id : TableId) :
    Piece.Keeps (tableReference ctx scopes id) (tableReference ctx' scopes id) := by
  unfold tableReference
  cases htable : ctx.catalog.table? id with
  | none => exact .of_dangles rfl
  | some t =>
    obtain ⟨t', htable', ht⟩ := h.catalog id t htable
    rw [htable']
    simp only [ht.isDerived, ht.nameAt]
    refine Piece.Compatible.keeps.append ?_ (.of_eq (by simp only [name_grown h]))
    -- the statement of a derived table is kept, the name of another one is the same
    cases t.isDerived with
    | true =>
      exact Piece.Compatible.keeps.concat_text
        (Piece.Compatible.keeps.text_cons "(" (h.derived id t scopes htable)) ")"
    | false => exact .of_eq (qualifiedName_grown h ht)

theorem statement_grown (scopes : Scopes) (s : Statement) :
    Piece.Keeps (statement ctx scopes s) (statement ctx' scopes s) := by
  have hname : ∀ s, Piece.Keeps (name ctx s) (name ctx' s) := fun s => .of_eq (name_grown h s)
  refine statement_related_self .keeps fun q _ => ?_
  exact query_related_self .keeps hname (fun ref _ => column_grown h _ ref)
    fun id _ => tableReference_grown h _ id

end Grown

/-- What a context of a catalog writes for the tables below a position is kept: a derived table
stays where it is, and its statement is written in the contexts of its own position. -/
theorem Context.grown_below {c c' : Catalog} (h : c.Grown c') (escape : String → String)
    {n n' : Nat} (hn : n ≤ n') : (below c escape n).Grown (below c' escape n') := by
  induction n using Nat.strongRecOn generalizing n' with
  | ind n ih =>
    refine ⟨?_, ?_, fun id t scopes htable => ?_⟩
    · rwa [catalog_below, catalog_below]
    · rw [escape_below, escape_below]
    · rw [catalog_below] at htable
      obtain ⟨t', htable', ht⟩ := h id t htable
      rw [derived_below, derived_below, htable, htable', Option.bind_some, Option.bind_some,
        ht.body]
      by_cases hid : id < n
      · rw [if_pos hid, if_pos (Nat.lt_of_lt_of_le hid hn)]
        cases t.body with
        | none => exact .of_eq rfl
        | some body => exact statement_grown (ih id hid (Nat.le_refl id)) scopes body
      · rw [if_neg hid]
        exact .of_dangles rfl

/-- A statement that is written of a catalog is written the same of one that it grows into. -/
theorem statement_ofCatalog_grown {c c' : Catalog} (h : c.Grown c') (escape : String → String)
    (scopes : Scopes) (s : Statement) :
    Piece.Keeps (statement (.ofCatalog c escape) scopes s)
      (statement (.ofCatalog c' escape) scopes s) :=
  statement_grown (Context.grown_below h escape h.size_le) scopes s

end Render

/-- Whatever is asked of a catalog, a statement that was written with its values written out, or
with placeholders, is written the same afterwards. A statement is written when its references
resolve, within the catalog and within its derived tables. -/
theorem Catalog.statement_runAll (c : Catalog) (ops : List Operation) (escape : String → String)
    (s : Statement) :
    (∀ text, Inline.statement? c escape s = some text →
      Inline.statement? (Operation.runAll c ops) escape s = some text) ∧
    (∀ t, Prepared.statement? c escape s = some t →
      Prepared.statement? (Operation.runAll c ops) escape s = some t) ∧
    (c.layered = true → s.resolves c c.size = true →
      (Inline.statement? c escape s).isSome = true ∧
        (Prepared.statement? c escape s).isSome = true) := by
  have hkeeps := Render.statement_ofCatalog_grown (Operation.grown_runAll c ops) escape [] s
  refine ⟨fun text htext => ?_, fun t ht => ?_, fun hlayered hs => ?_⟩
  · obtain ⟨ps, hps, hwritten⟩ := Option.map_eq_some_iff.mp htext
    exact Option.map_eq_some_iff.mpr ⟨ps, hkeeps.resolved? hps, hwritten⟩
  · obtain ⟨ps, hps, hwritten⟩ := Option.map_eq_some_iff.mp ht
    exact Option.map_eq_some_iff.mpr ⟨ps, hkeeps.resolved? hps, hwritten⟩
  · exact ⟨Inline.isSome_statement? c escape s hlayered hs,
      Prepared.isSome_statement? c escape s hlayered hs⟩

/-- One of everything: a column of the orders, copies of both tables, one of them for a join, the
page as a derived table, and a table in a schema. -/
def shopGrowth : List Catalog.Operation := [
  .addColumn 0 "shipped" .boolean,
  .cloneTable 1,
  .join ⟨[{ name := "order", table := 0, aliasName := "orders" }]⟩ "order" "again" .inner
    [⟨0, 0⟩] [⟨0, 0⟩],
  .wrap cheapPage none,
  .addTable (some "archive") "orders"]

/-- The shop has grown by a column and four tables, and the page is still written the same. -/
theorem statement_runAll_cheapPage :
    (Catalog.Operation.runAll shop shopGrowth).size = 6 ∧
      Catalog.hasColumn shop ⟨0, 2⟩ = false ∧
      (Catalog.Operation.runAll shop shopGrowth).hasColumn ⟨0, 2⟩ = true ∧
      ∃ text t, Inline.statement? shop id cheapPage = some text ∧
        Inline.statement? (Catalog.Operation.runAll shop shopGrowth) id cheapPage = some text ∧
        Prepared.statement? shop id cheapPage = some t ∧
        Prepared.statement? (Catalog.Operation.runAll shop shopGrowth) id cheapPage = some t := by
  obtain ⟨hinline, hprepared, hwritten⟩ := shop.statement_runAll shopGrowth id cheapPage
  obtain ⟨hsome, hsome'⟩ := hwritten (by decide) (by decide)
  obtain ⟨text, htext⟩ := Option.isSome_iff_exists.mp hsome
  obtain ⟨t, ht⟩ := Option.isSome_iff_exists.mp hsome'
  exact ⟨by decide, by decide, by decide, text, t, htext, hinline text htext, ht, hprepared t ht⟩

end SqlGraph
