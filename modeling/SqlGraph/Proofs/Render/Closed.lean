import SqlGraph.Proofs.Render.Nesting
import SqlGraph.Template.Draft

/-!
# Closed statements

A query is closed when each of its columns is of a table that its own from clause names, and a
statement when its queries are closed and so are the statements of the tables it writes out
(`Catalog.Closed`). A closed statement is written alike under all stacks of scopes, standing alone
or as a derived table: no alias of a statement around it is seen within.
-/

namespace SqlGraph

/-- Each column of a query is of a table that its from clause names. -/
def Query.OwnsRefs (q : Query) : Prop := ∀ ref ∈ q.refs, q.source.Names ref.table

instance (q : Query) : Decidable q.OwnsRefs := inferInstanceAs (Decidable (∀ ref ∈ q.refs, _))

/-- Each query of the statement owns its columns, and the derived tables of its from clauses stand
for closed statements. -/
inductive Catalog.Closed (c : Catalog) : Statement → Prop where
  | intro {s : Statement} (own : ∀ q ∈ s.queries, q.OwnsRefs)
    (nested : ∀ id ∈ s.sources, ∀ body, c.body? id = some body → c.Closed body) : c.Closed s

namespace Render

section Scopes

variable {catalog : Catalog} (escape : String → String)

/-- A closed statement is written alike under all scopes in a context that so writes its derived
tables. -/
theorem statement_scopes {ctx : Context} {s : Statement} (own : ∀ q ∈ s.queries, q.OwnsRefs)
    (hderived : ∀ id ∈ s.sources, ∀ scopes scopes', ctx.derived id scopes = ctx.derived id scopes')
    (scopes scopes' : Scopes) : statement ctx scopes s = statement ctx scopes' s := by
  have hsame : ctx.SameNames ctx := ⟨rfl, rfl⟩
  refine statement_congr fun q hq => query_congr hsame (fun ref href => ?_) fun id hid => ?_
  · -- the scope of the query decides, whatever is around it
    have hnames := own q hq ref href
    rw [Scopes.aliasOf_scope hnames, Scopes.aliasOf_scope hnames]
  · exact hderived id (List.mem_flatMap.mpr ⟨q, hq, hid⟩) _ _

/-- A derived table that stands for a closed statement is written alike under all scopes. -/
theorem derived_below_scopes (n : Nat) {id : TableId}
    (hid : ∀ body, catalog.body? id = some body → catalog.Closed body) (scopes scopes' : Scopes) :
    (Context.below catalog escape n).derived id scopes =
      (Context.below catalog escape n).derived id scopes' := by
  -- the tables written below a position are those of the position before, and one more
  induction n generalizing id scopes scopes' with
  | zero => rfl
  | succ n ih =>
    by_cases heq : id = n
    · subst heq
      simp only [Context.below, if_pos]
      cases hbody : (catalog.table? id).bind (·.body) with
      | none => rfl
      | some body =>
        obtain ⟨own, nested⟩ := hid body hbody
        exact statement_scopes own (fun other hother => ih (nested other hother)) scopes scopes'
    · simp only [Context.below, if_neg heq]
      exact ih hid scopes scopes'

/-- A derived table is written between parentheses, and under its alias or its own name. -/
theorem tableReference_derived {id : TableId} {t : Table} {s : Statement}
    (htable : catalog.table? id = some t) (hbody : t.body = some s) (scopes : Scopes) :
    tableReference (.ofCatalog catalog escape) scopes id =
      .text "(" :: (Context.ofCatalog catalog escape).derived id scopes ++
        [.text ")", .text " as ", .text (escape ((scopes.aliasOf id).getD (t.nameAt id)))] := by
  have hderived : t.isDerived = true := by
    rw [Table.isDerived, hbody]
    rfl
  unfold tableReference name
  rw [Context.catalog_ofCatalog, Context.escape_ofCatalog, htable]
  cases scopes.aliasOf id <;> simp [hderived]

end Scopes

end Render

open Render in
/-- What a closed statement writes depends on no scope around it. Standing alone it writes the same
pieces under all stacks of scopes, and so it does between the parentheses of a derived table; over
an ordered catalog, as every reached one is, these are the same pieces. After whatever was written
before, they add the same text and the same placeholders, which stand for the same values. -/
theorem Catalog.Closed.statement_hygienic {c : Catalog} {s : Statement} (hs : c.Closed s)
    (escape : String → String) :
    ∃ ps, (∀ scopes, statement (.ofCatalog c escape) scopes s = ps) ∧
      (∀ id t, c.table? id = some t → t.body = some s → ∃ inner, (c.Ordered → inner = ps) ∧
        ∀ scopes, tableReference (.ofCatalog c escape) scopes id =
          .text "(" :: inner ++ [.text ")", .text " as ",
            .text (escape ((scopes.aliasOf id).getD (t.nameAt id)))]) ∧
      ∀ before scopes after,
        (Draft.append ⟨.ofPieces before, scopes⟩ fun scopes =>
          statement (.ofCatalog c escape) scopes s).template = after →
        after.inlined? = some (Inline.text before ++ Inline.text ps) ∧
        after.placeholders = (Piece.placeholders before ++ Piece.placeholders ps).map some := by
  have ⟨own, nested⟩ := hs
  have hscopes : ∀ scopes, statement (.ofCatalog c escape) scopes s =
      statement (.ofCatalog c escape) [] s := by
    intro scopes
    exact statement_scopes own
      (fun id hid => derived_below_scopes escape c.size (nested id hid)) scopes []
  refine ⟨statement (.ofCatalog c escape) [] s, hscopes, fun id t htable hbody => ?_, ?_⟩
  · have hstatement : c.body? id = some s := by
      rw [Catalog.body?, htable, Option.bind_some, hbody]
    refine ⟨(Context.ofCatalog c escape).derived id [], fun hordered => ?_, fun scopes => ?_⟩
    · exact derived_ofCatalog escape hordered hstatement []
    · have hclosed : ∀ body, c.body? id = some body → c.Closed body := by
        intro body hother
        rwa [← Option.some.inj (hstatement.symm.trans hother)]
      have hinner := derived_below_scopes escape c.size hclosed scopes []
      rw [tableReference_derived escape htable hbody scopes]
      exact congrArg (fun ps => .text "(" :: ps ++ _) hinner
  · intro before scopes after hafter
    have hpieces : after = .ofPieces (before ++ statement (.ofCatalog c escape) [] s) := by
      rw [← hafter, ← hscopes scopes, Template.ofPieces_append]
      rfl
    rw [hpieces, Template.inlined?_ofPieces, Template.placeholders_ofPieces, Inline.text_append,
      Piece.placeholders_append]
    exact ⟨rfl, rfl⟩

/-- Orders, and the cheap ones among them, called `o` in the statement of the derived table. -/
private def aliasedShop : Catalog :=
  let total : Column := { name := "total", type := .bigInt }
  ⟨[{ name := some "orders", columns := [total] },
    { name := some "cheap", columns := [{ total with source := some (.column ⟨0, 0⟩) }]
      body := some (.query {
        columns := [.column ⟨0, 0⟩]
        source := (FromClause.ofTable 0).setAlias 0 "o"
        filter := [.mk none (.compare (.column ⟨0, 0⟩)
          (.operator (.lt (.value (.ofNat 5)))))] }) }]⟩

/-- Orders, called `x` here, beside the cheap ones. -/
private def aliasedPairs : Statement :=
  .query {
    columns := [.column ⟨0, 0⟩, .column ⟨1, 0⟩]
    source := ((FromClause.ofTable 0).join (.cross 1)).setAlias 0 "x" }

private theorem aliasedPairs_closed : aliasedShop.Closed aliasedPairs := by
  have horders : ∀ body, aliasedShop.body? 0 = some body → aliasedShop.Closed body := by
    intro body hbody
    have hnone : aliasedShop.body? 0 = none := rfl
    simp [hnone] at hbody
  have hcheap : ∀ body, aliasedShop.body? 1 = some body → aliasedShop.Closed body := by
    intro body hbody
    obtain rfl := Option.some.inj hbody
    refine .intro (by decide) fun id hid => ?_
    obtain rfl : id = 0 := List.mem_singleton.mp hid
    exact horders
  refine .intro (by decide) fun id hid => ?_
  -- the statement writes out both tables
  obtain rfl | rfl : id = 0 ∨ id = 1 := by
    simpa [aliasedPairs, Statement.sources, Statement.queries, FromClause.tables,
      FromClause.ofTable, FromClause.join, FromClause.setAlias, Join.rightTable?] using hid
  · exact horders
  · exact hcheap

/-- Neither the `x` of the statement around the derived table nor any alias around the statement is
seen in what is written. -/
theorem statement_hygienic_aliasedPairs :
    aliasedShop.Closed aliasedPairs ∧
      ∀ scopes, Inline.text (Render.statement (.ofCatalog aliasedShop id) scopes aliasedPairs) =
        "select x.total, cheap.total from orders as x cross join " ++
          "(select o.total from orders as o where o.total < 5) as cheap" := by
  refine ⟨aliasedPairs_closed, fun scopes => ?_⟩
  obtain ⟨ps, hps, -⟩ := aliasedPairs_closed.statement_hygienic id
  rw [hps scopes, ← hps []]
  decide +kernel

end SqlGraph
