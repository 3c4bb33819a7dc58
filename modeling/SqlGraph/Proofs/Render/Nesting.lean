import SqlGraph.Proofs.Catalog.Growth
import SqlGraph.Proofs.Render.Naming
import SqlGraph.Proofs.Render.Prepared

/-!
# Derived tables within derived tables

A derived table is written as its statement, whose own derived tables are written in turn. Over an
ordered catalog that ends, however tables are nested: opening as many levels as there are tables
leaves nothing to open (`Render.statement_nested`), and gives what the context of the catalog
gives. In that context each derived table is then written as its statement under the same scopes
(`Render.derived_ofCatalog`).
-/

namespace SqlGraph

namespace Render

/-- The context in which derived tables are opened to some depth; what lies beyond is written in
any way. -/
def Context.nested (catalog : Catalog) (escape : String → String)
    (beyond : TableId → Scopes → List Piece) : Nat → Context
  | 0 => { catalog, escape, derived := beyond }
  | depth + 1 =>
    let inner := nested catalog escape beyond depth
    { catalog, escape
      derived := fun id scopes =>
        match catalog.body? id with
        | some body => statement inner scopes body
        | none => [] }

section Nesting

variable {catalog : Catalog} (escape : String → String)
  (beyond : TableId → Scopes → List Piece)

/-- All these contexts are of one catalog and escape names alike. -/
theorem sameNames_nested_below (depth n : Nat) :
    (Context.nested catalog escape beyond depth).SameNames (Context.below catalog escape n) where
  catalog := by
    rw [Context.catalog_below]
    cases depth <;> rfl
  escape := by
    rw [Context.escape_below]
    cases depth <;> rfl

/-- A statement is written alike in two contexts that write its tables alike. -/
theorem statement_congr_derived {ctx ctx' : Context} (h : ctx.SameNames ctx') {s : Statement}
    (hderived : ∀ id ∈ s.sources, ∀ scopes, ctx.derived id scopes = ctx'.derived id scopes)
    (scopes : Scopes) : statement ctx scopes s = statement ctx' scopes s := by
  refine statement_congr fun q hq => query_congr h (fun _ _ => rfl) fun id hid => ?_
  exact hderived id (List.mem_flatMap.mpr ⟨q, hq, hid⟩) _

/-- Opening one level for each table before a position is enough for the tables before it. -/
theorem derived_nested (hordered : catalog.Ordered) {n depth : Nat} (hn : n ≤ depth)
    {id : TableId} (hid : id < n) (scopes : Scopes) :
    (Context.nested catalog escape beyond depth).derived id scopes =
      (Context.below catalog escape n).derived id scopes := by
  induction n generalizing depth id scopes with
  | zero => exact absurd hid (Nat.not_lt_zero id)
  | succ n ih =>
    by_cases heq : id = n
    · -- the statement of the last table is written one level down
      obtain ⟨depth, rfl⟩ := Nat.exists_eq_add_one_of_ne_zero (Nat.ne_zero_of_lt hn)
      subst heq
      simp only [Context.nested, Context.below, if_pos]
      unfold Catalog.body?
      cases hbody : (catalog.table? id).bind (·.body) with
      | none => rfl
      | some body =>
        -- its own tables come before it, so the levels that are left are enough for them
        refine statement_congr_derived (sameNames_nested_below escape beyond depth id)
          (fun other hother scopes => ?_) scopes
        have hlt : other < id :=
          (hordered id body hbody).table_lt other (body.sources_subset_tables hother)
        exact ih (Nat.le_of_succ_le_succ hn) hlt scopes
    · have hlt : id < n := Nat.lt_of_le_of_ne (Nat.le_of_lt_succ hid) heq
      rw [ih (Nat.le_of_succ_le hn) hlt scopes]
      simp only [Context.below, if_neg heq]

/-- Opening one level for each table is enough for every statement, so nothing beyond is asked
for. -/
theorem statement_nested (hordered : catalog.Ordered) {s : Statement}
    (hs : ∀ id ∈ s.tables, id < catalog.size) {depth : Nat} (hdepth : catalog.size ≤ depth)
    (scopes : Scopes) :
    statement (.nested catalog escape beyond depth) scopes s =
      statement (.ofCatalog catalog escape) scopes s := by
  refine statement_congr_derived (sameNames_nested_below escape beyond depth catalog.size)
    (fun id hid scopes => ?_) scopes
  exact derived_nested escape beyond hordered hdepth (hs id (s.sources_subset_tables hid)) scopes

/-- In the context of a catalog a derived table is written as its statement. -/
theorem derived_ofCatalog (hordered : catalog.Ordered) {id : TableId} {body : Statement}
    (hbody : catalog.body? id = some body) (scopes : Scopes) :
    (Context.ofCatalog catalog escape).derived id scopes =
      statement (.ofCatalog catalog escape) scopes body := by
  -- opening one level too many, the table is its statement with the other levels left
  have hopened := derived_nested escape (fun _ _ => []) hordered
    (Nat.le_succ catalog.size) (Catalog.lt_size_of_body? hbody) scopes
  unfold Context.ofCatalog
  rw [← hopened]
  simp only [Context.nested, hbody]
  exact statement_nested escape (fun _ _ => []) hordered (hordered.within hbody).table_lt
    (Nat.le_refl _) scopes

end Nesting

end Render

open Render in
/-- The statement of a table of a reached catalog mentions only tables before it, and is what is
written for the table. So writing a statement over the tables of the catalog ends: opening as many
levels of derived tables as there are tables asks for nothing beyond, and gives what is written for
the catalog. When the columns that the statement mentions exist too, no reference dangles, and both
of its forms exist. -/
theorem Catalog.Reached.writing_ends {c : Catalog} (h : c.Reached) :
    (∀ id body, c.body? id = some body → (∀ other ∈ body.tables, other < id) ∧
      ∀ escape scopes, (Context.ofCatalog c escape).derived id scopes =
        statement (.ofCatalog c escape) scopes body) ∧
    ∀ (escape : String → String) (s : Statement), (∀ id ∈ s.tables, id < c.size) →
      (∀ beyond depth scopes, c.size ≤ depth →
        statement (.nested c escape beyond depth) scopes s =
          statement (.ofCatalog c escape) scopes s) ∧
      ((∀ ref ∈ s.refs, c.hasColumn ref = true) →
        (∀ scopes, Piece.dangles (statement (.ofCatalog c escape) scopes s) = false) ∧
        (Inline.statement? c escape s).isSome = true ∧
        (Prepared.statement? c escape s).isSome = true) := by
  have hordered : c.Ordered := h.ordered
  refine ⟨fun id body hbody => ⟨(hordered id body hbody).table_lt, fun escape scopes =>
    derived_ofCatalog escape hordered hbody scopes⟩, fun escape s htables => ?_⟩
  have hends : ∀ beyond depth scopes, c.size ≤ depth →
      statement (.nested c escape beyond depth) scopes s =
        statement (.ofCatalog c escape) scopes s :=
    fun beyond _ scopes hdepth => statement_nested escape beyond hordered htables hdepth scopes
  refine ⟨hends, fun hcolumns => ?_⟩
  have hwithin : s.Within c c.size := ⟨htables, hcolumns⟩
  exact ⟨dangles_statement_ofCatalog escape hordered.layered hwithin.resolves,
    Inline.isSome_statement? c escape s hordered.layered hwithin.resolves,
    Prepared.isSome_statement? c escape s hordered.layered hwithin.resolves⟩

/-- Orders, a derived table of them, one without name of that, and its copy. -/
private def nestedShop : Catalog :=
  let id : Column := { name := "id", type := .bigInt }
  let firstOf : TableId → Statement := fun table =>
    .query { columns := [.column ⟨table, 0⟩], source := .ofTable table }
  ⟨[{ name := some "orders", columns := [id] },
    { name := some "page", columns := [{ id with source := some (.column ⟨0, 0⟩) }]
      body := some (firstOf 0) },
    { name := none, columns := [{ id with source := some (.column ⟨1, 0⟩) }]
      body := some (firstOf 1) },
    { name := none, columns := [{ id with source := some (.column ⟨1, 0⟩) }]
      body := some (firstOf 1) }]⟩

/-- The copy is made by a join of the derived table to itself. -/
private theorem nestedShop_reached : nestedShop.Reached := by
  have horders := Catalog.Reached.empty.run (.addTable none "orders") trivial
  have hid := horders.run (.addColumn 0 "id" .bigInt) trivial
  have hpage := hid.run
    (.wrap (.query { columns := [.column ⟨0, 0⟩], source := .ofTable 0 }) (some "page"))
    ⟨by decide, by decide⟩
  have hunnamed := hpage.run
    (.wrap (.query { columns := [.column ⟨1, 0⟩], source := .ofTable 1 }) none)
    ⟨by decide, by decide⟩
  exact hunnamed.run
    (.join ⟨[{ name := "left", table := 2, aliasName := "t2" }]⟩ "left" "right" .inner
      [⟨2, 0⟩] [⟨2, 0⟩]) trivial

/-- Pairs of rows of the derived table and its copy. -/
private def nestedPairs : Statement :=
  .query {
    columns := [.column ⟨2, 0⟩, .column ⟨3, 0⟩]
    source := (FromClause.ofTable 2).join (.column .inner ⟨2, 0⟩ ⟨3, 0⟩) }

/-- The copy stands for a statement over the table before its original, and pairs of both are
written by opening two levels, so the four that there are tables for are enough. -/
theorem writing_ends_nestedPairs :
    nestedShop.Reached ∧ (nestedShop.body? 3).isSome = true ∧
      (∀ body, nestedShop.body? 3 = some body → ∀ other ∈ body.tables, other < 3) ∧
      (∀ beyond scopes, Render.statement (.nested nestedShop id beyond 4) scopes nestedPairs =
        Render.statement (.ofCatalog nestedShop id) scopes nestedPairs) ∧
      (Inline.statement? nestedShop id nestedPairs).isSome = true := by
  obtain ⟨hbodies, hends⟩ := nestedShop_reached.writing_ends
  obtain ⟨hopened, hwritten⟩ := hends id nestedPairs (by decide)
  exact ⟨nestedShop_reached, rfl, fun body hbody => (hbodies 3 body hbody).1,
    fun beyond scopes => hopened beyond 4 scopes (by decide), (hwritten (by decide)).2.1⟩

end SqlGraph
