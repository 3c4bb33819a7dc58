import SqlGraph.Proofs.Render.Outline
import SqlGraph.Render.Context

/-!
# Tables are referred to as they are introduced

A from clause introduces a table under a name: the one it writes after `as`, if any
(`FromClause.writtenName?`), and the qualified name of the table otherwise. Select comes before the
from clause, the clause opens its scope once more, and the statements of derived tables, which may
name the same tables in their own ways, stand in between; yet every column of the query has the name
in front of it under which its table is introduced: `query_named_as_introduced`.
-/

namespace SqlGraph

/-- The name that a from clause writes after `as` where it introduces a table: the alias that it
gives, or, for a derived table, the name that the table has or gets. -/
def FromClause.writtenName? (f : FromClause) (ctx : Render.Context) (id : TableId) (t : Table) :
    Option (List Piece) :=
  match f.aliases.find? id, t.isDerived with
  | some aliasName, _ => some (Render.name ctx aliasName)
  | none, true => some (Render.name ctx (t.nameAt id))
  | none, false => none

namespace Render

variable (ctx : Context) (scopes : Scopes)

/-- What stands for a table where it is introduced, before the name: its statement, or its qualified
name. -/
def introducedAs (id : TableId) (t : Table) : List Piece :=
  if t.isDerived then .text "(" :: ctx.derived id scopes ++ [.text ")"] else qualifiedName ctx t

section Named

variable {ctx} {f : FromClause} {id : TableId} {t : Table} (ht : ctx.catalog.table? id = some t)
  (hid : id ∈ f.tables)
include ht hid

/-- A column of a table of the clause has the name in front of it that the clause writes, or the
qualified name of the table. -/
theorem tableName_of_mem_tables :
    tableName ctx (f.scope :: scopes) id =
      (f.writtenName? ctx id t).getD (qualifiedName ctx t) := by
  unfold tableName FromClause.writtenName?
  simp only [ht, Scopes.aliasOf_scope (.inl hid)]
  cases f.aliases.find? id with
  | some aliasName => rfl
  | none => cases t.isDerived <;> rfl

/-- A clause introduces its own tables by the name that it writes, if it writes one. -/
theorem tableReference_of_mem_tables :
    tableReference ctx (f.scope :: scopes) id =
      introducedAs ctx (f.scope :: scopes) id t ++
        (match f.writtenName? ctx id t with
          | some written => .text " as " :: written
          | none => []) := by
  unfold tableReference introducedAs FromClause.writtenName?
  simp only [ht, Scopes.aliasOf_scope (.inl hid)]
  cases f.aliases.find? id with
  | some aliasName => rfl
  | none => cases t.isDerived <;> rfl

end Named

/-- A query with a from clause, written under any scopes around it, is its outline: each column has
the name of its table in front of it, and the tables of the from clause are introduced in order.
Each of these is introduced by its statement or its qualified name, and by a name after `as` if one
is written; and the name in front of its columns is the one written after `as`, or else its
qualified name, whatever the statements written in between. -/
theorem query_named_as_introduced {q : Query} (hroot : q.source.root.isSome) :
    ∃ named introduced : TableId → List Piece,
      query ctx scopes q = Outline.fill named introduced (Outline.query ctx q) ∧
      Outline.introductions (Outline.query ctx q) = q.source.tables ∧
      ∀ id ∈ q.source.tables, ∀ t, ctx.catalog.table? id = some t →
        (∃ around, introduced id = introducedAs ctx around id t ++
          (match q.source.writtenName? ctx id t with
            | some written => .text " as " :: written
            | none => [])) ∧
        named id = (q.source.writtenName? ctx id t).getD (qualifiedName ctx t) := by
  refine ⟨tableName ctx (q.source.scope :: scopes),
    tableReference ctx (q.source.scope :: q.source.scope :: scopes),
    (Outline.fill_query ctx scopes q).symm, Outline.introductions_query ctx hroot, ?_⟩
  intro id hid t ht
  exact ⟨⟨_, tableReference_of_mem_tables (q.source.scope :: scopes) ht hid⟩,
    tableName_of_mem_tables scopes ht hid⟩

/-- People, and a derived table of their numbers that names the table of people in its own way. -/
private def numbered : Catalog := ⟨[
  { name := some "person", columns := [{ name := "id", type := .bigInt }] },
  { name := none, columns := [{ name := "id", type := .bigInt }]
    body := some (.query {
      columns := [.column ⟨0, 0⟩], source := (FromClause.ofTable 0).setAlias 0 "inside" }) }]⟩

/-- People joined with the derived table, which is introduced before the table of people. -/
private def joinedNumbers : Query where
  columns := [.column ⟨0, 0⟩, .column ⟨1, 0⟩]
  source := (FromClause.ofTable 1).join (.column .inner ⟨1, 0⟩ ⟨0, 0⟩)

/-- The table of people goes by its own name, although it has other names in the derived table and
around the query. -/
theorem query_named_as_introduced_people :
    ∃ named introduced : TableId → List Piece,
      query (.ofCatalog numbered id) [⟨[(0, some "outside")]⟩] joinedNumbers =
        Outline.fill named introduced (Outline.query (.ofCatalog numbered id) joinedNumbers) ∧
      named 0 = [.text "person"] ∧ introduced 0 = [.text "person"] ∧ named 1 = [.text "t1"] := by
  obtain ⟨named, introduced, hquery, -, hnames⟩ := query_named_as_introduced
    (.ofCatalog numbered id) [⟨[(0, some "outside")]⟩] (q := joinedNumbers) rfl
  obtain ⟨⟨_, hpeople⟩, hnamed⟩ := hnames 0 (by decide) _ rfl
  exact ⟨named, introduced, hquery, hnamed, hpeople, (hnames 1 (by decide) _ rfl).2⟩

end Render
end SqlGraph
