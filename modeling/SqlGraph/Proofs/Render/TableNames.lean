import SqlGraph.Proofs.JoinTree.Scoping
import SqlGraph.Render.Inline
import SqlGraph.Text.Keyword

/-!
# Names of the tables of a clause

A table of a from clause is written under its alias, or else under its own name, and a derived
table that has neither under a generated name, `t` with its position in the catalog. Positions tell
generated names apart from each other, but nothing tells them apart from the aliases and names that
are given: `tableNames_distinct_iff` says that the tables of a clause are written under different
names exactly when no generated name is given to another table.

The aliases of a join tree are chosen so that they differ, also where they are made of generated
names, so its tables always are told apart (`JoinTree.Joins.tableName_ne`).
-/

namespace SqlGraph

/-- The name of a derived table that has none of its own. -/
def generatedName (id : TableId) : String := "t" ++ toString id

/-- The own name of a table as it is written; a derived table may have none. -/
def Table.writtenName? (ctx : Render.Context) (t : Table) : Option String :=
  if t.isDerived then t.name.map ctx.escape else some (Inline.text (Render.qualifiedName ctx t))

/-- The name given to a table, as a clause writes it: its alias there, or else its own name. -/
def FromClause.givenName? (f : FromClause) (ctx : Render.Context) (id : TableId) : Option String :=
  match f.aliases.find? id with
  | some aliasName => some (ctx.escape aliasName)
  | none => (ctx.catalog.table? id).bind (·.writtenName? ctx)

/-- Generated names are told apart by the position. -/
theorem generatedName_injective : Function.Injective generatedName := by
  intro i j h
  have hchars := congrArg String.toList h
  simp only [generatedName, String.toList_append] at hchars
  exact Nat.eq_of_toList_toString (List.append_cancel_left hchars)

/-- Quotes around keywords leave generated names apart, unless they open with a `t` themselves. -/
theorem KeywordQuoting.escape_generatedName_injective (q : KeywordQuoting) {c : Char}
    (hopening : q.opening.toList.head? = some c) (hc : c ≠ 't') :
    Function.Injective fun id => q.escape (generatedName id) := by
  have hplain : ∀ i, (generatedName i).toList.head? = some 't' := by
    intro i
    simp [generatedName]
  have hquoted : ∀ i, (q.opening ++ generatedName i ++ q.closing).toList.head? = some c := by
    intro i
    simp [String.toList_append, List.head?_append, hopening]
  intro i j h
  simp only [escape] at h
  -- a quoted name and one that is not differ in their first characters
  split at h <;> split at h
  · have hchars := congrArg String.toList h
    simp only [String.toList_append, List.append_cancel_right_eq, List.append_cancel_left_eq]
      at hchars
    exact generatedName_injective (String.toList_injective hchars)
  · exact absurd (Option.some.inj ((hquoted i).symm.trans (h ▸ hplain j))) hc
  · exact absurd (Option.some.inj ((hquoted j).symm.trans (h ▸ hplain i))) hc
  · exact generatedName_injective h

namespace Render

variable {ctx : Context} {f : FromClause}

/-- A table of a clause is written under the name given to it, or else under a generated one. -/
theorem text_tableName (scopes : Scopes) {id : TableId} (hid : id ∈ f.tables)
    (htable : (ctx.catalog.table? id).isSome) :
    Inline.text (tableName ctx (f.scope :: scopes) id) =
      (f.givenName? ctx id).getD (ctx.escape (generatedName id)) := by
  obtain ⟨t, ht⟩ := Option.isSome_iff_exists.mp htable
  have hname : ∀ s, Inline.text (name ctx s) = ctx.escape s := by
    intro s
    simp [Inline.text, Inline.piece, name, String.join_cons]
  simp only [tableName, FromClause.givenName?, ht, Scopes.aliasOf_scope (.inl hid) scopes]
  cases f.aliases.find? id with
  | some aliasName => exact hname aliasName
  | none =>
    simp only [Option.bind_some, Table.writtenName?]
    by_cases hderived : t.isDerived
    · simp only [hderived, if_true, hname, Table.nameAt]
      cases t.name <;> rfl
    · simp only [hderived]
      rfl

/-- The tables of a clause are in the catalog, no two of them are given the same name, and escaping
leaves generated names apart. -/
structure GivenApart (ctx : Context) (f : FromClause) : Prop where
  registered : ∀ id ∈ f.tables, (ctx.catalog.table? id).isSome
  given : ∀ i ∈ f.tables, ∀ j ∈ f.tables, (f.givenName? ctx i).isSome →
    f.givenName? ctx i = f.givenName? ctx j → i = j
  generated : Function.Injective fun id => ctx.escape (generatedName id)

/-- The tables of a clause are written under different names if and only if no table without a
given name has the generated one that is given to another table of the clause. -/
theorem tableNames_distinct_iff (h : GivenApart ctx f) (scopes : Scopes) :
    (∀ i ∈ f.tables, ∀ j ∈ f.tables, i ≠ j →
      Inline.text (tableName ctx (f.scope :: scopes) i) ≠
        Inline.text (tableName ctx (f.scope :: scopes) j)) ↔
    ∀ i ∈ f.tables, f.givenName? ctx i = none →
      ∀ j ∈ f.tables, f.givenName? ctx j ≠ some (ctx.escape (generatedName i)) := by
  have hwritten : ∀ id ∈ f.tables, Inline.text (tableName ctx (f.scope :: scopes) id) =
      (f.givenName? ctx id).getD (ctx.escape (generatedName id)) :=
    fun id hid => text_tableName scopes hid (h.registered id hid)
  constructor
  · intro happart i hi hnone j hj hgiven
    have hne : i ≠ j := by
      rintro rfl
      rw [hnone] at hgiven
      exact nomatch hgiven
    refine happart i hi j hj hne ?_
    rw [hwritten i hi, hwritten j hj, hnone, hgiven]
    rfl
  · intro hfree i hi j hj hne heq
    rw [hwritten i hi, hwritten j hj] at heq
    cases hgi : f.givenName? ctx i with
    | none =>
      cases hgj : f.givenName? ctx j with
      | none =>
        simp only [hgi, hgj, Option.getD_none] at heq
        exact hne (h.generated heq)
      | some n =>
        simp only [hgi, hgj, Option.getD_none, Option.getD_some] at heq
        exact hfree i hi hgi j hj (hgj.trans (congrArg some heq.symm))
    | some n =>
      cases hgj : f.givenName? ctx j with
      | none =>
        simp only [hgi, hgj, Option.getD_none, Option.getD_some] at heq
        exact hfree j hj hgj i hi (hgi.trans (congrArg some heq))
      | some m =>
        simp only [hgi, hgj, Option.getD_some] at heq
        exact hne (h.given i hi j hj (hgi ▸ rfl) (by rw [hgi, hgj, heq]))

/-- A table of the name given and, at the position behind it, an unnamed statement over it. -/
private def beside (named : String) : Catalog := ⟨[
  { name := some named, columns := [{ name := "id", type := .bigInt }] },
  { name := none
    columns := [{ name := "id", type := .bigInt, source := some (.mk (.column ⟨0, 0⟩) none) }]
    body := some (.query { columns := [.column ⟨0, 0⟩], source := .ofTable 0 }) }]⟩

/-- Both tables in one clause. -/
private def crossed : FromClause := (FromClause.ofTable 0).join (.cross 1)

private theorem mem_tables_crossed : ∀ i ∈ crossed.tables, i = 0 ∨ i = 1 := by decide

section Beside

variable (named : String)

private theorem givenName?_table :
    crossed.givenName? (.ofCatalog (beside named) id) 0 = some named := by
  simp [FromClause.givenName?, Context.catalog_ofCatalog, Context.escape_ofCatalog,
    show crossed.aliases.find? 0 = none from rfl, Catalog.table?, beside, Table.writtenName?,
    Table.isDerived, qualifiedName, name, Inline.text, Inline.piece, String.join_cons]

private theorem givenName?_statement :
    crossed.givenName? (.ofCatalog (beside named) id) 1 = none := by
  simp [FromClause.givenName?, Context.catalog_ofCatalog,
    show crossed.aliases.find? 1 = none from rfl, Catalog.table?, beside, Table.writtenName?,
    Table.isDerived]

/-- Only one of the tables is given a name. -/
private theorem givenApart_crossed : GivenApart (.ofCatalog (beside named) id) crossed := by
  constructor
  case registered =>
    rw [Context.catalog_ofCatalog]
    intro i hi
    rcases mem_tables_crossed i hi with rfl | rfl <;> rfl
  case given =>
    intro i hi j hj hsome heq
    rcases mem_tables_crossed i hi with rfl | rfl <;> rcases mem_tables_crossed j hj with rfl | rfl
    · rfl
    · simp [givenName?_table, givenName?_statement] at heq
    · simp [givenName?_statement] at hsome
    · rfl
  case generated =>
    rw [Context.escape_ofCatalog]
    exact generatedName_injective

end Beside

/-- A table named `person` is told apart from the statement beside it, which goes by `t1`. -/
theorem tableNames_distinct_iff_person :
    GivenApart (.ofCatalog (beside "person") id) crossed ∧
      Inline.text (tableName (.ofCatalog (beside "person") id) [crossed.scope] 0) ≠
        Inline.text (tableName (.ofCatalog (beside "person") id) [crossed.scope] 1) := by
  have hiff := tableNames_distinct_iff (givenApart_crossed "person") []
  refine ⟨givenApart_crossed "person", hiff.mpr ?_ 0 (by decide) 1 (by decide) (by decide)⟩
  intro i hi hnone j hj
  rw [Context.escape_ofCatalog]
  rcases mem_tables_crossed i hi with rfl | rfl <;> rcases mem_tables_crossed j hj with rfl | rfl
  · simp [givenName?_table] at hnone
  · simp [givenName?_table] at hnone
  · rw [givenName?_table]
    decide
  · simp [givenName?_statement]

/-- Not so a table that is named `t1` itself, although it is the only table given a name. -/
theorem not_forall_tableName_ne :
    ¬ ∀ (ctx : Context) (f : FromClause) (scopes : Scopes), f.tables.Nodup → GivenApart ctx f →
      ∀ i ∈ f.tables, ∀ j ∈ f.tables, i ≠ j →
        Inline.text (tableName ctx (f.scope :: scopes) i) ≠
          Inline.text (tableName ctx (f.scope :: scopes) j) := by
  intro hall
  have happart := hall (.ofCatalog (beside "t1") id) crossed [] (by decide)
    (givenApart_crossed "t1") 0 (by decide) 1 (by decide) (by decide)
  refine happart ?_
  rw [text_tableName [] (by decide) ((givenApart_crossed "t1").registered 0 (by decide)),
    text_tableName [] (by decide) ((givenApart_crossed "t1").registered 1 (by decide)),
    givenName?_table, givenName?_statement, Context.escape_ofCatalog]
  rfl

end Render

/-! ## Clauses of join trees -/

/-- The tables of a join tree are always written under different names, as long as escaping leaves
its aliases apart. -/
theorem JoinTree.Joins.tableName_ne {start : Catalog} {rootName : String} {root : TableId}
    {asked : List (String × JoinLink)} {t : JoinTree} {ctx : Render.Context}
    (h : Joins start rootName root asked t ctx.catalog)
    (hescape : ∀ a ∈ t.aliases, ∀ b ∈ t.aliases, ctx.escape a = ctx.escape b → a = b)
    (scopes : Scopes) :
    ∀ i ∈ t.toFrom.tables, ∀ j ∈ t.toFrom.tables, i ≠ j →
      Inline.text (Render.tableName ctx (t.toFrom.scope :: scopes) i) ≠
        Inline.text (Render.tableName ctx (t.toFrom.scope :: scopes) j) := by
  -- the table of a node is written under the alias of that node
  have hwritten : ∀ i ∈ t.toFrom.tables, ∃ n ∈ t.nodes, n.table = i ∧
      Inline.text (Render.tableName ctx (t.toFrom.scope :: scopes) i) =
        ctx.escape n.aliasName := by
    intro i hi
    rw [h.tables_toFrom.1] at hi
    obtain ⟨n, hn, rfl⟩ := List.mem_map.mp hi
    have halias : t.toFrom.aliases.find? n.table = some n.aliasName :=
      (h.aliases_toFrom n.table n.aliasName).mpr ⟨n, hn, rfl, rfl⟩
    have hregistered : (ctx.catalog.table? n.table).isSome := by
      rw [Catalog.table?, List.getElem?_eq_getElem (h.wellFormed.table_lt n hn)]
      rfl
    refine ⟨n, hn, rfl, ?_⟩
    rw [Render.text_tableName scopes (h.tables_toFrom.1 ▸ hi) hregistered, FromClause.givenName?,
      halias]
    rfl
  intro i hi j hj hne heq
  obtain ⟨n, hn, rfl, hni⟩ := hwritten i hi
  obtain ⟨m, hm, rfl, hmj⟩ := hwritten j hj
  rw [hni, hmj] at heq
  have halias := hescape _ (List.mem_map_of_mem hn) _ (List.mem_map_of_mem hm) heq
  exact hne (congrArg _ (List.inj_on_of_nodup_map h.wellFormed.aliases_nodup hn hm halias))

end SqlGraph
