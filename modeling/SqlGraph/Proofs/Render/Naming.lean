import SqlGraph.Proofs.Render.Related

/-!
# The names a clause is written with

Scopes matter to a clause only through the names they give to the tables of its columns, and to a
query also through what its from clause writes for its tables. So a query is written alike under
two stacks of scopes and in two contexts that agree on these: `Render.query_congr`.
-/

namespace SqlGraph

/-- Two stacks of scopes give the tables of some columns the same aliases. -/
def Scopes.AgreeOn (scopes scopes' : Scopes) (refs : List ColumnRef) : Prop :=
  ∀ ref ∈ refs, scopes.aliasOf ref.table = scopes'.aliasOf ref.table

/-- Written alike is a relation that writing piece after piece keeps. -/
theorem Piece.Compatible.eq : Piece.Compatible Eq where
  nil := rfl
  single _ _ := rfl
  append h h' := by rw [h, h']

namespace Render

/-- Two contexts know the same tables and escape names alike. -/
structure Context.SameNames (ctx ctx' : Context) : Prop where
  catalog : ctx.catalog = ctx'.catalog
  escape : ctx.escape = ctx'.escape

section Congr

variable {ctx ctx' : Context} {scopes scopes' : Scopes}

theorem name_congr (h : ctx.SameNames ctx') (s : String) : name ctx s = name ctx' s := by
  unfold name
  rw [h.escape]

theorem qualifiedName_congr (h : ctx.SameNames ctx') (t : Table) :
    qualifiedName ctx t = qualifiedName ctx' t := by
  unfold qualifiedName name
  rw [h.escape]

theorem column_congr (h : ctx.SameNames ctx') {ref : ColumnRef}
    (href : scopes.aliasOf ref.table = scopes'.aliasOf ref.table) :
    column ctx scopes ref = column ctx' scopes' ref := by
  have htable : tableName ctx scopes ref.table = tableName ctx' scopes' ref.table := by
    unfold tableName
    simp only [h.catalog, href, name_congr h, qualifiedName_congr h]
  unfold column
  simp only [htable, h.catalog, name_congr h]

theorem tableReference_congr (h : ctx.SameNames ctx') {id : TableId}
    (halias : scopes.aliasOf id = scopes'.aliasOf id)
    (hderived : ctx.derived id scopes = ctx'.derived id scopes') :
    tableReference ctx scopes id = tableReference ctx' scopes' id := by
  unfold tableReference
  simp only [h.catalog, halias, hderived, name_congr h, qualifiedName_congr h]

/-- A query is written alike when its columns are named alike within its scope and its tables are
written alike. -/
theorem query_congr (h : ctx.SameNames ctx') {q : Query}
    (hrefs : Scopes.AgreeOn (q.source.scope :: scopes) (q.source.scope :: scopes') q.refs)
    (htables : ∀ id ∈ q.source.tables,
      ctx.derived id (q.source.scope :: q.source.scope :: scopes) =
        ctx'.derived id (q.source.scope :: q.source.scope :: scopes')) :
    query ctx scopes q = query ctx' scopes' q := by
  have hcolumns : ColumnsRelated Eq ctx ctx' (q.source.scope :: scopes)
      (q.source.scope :: scopes') q.refs :=
    fun ref href => column_congr h (hrefs ref href)
  -- the tables of the query are named by its own scope
  have hreference : ∀ id ∈ q.source.tables,
      tableReference ctx (q.source.scope :: q.source.scope :: scopes) id =
        tableReference ctx' (q.source.scope :: q.source.scope :: scopes') id := by
    intro id hid
    refine tableReference_congr h ?_ (htables id hid)
    rw [Scopes.aliasOf_scope (.inl hid), Scopes.aliasOf_scope (.inl hid)]
  exact query_related_self .eq (name_congr h) hcolumns hreference

/-- A statement is written alike when each of its queries is. -/
theorem statement_congr {s : Statement}
    (hqueries : ∀ q ∈ s.queries, query ctx scopes q = query ctx' scopes' q) :
    statement ctx scopes s = statement ctx' scopes' s :=
  statement_related_self .eq hqueries

end Congr

end Render

end SqlGraph
