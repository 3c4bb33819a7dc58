import SqlGraph.Proofs.Render.Naming
import SqlGraph.Render.Inline
import SqlGraph.Template.Prepared

/-!
# Escaping is replacing names

Every name of the catalog and of the statement goes through the escaping function where it is
written, and nothing else does. So a statement is written with escaped names exactly as the
statement whose names have been replaced is written, over the catalog whose names have been
replaced (`Catalog.mapNames`), with no escaping at all: `Render.statement_escaped`.

A derived table without a name goes by its position, and that name is escaped like any other: once
replaced it is the name of the table.
-/

namespace SqlGraph

/-! ## Replacing the names of a catalog -/

/-- The column with its name replaced. -/
def Column.mapNames (f : String → String) (c : Column) : Column :=
  { c with name := f c.name, source := c.source.map (Expression.mapNames f) }

/-- The table at a position with its names replaced; a derived table without a name gets the one it
goes by. -/
def Table.mapNames (f : String → String) (t : Table) (id : TableId) : Table where
  name := if t.isDerived then some (f (t.nameAt id)) else t.name.map f
  schema := t.schema.map f
  columns := t.columns.map (Column.mapNames f)
  body := t.body.map (Statement.mapNames f)

/-- The catalog with the names of its tables replaced. -/
def Catalog.mapNames (f : String → String) (c : Catalog) : Catalog :=
  ⟨c.tables.mapIdx fun id t => t.mapNames f id⟩

section

variable (f : String → String) (t : Table) (c : Catalog) (id : TableId)

@[simp] theorem Table.isDerived_mapNames : (t.mapNames f id).isDerived = t.isDerived :=
  Option.isSome_map

theorem Table.nameAt_mapNames (h : t.isDerived = true) :
    (t.mapNames f id).nameAt id = f (t.nameAt id) := by
  unfold mapNames nameAt
  rw [if_pos h]
  rfl

@[simp] theorem Catalog.size_mapNames : (c.mapNames f).size = c.size := List.length_mapIdx

@[simp] theorem Catalog.table?_mapNames :
    (c.mapNames f).table? id = (c.table? id).map fun t => t.mapNames f id :=
  List.getElem?_mapIdx

theorem Catalog.body?_mapNames : ((c.mapNames f).table? id).bind (·.body) =
    ((c.table? id).bind (·.body)).map (Statement.mapNames f) := by
  rw [table?_mapNames]
  cases c.table? id <;> rfl

theorem Catalog.column?_mapNames (ref : ColumnRef) :
    (c.mapNames f).column? ref = (c.column? ref).map (Column.mapNames f) := by
  unfold column?
  rw [table?_mapNames]
  cases c.table? ref.table with
  | none => rfl
  | some t => exact List.getElem?_map

end

/-! ## Scopes -/

/-- The second stack of scopes gives the same tables aliases, with their names replaced. -/
def Scopes.Renamed (f : String → String) (scopes scopes' : Scopes) : Prop :=
  ∀ id, scopes'.aliasOf id = (scopes.aliasOf id).map f

namespace Scopes.Renamed

variable {f : String → String}

theorem nil : Renamed f [] [] := fun _ => rfl

/-- Both stacks open the scope of one from clause. -/
theorem open_scope {scopes scopes' : Scopes} (h : Renamed f scopes scopes')
    (source : FromClause) :
    Renamed f (source.scope :: scopes) ((source.mapNames f).scope :: scopes') := by
  intro id
  have hscope : (source.mapNames f).scope.find? id =
      (source.scope.find? id).map (Option.map f) := by
    rw [FromClause.find?_scope, FromClause.find?_scope, FromClause.tables_mapNames]
    show (((source.aliases.map f).find? id).map some).or _ = _
    rw [TableMap.find?_map]
    cases source.aliases.find? id with
    | some aliasName => rfl
    | none => by_cases hid : id ∈ source.tables <;> simp [hid]
  rw [aliasOf_cons, aliasOf_cons, hscope]
  cases source.scope.find? id with
  | none => exact h id
  | some named => rfl

end Scopes.Renamed

namespace Render

/-! ## Contexts -/

/-- The second context writes a name that has been replaced as the first one writes the name, and
its catalog has all names replaced. -/
structure Context.Renamed (f : String → String) (ctx ctx' : Context) : Prop where
  catalog : ctx'.catalog = ctx.catalog.mapNames f
  escape : ∀ s, ctx.escape s = ctx'.escape (f s)
  derived : ∀ id {scopes scopes' : Scopes}, scopes.Renamed f scopes' →
    ctx.derived id scopes = ctx'.derived id scopes'

section Renamed

variable {f : String → String} {ctx ctx' : Context} (h : ctx.Renamed f ctx')
include h

theorem name_renamed (s : String) : name ctx s = name ctx' (f s) := by
  unfold name
  rw [h.escape]

theorem qualifiedName_renamed (t : Table) (id : TableId) (hphysical : t.isDerived = false) :
    qualifiedName ctx t = qualifiedName ctx' (t.mapNames f id) := by
  unfold qualifiedName Table.mapNames
  rw [hphysical]
  cases t.schema <;> cases t.name <;> simp [name_renamed h]

variable {scopes scopes' : Scopes} (hscopes : scopes.Renamed f scopes')
include hscopes

theorem tableName_renamed (id : TableId) :
    tableName ctx scopes id = tableName ctx' scopes' id := by
  unfold tableName
  rw [h.catalog, Catalog.table?_mapNames, hscopes id]
  cases ctx.catalog.table? id with
  | none => rfl
  | some t =>
    cases scopes.aliasOf id with
    | some aliasName => exact name_renamed h aliasName
    | none =>
      simp only [Option.map_some, Option.map_none, Table.isDerived_mapNames]
      cases hderived : t.isDerived with
      | true =>
        simp only [if_pos, Table.nameAt_mapNames f t id hderived]
        exact name_renamed h (t.nameAt id)
      | false => exact qualifiedName_renamed h t id hderived

theorem column_renamed (ref : ColumnRef) : column ctx scopes ref = column ctx' scopes' ref := by
  unfold column
  rw [tableName_renamed h hscopes, h.catalog, Catalog.column?_mapNames]
  cases ctx.catalog.column? ref with
  | none => rfl
  | some c =>
    simp only [Option.map_some, name_renamed h]
    rfl

theorem tableReference_renamed (id : TableId) :
    tableReference ctx scopes id = tableReference ctx' scopes' id := by
  unfold tableReference
  rw [h.catalog, Catalog.table?_mapNames, hscopes id, h.derived id hscopes]
  cases ctx.catalog.table? id with
  | none => rfl
  | some t =>
    simp only [Option.map_some, Table.isDerived_mapNames]
    cases hderived : t.isDerived with
    | true =>
      simp only [if_pos, Table.nameAt_mapNames f t id hderived]
      cases scopes.aliasOf id <;> simp [name_renamed h]
    | false =>
      rw [qualifiedName_renamed h t id hderived]
      cases scopes.aliasOf id <;> simp [name_renamed h]

theorem query_renamed (q : Query) : query ctx scopes q = query ctx' scopes' (q.mapNames f) := by
  have hscope := hscopes.open_scope q.source
  refine query_related .eq f (name_renamed h) (fun ref _ => ?_) fun id _ => ?_
  · exact column_renamed h hscope ref
  · exact tableReference_renamed h (hscope.open_scope q.source) id

theorem statement_renamed (s : Statement) :
    statement ctx scopes s = statement ctx' scopes' (s.mapNames f) :=
  statement_related .eq f fun q _ => query_renamed h hscopes q

end Renamed

/-- The contexts of a catalog, position by position: derived tables below are written alike, so the
next one is. -/
theorem Context.Renamed.below (f g : String → String) (catalog : Catalog) (n : Nat) :
    (Context.below catalog (g ∘ f) n).Renamed f (Context.below (catalog.mapNames f) g n) := by
  induction n with
  | zero => exact ⟨rfl, fun _ => rfl, fun _ _ _ _ => rfl⟩
  | succ n ih =>
    refine ⟨rfl, fun _ => rfl, fun id scopes scopes' hscopes => ?_⟩
    simp only [Context.below, Catalog.body?_mapNames]
    by_cases hid : id = n
    · rw [if_pos hid, if_pos hid]
      cases (catalog.table? n).bind (·.body) with
      | none => rfl
      | some body => exact statement_renamed ih hscopes body
    · rw [if_neg hid, if_neg hid]
      exact ih.derived id hscopes

/-- Replacing names before writing is replacing them where they are written. -/
theorem statement_mapNames (f g : String → String) (catalog : Catalog) (s : Statement) :
    statement (.ofCatalog catalog (g ∘ f)) [] s =
      statement (.ofCatalog (catalog.mapNames f) g) [] (s.mapNames f) := by
  unfold Context.ofCatalog
  rw [Catalog.size_mapNames]
  exact statement_renamed (.below f g catalog catalog.size) .nil s

/-- Escaping is applied to every name and to nothing else: with its values written out as with
placeholders, a statement is written with escaped names as it is written without escaping once
all names of the catalog and of the statement have been replaced. -/
theorem statement_escaped (escape : String → String) (catalog : Catalog) (s : Statement) :
    Inline.statement? catalog escape s =
        Inline.statement? (catalog.mapNames escape) id (s.mapNames escape) ∧
      Prepared.statement? catalog escape s =
        Prepared.statement? (catalog.mapNames escape) id (s.mapNames escape) := by
  have hpieces := statement_mapNames escape id catalog s
  rw [Function.id_comp] at hpieces
  unfold Inline.statement? Prepared.statement?
  rw [hpieces]
  exact ⟨rfl, rfl⟩

/-- The derived table has no name: it goes by its position, escaped like any other name. -/
example :
    let order : Column := { name := "order", type := .bigInt }
    let catalog : Catalog := ⟨[{ name := some "orders", columns := [order] },
      { name := none, columns := [order]
        body := some (.query { columns := [.column ⟨0, 0⟩], source := .ofTable 0 }) }]⟩
    Inline.statement? catalog (fun s => "[" ++ s ++ "]")
        (.query { columns := [.column ⟨1, 0⟩], source := .ofTable 1 }) =
      some "select [t1].[order] from (select [orders].[order] from [orders]) as [t1]" := by
  rfl

end Render

end SqlGraph
