import SqlGraph.Proofs.Render.Related

/-!
# Nothing dangles

A piece dangles where a reference leads nowhere. A statement leaves none when its references resolve
and its tables are written (`dangles_statement`), and over a layered catalog the tables are:
`dangles_statement_ofCatalog`.
-/

namespace SqlGraph

/-- Whether there is a dangling piece. -/
def Piece.dangles (ps : List Piece) : Bool := ps.any Piece.isDangling

/-- Pieces without a dangling one are resolved. -/
theorem Piece.resolved?_of_dangles {ps : List Piece} (h : Piece.dangles ps = false) :
    Piece.resolved? ps = some ps := by
  unfold Piece.dangles at h
  unfold Piece.resolved?
  rw [h]
  rfl

/-- The first of two lists has no dangling piece, whatever is written beside it. -/
def Piece.Settled (ps _ : List Piece) : Prop := Piece.dangles ps = false

namespace Render

/-! ## Pieces -/

@[simp] theorem dangles_cons (p : Piece) (ps : List Piece) :
    Piece.dangles (p :: ps) = (p.isDangling || Piece.dangles ps) := rfl

@[simp] theorem dangles_append (ps qs : List Piece) :
    Piece.dangles (ps ++ qs) = (Piece.dangles ps || Piece.dangles qs) := List.any_append

@[simp] theorem isDangling_text (s : String) : (Piece.text s).isDangling = false := rfl

theorem compatible_settled : Piece.Compatible Piece.Settled where
  nil := rfl
  single p hp := by
    unfold Piece.Settled
    rw [dangles_cons, hp]
    rfl
  append h h' := by
    unfold Piece.Settled at *
    rw [dangles_append, h, h']
    rfl

/-! ## Names -/

section Names

variable (ctx : Context) (scopes : Scopes)

@[simp] theorem dangles_nil : Piece.dangles [] = false := rfl

@[simp] theorem dangles_name (s : String) : Piece.dangles (name ctx s) = false := rfl

@[simp] theorem dangles_qualifiedName (t : Table) :
    Piece.dangles (qualifiedName ctx t) = false := by
  unfold qualifiedName
  cases t.schema <;> cases t.name <;> simp

/-- A column that exists is written. -/
theorem dangles_column {ref : ColumnRef} (h : ctx.catalog.hasColumn ref = true) :
    Piece.dangles (column ctx scopes ref) = false := by
  obtain ⟨c, hc⟩ := Option.isSome_iff_exists.mp h
  obtain ⟨t, ht, -⟩ := Option.bind_eq_some_iff.mp hc
  have htable : Piece.dangles (tableName ctx scopes ref.table) = false := by
    unfold tableName
    rw [ht]
    cases scopes.aliasOf ref.table with
    | some aliasName => rfl
    | none => cases hderived : t.isDerived <;> simp [hderived]
  unfold column
  rw [hc]
  simp [htable]

/-- A table is written where it is referred to, when its statement is. -/
theorem dangles_tableReference {id : TableId} (hid : id < ctx.catalog.size)
    (hderived : Piece.dangles (ctx.derived id scopes) = false) :
    Piece.dangles (tableReference ctx scopes id) = false := by
  obtain ⟨t, ht⟩ : ∃ t, ctx.catalog.table? id = some t := ⟨_, List.getElem?_eq_getElem hid⟩
  unfold tableReference
  rw [ht]
  cases hbody : t.isDerived <;> cases scopes.aliasOf id <;> simp [hbody, hderived]

end Names

/-! ## Statements -/

/-- A statement is written when its columns exist and its tables are written. -/
theorem dangles_statement {ctx : Context} {n : Nat} {s : Statement}
    (hs : s.resolves ctx.catalog n = true)
    (htable : ∀ scopes id, id < n → Piece.dangles (tableReference ctx scopes id) = false)
    (scopes : Scopes) : Piece.dangles (statement ctx scopes s) = false := by
  obtain ⟨hcolumns, hsources⟩ := (s.resolves_iff ctx.catalog n).mp hs
  have hqueries : ∀ q ∈ s.queries, Piece.Settled (query ctx scopes q) (query ctx scopes q) := by
    intro q hq
    refine query_related_self compatible_settled (fun _ => rfl) (fun ref href => ?_)
      fun id hid => ?_
    · exact dangles_column ctx _ (hcolumns ref (List.mem_flatMap.mpr ⟨q, hq, href⟩))
    · exact htable _ id (hsources id (List.mem_flatMap.mpr ⟨q, hq, hid⟩))
  exact statement_related_self compatible_settled hqueries

/-! ## Catalogs -/

section Catalog

variable {catalog : Catalog} (escape : String → String)

/-- In a layered catalog the context for the tables below a position writes each of them. -/
theorem dangles_below_derived (hlayered : catalog.layered = true) {n : Nat} (hn : n ≤ catalog.size)
    {id : TableId} (hid : id < n) (scopes : Scopes) :
    Piece.dangles ((Context.below catalog escape n).derived id scopes) = false := by
  induction id using Nat.strongRecOn generalizing n scopes with
  | ind id ih =>
    have hlt : id < catalog.size := Nat.lt_of_lt_of_le hid hn
    have hcatalog := Context.catalog_below catalog escape id
    rw [Context.derived_below, if_pos hid]
    cases hbody : (catalog.table? id).bind (·.body) with
    | none => rfl
    | some body =>
      -- the statement mentions only tables before its own
      have hresolves : body.resolves (Context.below catalog escape id).catalog id = true := by
        have hall := List.all_eq_true.mp hlayered id (List.mem_range.mpr hlt)
        rw [hbody] at hall
        rw [hcatalog]
        exact hall
      refine dangles_statement hresolves (fun scopes other hother => ?_) scopes
      refine dangles_tableReference _ scopes ?_
        (ih other hother (Nat.le_of_lt hlt) hother scopes)
      rw [hcatalog]
      exact Nat.lt_trans hother hlt

/-- A statement over a layered catalog whose references resolve is written. -/
theorem dangles_statement_ofCatalog (hlayered : catalog.layered = true) {s : Statement}
    (hs : s.resolves catalog catalog.size = true) (scopes : Scopes) :
    Piece.dangles (statement (.ofCatalog catalog escape) scopes s) = false := by
  have hcatalog := Context.catalog_ofCatalog catalog escape
  have hresolves : s.resolves (Context.ofCatalog catalog escape).catalog catalog.size = true := by
    rw [hcatalog]
    exact hs
  refine dangles_statement hresolves (fun scopes id hid => ?_) scopes
  refine dangles_tableReference _ scopes ?_
    (dangles_below_derived escape hlayered (Nat.le_refl _) hid scopes)
  rw [hcatalog]
  exact hid

end Catalog

end Render

end SqlGraph
