import SqlGraph.Query.From
import SqlGraph.Render.Piece

/-!
# How scopes name tables

A table goes by the alias of the innermost scope that names it. The scope of a from clause names
the tables of the clause and those it gives an alias to (`FromClause.find?_scope`), so a from clause
decides how its own tables are named, whatever the scopes around it: `Scopes.aliasOf_scope`.
-/

namespace SqlGraph

/-! ## Values attached to tables -/

namespace TableMap

variable {α β : Type}

theorem find?_insert (m : TableMap α) (table : TableId) (value : α) (id : TableId) :
    (m.insert table value).find? id = if id = table then some value else m.find? id := by
  show (insertEntry table value m.entries).lookup id = if id = table then _ else m.entries.lookup id
  induction m.entries with
  | nil =>
    unfold insertEntry
    by_cases hid : id = table
    · rw [hid, List.lookup_cons_self, if_pos rfl]
    · rw [List.lookup_cons, beq_false_of_ne hid, if_neg hid]
  | cons entry rest ih =>
    obtain ⟨t, v⟩ := entry
    unfold insertEntry
    by_cases hid : id = table
    · subst hid
      rw [if_pos rfl]
      split
      · rw [List.lookup_cons_self]
      · split
        · rw [List.lookup_cons_self]
        · next hne =>
          rw [List.lookup_cons, beq_false_of_ne hne, ih, if_pos rfl]
    · rw [if_neg hid]
      split
      · rw [List.lookup_cons, beq_false_of_ne hid]
      · split
        · next heq =>
          rw [List.lookup_cons, List.lookup_cons, beq_false_of_ne hid,
            beq_false_of_ne (heq ▸ hid)]
        · rw [List.lookup_cons, List.lookup_cons, ih, if_neg hid]

theorem find?_insertIfNew (m : TableMap α) (table : TableId) (value : α) (id : TableId) :
    (m.insertIfNew table value).find? id =
      (m.find? id).or (if id = table then some value else none) := by
  unfold insertIfNew
  cases hfind : m.find? table with
  | some old =>
    by_cases hid : id = table
    · rw [hid, hfind]
      rfl
    · rw [if_neg hid, Option.or_none]
  | none =>
    show (m.insert table value).find? id = _
    rw [find?_insert]
    by_cases hid : id = table
    · rw [if_pos hid, if_pos hid, hid, hfind]
      rfl
    · rw [if_neg hid, if_neg hid, Option.or_none]

theorem find?_map (f : α → β) (m : TableMap α) (id : TableId) :
    (m.map f).find? id = (m.find? id).map f := by
  show (m.entries.map _).lookup id = (m.entries.lookup id).map f
  induction m.entries with
  | nil => rfl
  | cons entry rest ih =>
    obtain ⟨t, v⟩ := entry
    rw [List.map_cons, List.lookup_cons, List.lookup_cons, ih]
    cases id == t <;> rfl

end TableMap

/-! ## Scopes -/

/-- The scope of a from clause names its tables and the tables it gives an alias to. -/
theorem FromClause.find?_scope (f : FromClause) (id : TableId) :
    f.scope.find? id =
      ((f.aliases.find? id).map some).or (if id ∈ f.tables then some none else none) := by
  -- tables are added one by one, to whatever the scope names already
  have hfold : ∀ (tables : List TableId) (m : TableMap (Option String)),
      (tables.foldl (fun m t => m.insertIfNew t none) m).find? id =
        (m.find? id).or (if id ∈ tables then some none else none) := by
    intro tables
    induction tables with
    | nil =>
      intro m
      exact (Option.or_none).symm
    | cons t rest ih =>
      intro m
      rw [List.foldl_cons, ih, TableMap.find?_insertIfNew, Option.or_assoc]
      congr 1
      by_cases hid : id = t
      · rw [if_pos hid, if_pos (List.mem_cons.mpr (.inl hid))]
        rfl
      · rw [if_neg hid, Option.none_or]
        simp only [List.mem_cons, hid, false_or]
  rw [scope, hfold, TableMap.find?_map]

/-- Whether the from clause of a query names a table: as one of its tables, or under an alias. -/
def FromClause.Names (f : FromClause) (id : TableId) : Prop :=
  id ∈ f.tables ∨ (f.aliases.find? id).isSome

instance (f : FromClause) (id : TableId) : Decidable (f.Names id) :=
  inferInstanceAs (Decidable (_ ∨ _))

namespace Scopes

theorem aliasOf_cons (scope : Scope) (scopes : Scopes) (id : TableId) :
    aliasOf (scope :: scopes) id =
      match scope.find? id with
      | some named => named
      | none => scopes.aliasOf id := by
  unfold aliasOf
  rw [List.findSome?_cons]
  cases scope.find? id <;> rfl

/-- A table that a from clause names goes by the alias it has there, if any, and not by one that
the scopes around give it. -/
theorem aliasOf_scope {f : FromClause} {id : TableId} (h : f.Names id) (scopes : Scopes) :
    aliasOf (f.scope :: scopes) id = f.aliases.find? id := by
  rw [aliasOf_cons, f.find?_scope]
  cases halias : f.aliases.find? id with
  | some aliasName => rfl
  | none =>
    have hmem : id ∈ f.tables := by
      rcases h with hmem | hsome
      · exact hmem
      · simp [halias] at hsome
    rw [if_pos hmem]
    rfl

/-- Opening a scope twice names no table differently. -/
theorem aliasOf_twice (scope : Scope) (scopes : Scopes) (id : TableId) :
    aliasOf (scope :: scope :: scopes) id = aliasOf (scope :: scopes) id := by
  rw [aliasOf_cons]
  cases hfind : scope.find? id with
  | none => rfl
  | some named => rw [aliasOf_cons, hfind]

end Scopes

end SqlGraph
