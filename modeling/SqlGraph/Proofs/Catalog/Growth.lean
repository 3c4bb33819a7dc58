import SqlGraph.Catalog.Projection
import SqlGraph.Proofs.JoinTree.Aliases
import SqlGraph.Proofs.Render.References

/-!
# Catalogs that grow

A catalog starts empty and grows by registering tables, columns, copies and derived tables, and
by joins, which copy the tables that a tree has already (`Catalog.Reached`). Whatever is done, it
either adds a column or appends one table, whose statement is a copy of one that is there or
mentions only what is registered (`Operation.run_cases`). So the statement of a table mentions only
tables before it and columns that exist (`Catalog.Ordered`), and whatever is asked of any catalog,
its tables stay where they are and keep their columns (`Operation.grown_runAll`).
-/

namespace SqlGraph

/-- A statement mentions only tables below a position, and columns that exist. -/
structure Statement.Within (s : Statement) (c : Catalog) (n : Nat) : Prop where
  table_lt : ∀ id ∈ s.tables, id < n
  hasColumn : ∀ ref ∈ s.refs, c.hasColumn ref = true

/-- References within a catalog resolve. -/
theorem Statement.Within.resolves {s : Statement} {c : Catalog} {n : Nat} (h : s.Within c n) :
    s.resolves c n = true :=
  (s.resolves_iff c n).mpr ⟨h.hasColumn, fun id hid => h.table_lt id (s.sources_subset_tables hid)⟩

namespace Catalog

/-- The statement that a table stands for. -/
def body? (c : Catalog) (id : TableId) : Option Statement := (c.table? id).bind (·.body)

/-- The statement of a table mentions only tables before it, and columns that exist. -/
def Ordered (c : Catalog) : Prop :=
  ∀ id body, c.body? id = some body → body.Within c id

/-! ## Operations -/

/-- What is asked of a catalog. -/
inductive Operation where
  /-- A table, with or without schema. -/
  | addTable (schema : Option String) (name : String)
  | addColumn (id : TableId) (name : String) (type : SqlType)
  | cloneTable (id : TableId)
  /-- A statement registered as a derived table. -/
  | wrap (s : Statement) (name : Option String)
  /-- A join to a tree, which copies the table when the tree has it. -/
  | join (t : JoinTree) (parent name : String) (direction : Direction)
    (left right : List ColumnRef)

namespace Operation

/-- The catalog after an operation. -/
def run (c : Catalog) : Operation → Catalog
  | .addTable schema name => (c.addTable schema name).2
  | .addColumn id name type => (c.addColumn id name type).2
  | .cloneTable id => (c.cloneTable id).2
  | .wrap s name => (c.addStatement s name).2
  | .join t parent name direction left right =>
    match t.join c parent name direction left right with
    | .ok j => j.catalog
    | .error _ => c

/-- A statement is wrapped only when all it mentions is registered. -/
def Admissible (c : Catalog) : Operation → Prop
  | .wrap s _ => s.Within c c.size
  | _ => True

end Operation

/-- The catalogs that operations lead to from the empty one. -/
inductive Reached : Catalog → Prop where
  | empty : Reached {}
  | run {c : Catalog} (h : Reached c) (op : Operation) (hop : op.Admissible c) :
    Reached (op.run c)

/-- A table may be appended when its statement, if it has one, mentions only what is registered or
is that of a table already there. -/
def Accepts (c : Catalog) (t : Table) : Prop :=
  ∀ body, t.body = some body → body.Within c c.size ∨ ∃ id, c.body? id = some body

/-- A clone is accepted, as it keeps the statement of its original; out of range there is none. -/
theorem cloneTable_cases (c : Catalog) (id : TableId) :
    (c.cloneTable id).2 = c ∨ ∃ t, c.Accepts t ∧ (c.cloneTable id).2 = (c.append t).2 := by
  unfold cloneTable
  cases htable : c.table? id with
  | none => exact .inl rfl
  | some t =>
    refine .inr ⟨t, fun body hbody => .inr ⟨id, ?_⟩, rfl⟩
    rw [body?, htable, Option.bind_some, hbody]

/-- An operation changes nothing, adds a column, or appends a table, which is accepted when the
operation is admissible. -/
theorem Operation.run_cases (c : Catalog) (op : Operation) :
    op.run c = c ∨ (∃ id name type, op.run c = (c.addColumn id name type).2) ∨
      ∃ t, (op.Admissible c → c.Accepts t) ∧ op.run c = (c.append t).2 := by
  have hclone : ∀ id, (c.cloneTable id).2 = c ∨
      ∃ t, (op.Admissible c → c.Accepts t) ∧ (c.cloneTable id).2 = (c.append t).2 := by
    intro id
    obtain hsame | ⟨t, ht, happend⟩ := c.cloneTable_cases id
    · exact .inl hsame
    · exact .inr ⟨t, fun _ => ht, happend⟩
  cases op with
  | addTable schema name => exact .inr (.inr ⟨_, fun _ body hbody => by simp at hbody, rfl⟩)
  | addColumn id name type => exact .inr (.inl ⟨id, name, type, rfl⟩)
  | cloneTable id => exact (hclone id).imp_right .inr
  | wrap s name =>
    have hwithin : s.Within c c.size → ∀ body, some s = some body → body.Within c c.size := by
      intro hs body hbody
      rw [← Option.some.inj hbody]
      exact hs
    cases s with
    | query q => exact .inr (.inr ⟨_, fun hs body hbody => .inl (hwithin hs body hbody), rfl⟩)
    | union u => exact .inr (.inr ⟨_, fun hs body hbody => .inl (hwithin hs body hbody), rfl⟩)
  | join t parent name direction left right =>
    cases hjoin : t.join c parent name direction left right with
    | error e => exact .inl (by simp only [run, hjoin])
    | ok j =>
      have hrun : run c (.join t parent name direction left right) = j.catalog := by
        simp only [run, hjoin]
      rw [hrun]
      rcases JoinTree.join_catalog hjoin with hsame | ⟨id, hcloned⟩
      · exact .inl hsame
      · rw [hcloned]
        exact (hclone id).imp_right .inr

/-! ## Tables appended and columns added -/

section Steps

variable {c : Catalog}

theorem table?_append (c : Catalog) (t : Table) (id : TableId) :
    (c.append t).2.table? id = if id = c.size then some t else c.table? id := by
  show (c.tables ++ [t])[id]? = if id = c.tables.length then some t else c.tables[id]?
  by_cases hlt : id < c.tables.length
  · rw [List.getElem?_append_left hlt, if_neg (Nat.ne_of_lt hlt)]
  · by_cases heq : id = c.tables.length
    · rw [if_pos heq, heq, List.getElem?_concat_length]
    · rw [if_neg heq, List.getElem?_eq_none (Nat.le_of_not_lt hlt), List.getElem?_eq_none]
      rw [List.length_append]
      exact Nat.lt_of_le_of_ne (Nat.le_of_not_lt hlt) (Ne.symm heq)

theorem body?_append (c : Catalog) (t : Table) (id : TableId) :
    (c.append t).2.body? id = if id = c.size then t.body else c.body? id := by
  unfold body?
  rw [table?_append]
  by_cases hid : id = c.size
  · rw [if_pos hid, if_pos hid, Option.bind_some]
  · rw [if_neg hid, if_neg hid]

/-- A table that stands for a statement is registered. -/
theorem lt_size_of_body? {id : TableId} {body : Statement} (h : c.body? id = some body) :
    id < c.size := by
  obtain ⟨t, htable, _⟩ := Option.bind_eq_some_iff.mp h
  exact (List.getElem?_eq_some_iff.mp htable).1

/-- A table of an existing column is registered. -/
theorem lt_size_of_hasColumn {ref : ColumnRef} (h : c.hasColumn ref = true) :
    ref.table < c.size := by
  obtain ⟨column, hcolumn⟩ := Option.isSome_iff_exists.mp h
  obtain ⟨t, htable, _⟩ := Option.bind_eq_some_iff.mp hcolumn
  exact (List.getElem?_eq_some_iff.mp htable).1

theorem hasColumn_append {ref : ColumnRef} (h : c.hasColumn ref = true) (t : Table) :
    (c.append t).2.hasColumn ref = true := by
  have hne : ref.table ≠ c.size := Nat.ne_of_lt (lt_size_of_hasColumn h)
  unfold hasColumn column?
  rw [table?_append, if_neg hne]
  exact h

theorem table?_addColumn (c : Catalog) (id : TableId) (name : String) (type : SqlType)
    (other : TableId) :
    (c.addColumn id name type).2.table? other = (c.table? other).map fun t =>
      if id = other then { t with columns := t.columns ++ [{ name := name, type := type }] }
      else t := by
  show (c.tables.modify id _)[other]? = c.tables[other]?.map _
  rw [List.getElem?_modify]
  by_cases hid : id = other
  · simp only [if_pos hid]
    rfl
  · simp only [if_neg hid]
    rfl

theorem body?_addColumn (c : Catalog) (id : TableId) (name : String) (type : SqlType)
    (other : TableId) : (c.addColumn id name type).2.body? other = c.body? other := by
  unfold body?
  rw [table?_addColumn]
  cases c.table? other with
  | none => rfl
  | some t =>
    show (if id = other then _ else t : Table).body = t.body
    by_cases hid : id = other
    · rw [if_pos hid]
    · rw [if_neg hid]

theorem hasColumn_addColumn {ref : ColumnRef} (h : c.hasColumn ref = true) (id : TableId)
    (name : String) (type : SqlType) : (c.addColumn id name type).2.hasColumn ref = true := by
  obtain ⟨column, hcolumn⟩ := Option.isSome_iff_exists.mp h
  obtain ⟨t, htable, hposition⟩ := Option.bind_eq_some_iff.mp hcolumn
  obtain ⟨hlt, _⟩ := List.getElem?_eq_some_iff.mp hposition
  unfold hasColumn column?
  rw [table?_addColumn, htable, Option.map_some, Option.bind_some, Option.isSome_iff_exists]
  by_cases hid : id = ref.table
  · rw [if_pos hid]
    -- columns are only added at the end
    exact ⟨column, (List.getElem?_append_left hlt).trans hposition⟩
  · rw [if_neg hid]
    exact ⟨column, hposition⟩

/-! ## What operations keep -/

/-- The statement of a table mentions only what is registered. -/
theorem Ordered.within (h : c.Ordered) {id : TableId} {body : Statement}
    (hbody : c.body? id = some body) : body.Within c c.size where
  table_lt other hother :=
    Nat.lt_trans ((h id body hbody).table_lt other hother) (lt_size_of_body? hbody)
  hasColumn := (h id body hbody).hasColumn

/-- The table appended comes last, and so after all that its statement mentions. -/
theorem Ordered.append (h : c.Ordered) {t : Table} (ht : c.Accepts t) :
    (c.append t).2.Ordered := by
  intro id body hbody
  have hwithin : body.Within c id := by
    rw [body?_append] at hbody
    by_cases hid : id = c.size
    · rw [if_pos hid] at hbody
      rw [hid]
      -- a statement that is there already mentions only tables before its own, which come earlier
      rcases ht body hbody with hnew | ⟨other, hother⟩
      · exact hnew
      · exact h.within hother
    · rw [if_neg hid] at hbody
      exact h id body hbody
  exact ⟨hwithin.table_lt, fun ref href => hasColumn_append (hwithin.hasColumn ref href) t⟩

theorem Ordered.addColumn (h : c.Ordered) (id : TableId) (name : String) (type : SqlType) :
    (c.addColumn id name type).2.Ordered := by
  intro other body hbody
  rw [body?_addColumn] at hbody
  have hwithin : body.Within c other := h other body hbody
  exact ⟨hwithin.table_lt,
    fun ref href => hasColumn_addColumn (hwithin.hasColumn ref href) id name type⟩

/-- The derived tables of an ordered catalog are layered. -/
theorem Ordered.layered (h : c.Ordered) : c.layered = true := by
  refine List.all_eq_true.mpr fun n _ => ?_
  cases hbody : (c.table? n).bind (·.body) with
  | none => rfl
  | some body => exact (h n body hbody).resolves

/-- An operation keeps the order of the tables. -/
theorem Ordered.run (h : c.Ordered) {op : Operation} (hop : op.Admissible c) :
    (op.run c).Ordered := by
  rcases op.run_cases c with hsame | ⟨id, name, type, hadd⟩ | ⟨t, ht, happend⟩
  · rw [hsame]
    exact h
  · rw [hadd]
    exact h.addColumn id name type
  · rw [happend]
    exact h.append (ht hop)

/-- Reached catalogs are ordered, as the empty one has no statements. -/
theorem Reached.ordered (h : c.Reached) : c.Ordered := by
  induction h with
  | empty =>
    intro id body hbody
    have hnone : ({} : Catalog).body? id = none := rfl
    rw [hnone] at hbody
    simp at hbody
  | run _ op hop ih => exact ih.run hop

end Steps

end Catalog

/-! ## What stays as it is -/

/-- The second table is the first one, with columns added at the end. -/
structure Table.Grown (t t' : Table) : Prop where
  name : t'.name = t.name
  schema : t'.schema = t.schema
  body : t'.body = t.body
  columns : t.columns <+: t'.columns

theorem Table.Grown.refl (t : Table) : t.Grown t := ⟨rfl, rfl, rfl, List.prefix_rfl⟩

theorem Table.Grown.trans {t t' t'' : Table} (h : t.Grown t') (h' : t'.Grown t'') :
    t.Grown t'' where
  name := h'.name.trans h.name
  schema := h'.schema.trans h.schema
  body := h'.body.trans h.body
  columns := h.columns.trans h'.columns

theorem Table.Grown.isDerived {t t' : Table} (h : t.Grown t') : t'.isDerived = t.isDerived := by
  unfold Table.isDerived
  rw [h.body]

theorem Table.Grown.nameAt {t t' : Table} (h : t.Grown t') (id : TableId) :
    t'.nameAt id = t.nameAt id := by
  unfold Table.nameAt
  rw [h.name]

namespace Catalog

/-- The second catalog has the tables of the first one where they are, perhaps with more columns. -/
def Grown (c c' : Catalog) : Prop :=
  ∀ id t, c.table? id = some t → ∃ t', c'.table? id = some t' ∧ t.Grown t'

section Grown

variable {c c' c'' : Catalog}

theorem Grown.refl (c : Catalog) : c.Grown c := fun _ t htable => ⟨t, htable, .refl t⟩

theorem Grown.trans (h : c.Grown c') (h' : c'.Grown c'') : c.Grown c'' := by
  intro id t htable
  obtain ⟨t', htable', hgrown⟩ := h id t htable
  obtain ⟨t'', htable'', hgrown'⟩ := h' id t' htable'
  exact ⟨t'', htable'', hgrown.trans hgrown'⟩

/-- Tables are only appended. -/
theorem Grown.size_le (h : c.Grown c') : c.size ≤ c'.size := by
  by_contra hlt
  obtain ⟨t, htable⟩ : ∃ t, c.table? c'.size = some t :=
    ⟨_, List.getElem?_eq_getElem (Nat.lt_of_not_le hlt)⟩
  obtain ⟨t', htable', -⟩ := h c'.size t htable
  exact Nat.lt_irrefl c'.size (List.getElem?_eq_some_iff.mp htable').1

/-- A column that exists is the same column later. -/
theorem Grown.column? (h : c.Grown c') {ref : ColumnRef} {column : Column}
    (hcolumn : c.column? ref = some column) : c'.column? ref = some column := by
  obtain ⟨t, htable, hposition⟩ := Option.bind_eq_some_iff.mp hcolumn
  obtain ⟨hlt, hget⟩ := List.getElem?_eq_some_iff.mp hposition
  obtain ⟨t', htable', hgrown⟩ := h ref.table t htable
  refine Option.bind_eq_some_iff.mpr ⟨t', htable', ?_⟩
  rw [← hget]
  exact List.prefix_iff_getElem?.mp hgrown.columns ref.position hlt

theorem grown_append (c : Catalog) (t : Table) : c.Grown (c.append t).2 := by
  intro id t' htable
  have hne : id ≠ c.size := Nat.ne_of_lt (List.getElem?_eq_some_iff.mp htable).1
  rw [table?_append, if_neg hne]
  exact ⟨t', htable, .refl t'⟩

theorem grown_addColumn (c : Catalog) (id : TableId) (name : String) (type : SqlType) :
    c.Grown (c.addColumn id name type).2 := by
  intro other t htable
  refine ⟨_, by rw [table?_addColumn, htable, Option.map_some], ?_⟩
  by_cases hid : id = other
  · rw [if_pos hid]
    exact ⟨rfl, rfl, rfl, List.prefix_append _ _⟩
  · rw [if_neg hid]
    exact .refl t

/-- An operation keeps what is registered, admissible or not. -/
theorem Operation.grown_run (c : Catalog) (op : Operation) : c.Grown (op.run c) := by
  rcases op.run_cases c with hsame | ⟨id, name, type, hadd⟩ | ⟨t, -, happend⟩
  · rw [hsame]
    exact .refl c
  · rw [hadd]
    exact c.grown_addColumn id name type
  · rw [happend]
    exact c.grown_append t

/-- The catalog after operations, one after the other. -/
def Operation.runAll (c : Catalog) (ops : List Operation) : Catalog := ops.foldl Operation.run c

theorem Operation.grown_runAll (c : Catalog) (ops : List Operation) : c.Grown (runAll c ops) := by
  induction ops generalizing c with
  | nil => exact .refl c
  | cons op rest ih => exact (op.grown_run c).trans (ih (op.run c))

end Grown

end Catalog

end SqlGraph
