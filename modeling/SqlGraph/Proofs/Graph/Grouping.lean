import Mathlib.Data.List.Induction
import SqlGraph.Graph.Traversal
import SqlGraph.Proofs.Graph.Beans

/-!
# Grouping rows

What a traversal should give, said without a cache: the rows of a result are grouped by the key
of the root, and within a group by the keys of the related entities.

* `Plan`, a root entity with collections of related entities, and the transformer it stands for;
* `Plan.Lawful`, the columns overwrite fields, and the collections are places of their own;
* `Plan.Grouped`, the beans of a grouping: one for each key, filled from the last row of the key,
  with one related bean in a collection for each related key of the group.
-/

namespace SqlGraph.Graph

variable {α : Type}

/-! ## Columns -/

/-- A column that reads its cell and fills a field with it. -/
structure FieldColumn (α : Type) where
  label : String
  read : Json → Except Error Json
  fill : Json → α → α

namespace FieldColumn

/-- A column of cells as they are. -/
def raw (label : String) (fill : Json → α → α) : FieldColumn α where
  label := label
  read := .ok
  fill := fill

/-- A column of cells read as a type; null stays null. -/
def typed (label : String) (type : ColumnType) (fill : Json → α → α) : FieldColumn α where
  label := label
  read v :=
    if v.isNull then .ok .null
    else
      match type.read? v with
      | some v => .ok v
      | none => .error (.columnConversion label)
  fill := fill

/-- The column as a transformer has it. -/
def reader (c : FieldColumn α) : ColumnReader α where
  label := c.label
  consume v a := (c.read v).map fun v => c.fill v a

/-- What the column reads from a row. -/
def cell (c : FieldColumn α) (row : Row) : Except Error Json := (row c.label).bind c.read

/-- Fills the field from a row. -/
def write (c : FieldColumn α) (row : Row) (a : α) : α :=
  match c.cell row with
  | .ok v => c.fill v a
  | .error _ => a

/-- A fill undoes a former fill of the other column. -/
def Overwrites (c d : FieldColumn α) : Prop := ∀ v w a, c.fill v (d.fill w a) = c.fill v a

/-- The columns fill different fields. -/
def Commutes (c d : FieldColumn α) : Prop :=
  ∀ v w a, c.fill v (d.fill w a) = d.fill w (c.fill v a)

@[simp] theorem reader_raw (label : String) (fill : Json → α → α) :
    (raw label fill).reader = ColumnReader.raw label fill := rfl

@[simp] theorem reader_typed (label : String) (type : ColumnType) (fill : Json → α → α) :
    (typed label type fill).reader = ColumnReader.typed label type fill := by
  have hconsume : (typed label type fill).reader.consume =
      (ColumnReader.typed label type fill).consume := by
    funext v a
    simp only [reader, typed, ColumnReader.typed]
    cases v.isNull with
    | true => rfl
    | false => cases type.read? v <;> rfl
  unfold reader at hconsume ⊢
  unfold ColumnReader.typed at hconsume ⊢
  exact congrArg (ColumnReader.mk label) hconsume

end FieldColumn

/-! ## Entities -/

/-- Beans of one kind, found by the values of key columns, without relations of their own. -/
structure Entity (α : Type) where
  kind : BeanKind
  keyLabels : List String
  construct : Key → α
  columns : List (FieldColumn α)

namespace Entity

/-- The factory of the beans. -/
def factory (e : Entity α) : Factory α where
  kind := e.kind
  keyColumns := some e.keyLabels
  construct := e.construct

/-- The columns as a transformer has them. -/
def readers (e : Entity α) : List (ColumnReader α) := e.columns.map (·.reader)

/-- The key of a row, absent when a component is null. -/
def key? (e : Entity α) (row : Row) : Option Key :=
  match readAll row e.keyLabels with
  | .ok values => if (Key.mk values).isNull then none else some ⟨values⟩
  | .error _ => none

/-- Fills all fields from a row. -/
def fill (e : Entity α) (row : Row) (a : α) : α := e.columns.foldl (fun a c => c.write row a) a

/-- The rows of a key. -/
def rowsOf (e : Entity α) (rows : List Row) (key : Key) : List Row :=
  rows.filter fun row => e.key? row == some key

/-- A bean as constructed for its key, filled from the last row of the key. -/
def content (e : Entity α) (rows : List Row) (key : Key) : α :=
  match (e.rowsOf rows key).getLast? with
  | some row => e.fill row (e.construct key)
  | none => e.construct key

/-- The reads of a row succeed: those of the key, and those of the fields if there is a key. -/
structure Reads (e : Entity α) (row : Row) : Prop where
  key : (readAll row e.keyLabels).isOk = true
  cells : (e.key? row).isSome = true → ∀ c ∈ e.columns, (c.cell row).isOk = true

/-- The columns overwrite fields: every one its own, and two of them the same or different ones. -/
structure Overwriting (e : Entity α) : Prop where
  self : ∀ c ∈ e.columns, c.Overwrites c
  pair : ∀ c ∈ e.columns, ∀ d ∈ e.columns, c.Overwrites d ∨ c.Commutes d

end Entity

/-! ## Collections -/

/-- A collection that keeps the order of first addition: a list, or an ordered set. -/
inductive Collection (α : Type) where
  | list (slot : Slot α (List BeanId))
  | orderedSet (slot : Slot α OrderedSet)

namespace Collection

/-- The beans of the collection. -/
def get : Collection α → α → List BeanId
  | .list slot, a => slot.get a
  | .orderedSet slot, a => (slot.get a).members

/-- Replaces the beans of the collection. -/
def set : Collection α → List BeanId → α → α
  | .list slot, beans, a => slot.set beans a
  | .orderedSet slot, beans, a => slot.set ⟨beans⟩ a

/-- The one-to-many fixer of the collection. -/
def fixer : Collection α → Fixer α
  | .list slot => .many slot
  | .orderedSet slot => .many slot

/-- Adds a bean unless the collection has it. -/
def add (c : Collection α) (bean : BeanId) (a : α) : α :=
  c.set (Accumulator.insertDistinct (c.get a) bean) a

/-- Reading and replacing go to one place of a content. -/
structure Lawful (c : Collection α) : Prop where
  get_set : ∀ beans a, c.get (c.set beans a) = beans
  set_get : ∀ a, c.set (c.get a) a = a
  set_set : ∀ beans beans' a, c.set beans (c.set beans' a) = c.set beans a

/-- Two collections are different places. -/
structure Independent (c d : Collection α) : Prop where
  get_set : ∀ beans a, c.get (d.set beans a) = c.get a
  get_set' : ∀ beans a, d.get (c.set beans a) = d.get a
  set_comm : ∀ beans beans' a, c.set beans (d.set beans' a) = d.set beans' (c.set beans a)

/-- A column fills another place than the collection. -/
structure Apart (c : Collection α) (column : FieldColumn α) : Prop where
  get_fill : ∀ v a, c.get (column.fill v a) = c.get a
  set_fill : ∀ beans v a, c.set beans (column.fill v a) = column.fill v (c.set beans a)

end Collection

/-! ## Plans -/

/-- A collection of related beans, assembled on each row. -/
structure Link (α : Type) where
  id : RelationId
  target : Entity α
  collection : Collection α

/-- A root entity with its collections. -/
structure Plan (α : Type) where
  root : Entity α
  links : List (Link α)

/-- The relation of a link. -/
def Link.relation (l : Link α) : Relation α :=
  .mk l.id (.mk l.target.factory l.target.readers []) l.collection.fixer .eachRow

/-- The distinct keys, in order of first appearance. -/
def distinctKeys (keys : List Key) : List Key := keys.foldl Accumulator.insertDistinct []

namespace Plan

/-- The transformer of a plan. -/
def transformer (p : Plan α) : Transformer α :=
  .mk p.root.factory p.root.readers (p.links.map (·.relation))

/-- A content with its collections emptied. -/
def emptied (p : Plan α) (a : α) : α := p.links.foldl (fun a l => l.collection.set [] a) a

/-- What a plan takes for granted: kinds are different, columns overwrite fields, and collections
are places of their own, empty at first. -/
structure Lawful (p : Plan α) : Prop where
  kinds_nodup : (p.root.kind :: p.links.map (·.target.kind)).Nodup
  root_overwriting : p.root.Overwriting
  target_overwriting : ∀ l ∈ p.links, l.target.Overwriting
  collection_lawful : ∀ l ∈ p.links, l.collection.Lawful
  independent : p.links.Pairwise fun l m => l.collection.Independent m.collection
  apart : ∀ l ∈ p.links, ∀ c ∈ p.root.columns, l.collection.Apart c
  get_construct : ∀ l ∈ p.links, ∀ key, l.collection.get (p.root.construct key) = []

/-- All reads of a row succeed, and no key read has the float `-0.0`. Related entities are read
only when the row has a root. -/
structure Reads (p : Plan α) (row : Row) : Prop where
  root : p.root.Reads row
  root_zeroFree : ∀ key, p.root.key? row = some key → key.zeroFree = true
  target : (p.root.key? row).isSome = true → ∀ l ∈ p.links, l.target.Reads row
  target_zeroFree : (p.root.key? row).isSome = true → ∀ l ∈ p.links, ∀ key,
    l.target.key? row = some key → key.zeroFree = true

/-- The rows with a root. -/
def rooted (p : Plan α) (rows : List Row) : List Row :=
  rows.filter fun row => (p.root.key? row).isSome

/-- The keys of the roots. -/
def rootKeys (p : Plan α) (rows : List Row) : List Key :=
  distinctKeys (rows.filterMap p.root.key?)

/-- The keys that a link relates to a root. -/
def relatedKeys (p : Plan α) (l : Link α) (rows : List Row) (key : Key) : List Key :=
  distinctKeys ((p.root.rowsOf rows key).filterMap l.target.key?)

/-- The beans of a grouping, named by kind and key: every root is filled from the last row of its
key and has in each collection the beans related in its rows, each once; every related bean is
filled from the last row of its key that has a root. Different keys have different beans. -/
structure Grouped (p : Plan α) (rows : List Row) (bean : BeanKind → Key → BeanId)
    (heap : Heap α) : Prop where
  root : ∀ key ∈ p.rootKeys rows, ∃ a,
    heap.bean? (bean p.root.kind key) = some ⟨p.root.kind, a⟩ ∧
    p.emptied a = p.root.content rows key ∧
    ∀ l ∈ p.links,
      l.collection.get a = (p.relatedKeys l rows key).map (bean l.target.kind) ∧
      (l.collection.get a).Nodup
  related : ∀ l ∈ p.links, ∀ key ∈ (p.rooted rows).filterMap l.target.key?,
    heap.bean? (bean l.target.kind key) =
      some ⟨l.target.kind, l.target.content (p.rooted rows) key⟩
  roots_nodup : ((p.rootKeys rows).map (bean p.root.kind)).Nodup
  related_unique : ∀ l ∈ p.links, ∀ key ∈ (p.rooted rows).filterMap l.target.key?,
    ∀ key' ∈ (p.rooted rows).filterMap l.target.key?,
    bean l.target.kind key = bean l.target.kind key' → key = key'

end Plan

/-! ## Distinct keys -/

section ZeroFree

variable {keys : List Key} {key : Key} (hkeys : ∀ k ∈ keys, k.zeroFree = true)
  (hkey : key.zeroFree = true)
include hkeys hkey

/-- Without the float `-0.0`, a key is found where it is listed. -/
theorem any_beq_iff : (keys.any fun other => other == key) = true ↔ key ∈ keys := by
  rw [List.any_eq_true]
  constructor
  · rintro ⟨other, hother, heq⟩
    rw [Key.beq_iff_eq (hkeys other hother) hkey] at heq
    exact heq ▸ hother
  · intro hmem
    exact ⟨key, hmem, Key.beq_self key⟩

theorem insertDistinct_of_mem (h : key ∈ keys) : Accumulator.insertDistinct keys key = keys := by
  unfold Accumulator.insertDistinct
  rw [if_pos ((any_beq_iff hkeys hkey).mpr h)]

theorem insertDistinct_of_not_mem (h : key ∉ keys) :
    Accumulator.insertDistinct keys key = keys ++ [key] := by
  unfold Accumulator.insertDistinct
  rw [if_neg fun hany => h ((any_beq_iff hkeys hkey).mp hany)]

/-- A naming that tells keys apart turns distinct keys into distinct beans. -/
theorem map_insertDistinct {bean : Key → BeanId} (hbean : ∀ k ∈ keys, bean k = bean key → k = key) :
    (Accumulator.insertDistinct keys key).map bean =
      Accumulator.insertDistinct (keys.map bean) (bean key) := by
  have hmem : ((keys.map bean).any fun other => other == bean key) = true ↔ key ∈ keys := by
    rw [List.any_map, List.any_eq_true]
    constructor
    · rintro ⟨k, hk, heq⟩
      exact hbean k hk (by simpa using heq) ▸ hk
    · intro h
      exact ⟨key, h, by simp⟩
  by_cases h : key ∈ keys
  · rw [insertDistinct_of_mem hkeys hkey h]
    unfold Accumulator.insertDistinct
    rw [if_pos (hmem.mpr h)]
  · rw [insertDistinct_of_not_mem hkeys hkey h, List.map_append]
    unfold Accumulator.insertDistinct
    rw [if_neg fun hany => h (hmem.mp hany)]
    rfl

end ZeroFree

theorem distinctKeys_concat (keys : List Key) (key : Key) :
    distinctKeys (keys ++ [key]) = Accumulator.insertDistinct (distinctKeys keys) key := by
  unfold distinctKeys
  rw [List.foldl_concat]

/-- Distinct keys are keys of the list. -/
theorem mem_of_mem_distinctKeys {keys : List Key} {key : Key} (h : key ∈ distinctKeys keys) :
    key ∈ keys := by
  induction keys using List.reverseRecOn with
  | nil => exact h
  | append_singleton keys last ih =>
    rw [distinctKeys_concat] at h
    unfold Accumulator.insertDistinct at h
    split at h
    · exact List.mem_append_left _ (ih h)
    · rcases List.mem_append.mp h with hold | hlast
      · exact List.mem_append_left _ (ih hold)
      · exact List.mem_append_right _ hlast

/-- Without the float `-0.0`, distinct keys are listed once. -/
theorem nodup_distinctKeys {keys : List Key} (hkeys : ∀ k ∈ keys, k.zeroFree = true) :
    (distinctKeys keys).Nodup := by
  induction keys using List.reverseRecOn with
  | nil => exact List.nodup_nil
  | append_singleton keys last ih =>
    have hinit : ∀ k ∈ keys, k.zeroFree = true := fun k hk => hkeys k (List.mem_append_left _ hk)
    have hlast : last.zeroFree = true := hkeys last (by simp)
    have hdistinct : ∀ k ∈ distinctKeys keys, k.zeroFree = true :=
      fun k hk => hinit k (mem_of_mem_distinctKeys hk)
    rw [distinctKeys_concat]
    by_cases hmem : last ∈ distinctKeys keys
    · rw [insertDistinct_of_mem hdistinct hlast hmem]
      exact ih hinit
    · rw [insertDistinct_of_not_mem hdistinct hlast hmem, List.nodup_append]
      refine ⟨ih hinit, by simp, fun k hk k' hk' heq => ?_⟩
      rw [List.mem_singleton.mp hk'] at heq
      exact hmem (heq ▸ hk)

/-! ## One more row -/

namespace Entity

variable {e : Entity α} {rows : List Row} {row : Row} {key key' : Key}

/-- A row has one key. -/
theorem key?_ne (h : e.key? row = some key) (hne : key' ≠ key) : e.key? row ≠ some key' := by
  rw [h]
  intro heq
  exact hne (Option.some.inj heq).symm

theorem rowsOf_concat_self (h : e.key? row = some key) :
    e.rowsOf (rows ++ [row]) key = e.rowsOf rows key ++ [row] := by
  have hrow : (e.key? row == some key) = true := by
    rw [h]
    exact Key.beq_self key
  simp [rowsOf, List.filter_append, hrow]

/-- A row of another key, or of none, is no row of the key. -/
theorem rowsOf_concat_of_ne (hne : e.key? row ≠ some key)
    (hrow : ∀ k, e.key? row = some k → k.zeroFree = true) (hkey : key.zeroFree = true) :
    e.rowsOf (rows ++ [row]) key = e.rowsOf rows key := by
  have hfalse : (e.key? row == some key) = false := by
    cases h : e.key? row with
    | none => rfl
    | some k =>
      rw [Bool.eq_false_iff]
      intro heq
      have hk : (k == key) = true := heq
      rw [Key.beq_iff_eq (hrow k h) hkey] at hk
      exact hne (hk ▸ h)
  simp [rowsOf, List.filter_append, hfalse]

/-- A key that no row has has no rows. -/
theorem rowsOf_eq_nil (hrows : ∀ r ∈ rows, ∀ k, e.key? r = some k → k.zeroFree = true)
    (hkey : key.zeroFree = true) (h : key ∉ rows.filterMap e.key?) :
    e.rowsOf rows key = [] := by
  unfold rowsOf
  rw [List.filter_eq_nil_iff]
  intro r hr heq
  cases hk : e.key? r with
  | none =>
    rw [hk] at heq
    simp at heq
  | some k =>
    rw [hk] at heq
    have hbeq : (k == key) = true := heq
    rw [Key.beq_iff_eq (hrows r hr k hk) hkey] at hbeq
    exact h (List.mem_filterMap.mpr ⟨r, hr, hbeq ▸ hk⟩)

end Entity

end SqlGraph.Graph
