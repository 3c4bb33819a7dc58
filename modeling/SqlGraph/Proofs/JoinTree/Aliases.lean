import Mathlib.Data.List.Nodup
import SqlGraph.JoinTree.Derived

/-!
# Names and aliases of join trees

* `freshAlias` gives the first candidate that is not in use: candidates are pairwise different
  and one more of them is tried than there are names in use;
* `WellFormed` says what a tree keeps while it is joined to: names, aliases and tables of its
  nodes are pairwise distinct, its tables are in the catalog, and a parent comes before its
  children (`WellFormed.ofRoot`, `WellFormed.join`);
* trees built from a root by successful joins (`Built`) are well-formed, and tables of their
  catalog keep pairwise distinct column names, as a join can only clone them.
-/

namespace SqlGraph

/-- Every table of the catalog names its columns differently. -/
def Catalog.DistinctColumns (c : Catalog) : Prop :=
  ∀ table ∈ c.tables, (table.columns.map (·.name)).Nodup

theorem Catalog.size_append (c : Catalog) (t : Table) : (c.append t).2.size = c.size + 1 :=
  List.length_append

/-- A clone of a registered table gets the next position. -/
theorem Catalog.cloneTable_of_lt {c : Catalog} {id : TableId} (h : id < c.size) :
    ∃ table, c.table? id = some table ∧ c.cloneTable id = c.append table := by
  obtain ⟨table, htable⟩ : ∃ table, c.table? id = some table := ⟨_, List.getElem?_eq_getElem h⟩
  exact ⟨table, htable, by rw [cloneTable, htable]⟩

/-- A clone has the columns of its original. -/
theorem Catalog.DistinctColumns.cloneTable {c : Catalog} (h : c.DistinctColumns) (id : TableId) :
    (c.cloneTable id).2.DistinctColumns := by
  unfold Catalog.cloneTable
  cases htable : c.table? id with
  | none => exact h
  | some table =>
    intro other hother
    rcases List.mem_append.mp hother with hold | hnew
    · exact h other hold
    · rw [List.mem_singleton.mp hnew]
      exact h table (List.mem_of_getElem? htable)

/-- A number is read back from its digits. -/
theorem Nat.eq_of_toList_toString {i j : Nat} (h : (toString i).toList = (toString j).toList) :
    i = j := by
  have hread := congrArg (fun digits => Nat.ofDigitChars 10 digits 0) h
  simpa [Nat.toString_eq_repr, Nat.repr_eq_ofList_toDigits] using hread

/-- A list without duplicates keeps none when a new element is added at its end. -/
private theorem nodup_append_singleton {α : Type} {l : List α} {a : α} (hl : l.Nodup)
    (ha : a ∉ l) : (l ++ [a]).Nodup := by
  rw [← List.concat_eq_append]
  exact List.Nodup.concat ha hl

namespace JoinTree

/-! ## Aliases -/

/-- Candidates for an alias are told apart by their counter. -/
theorem aliasCandidate_injective (base : String) : Function.Injective (aliasCandidate base) := by
  intro i j h
  have hchars := congrArg String.toList h
  cases i with
  | zero =>
    cases j with
    | zero => rfl
    | succ j => simp [aliasCandidate] at hchars
  | succ i =>
    cases j with
    | zero => simp [aliasCandidate] at hchars
    | succ j =>
      simp only [aliasCandidate, String.toList_append, List.append_assoc] at hchars
      have hdigits := List.append_cancel_left (List.append_cancel_left hchars)
      rw [Nat.eq_of_toList_toString hdigits]

/-- Among one more candidate than there are names in use, some candidate is free. -/
theorem exists_free_candidate (used : List String) (base : String) :
    ∃ i < used.length + 1, aliasCandidate base i ∉ used := by
  by_contra hnone
  -- otherwise there would be more candidates than names
  have hsub : (List.range (used.length + 1)).map (aliasCandidate base) ⊆ used := by
    intro a ha
    obtain ⟨i, hi, rfl⟩ := List.mem_map.mp ha
    by_contra hfree
    exact hnone ⟨i, List.mem_range.mp hi, hfree⟩
  have hnodup : ((List.range (used.length + 1)).map (aliasCandidate base)).Nodup :=
    List.nodup_range.map (aliasCandidate_injective base)
  have hlength := hnodup.length_le_of_subset hsub
  rw [List.length_map, List.length_range] at hlength
  omega

/-- The alias chosen is the first candidate that is not in use. -/
theorem freshAlias_first (used : List String) (base : String) :
    ∃ i ≤ used.length, freshAlias used base = aliasCandidate base i ∧
      aliasCandidate base i ∉ used ∧ ∀ k < i, aliasCandidate base k ∈ used := by
  unfold freshAlias
  rw [List.find?_map]
  cases hfind : (List.range (used.length + 1)).find?
      ((fun a => !used.contains a) ∘ aliasCandidate base) with
  | none =>
    obtain ⟨i, hi, hfree⟩ := exists_free_candidate used base
    have hused := List.find?_eq_none.mp hfind i (List.mem_range.mpr hi)
    simp [hfree] at hused
  | some i =>
    obtain ⟨hfree, hi, hbefore⟩ := List.find?_range_eq_some.mp hfind
    refine ⟨i, Nat.le_of_lt_succ (List.mem_range.mp hi), rfl, by simpa using hfree, ?_⟩
    intro k hk
    simpa using hbefore k hk

/-- The alias chosen is not in use. -/
theorem freshAlias_not_mem (used : List String) (base : String) :
    freshAlias used base ∉ used := by
  obtain ⟨i, _, halias, hfree, _⟩ := freshAlias_first used base
  rw [halias]
  exact hfree

/-- Only which names are in use matters to the alias chosen, not how they are listed. -/
theorem freshAlias_congr {used used' : List String} (h : ∀ a, a ∈ used ↔ a ∈ used')
    (base : String) : freshAlias used base = freshAlias used' base := by
  obtain ⟨i, _, halias, hfree, hbefore⟩ := freshAlias_first used base
  obtain ⟨k, _, halias', hfree', hbefore'⟩ := freshAlias_first used' base
  have hik : i = k := by
    rcases Nat.lt_trichotomy i k with hlt | heq | hgt
    · exact absurd ((h _).mpr (hbefore' i hlt)) hfree
    · exact heq
    · exact absurd ((h _).mp (hbefore k hgt)) hfree'
  rw [halias, halias', hik]

/-! ## Joins -/

/-- What a successful join does: the name is new, and one node is added, under a fresh alias. Its
table is the one that the right columns designate, or a clone of it; its left columns are those of
its parent, and its right ones those of the clone if there is one. -/
theorem join_cases {t : JoinTree} {c : Catalog} {parent name : String} {direction : Direction}
    {left right : List ColumnRef} {j : Joined}
    (h : t.join c parent name direction left right = .ok j) :
    ∃ p first link, t.node? name = none ∧ t.node? parent = some p ∧
      right.head? = some first ∧
      link = {
        parent, direction, left := rebase p.table left
        right := if t.containsTable first.table then rebase j.table right else right } ∧
      (t.containsTable first.table = true ∧ (j.table, j.catalog) = c.cloneTable first.table ∨
        t.containsTable first.table = false ∧ (j.table, j.catalog) = (first.table, c)) ∧
      j.tree = ⟨t.nodes ++ [{
        name, table := j.table, link := some link
        aliasName := freshAlias t.aliases (p.aliasName ++ "_" ++ j.catalog.nameOf j.table) }]⟩ := by
  unfold join at h
  cases hname : t.node? name with
  | some _ => simp [hname] at h
  | none =>
    cases hparent : t.node? parent with
    | none => simp [hname, hparent] at h
    | some p =>
      cases hfirst : right.head? with
      | none => simp [hname, hparent, hfirst] at h
      | some first =>
        simp only [hname, hparent, hfirst, Except.ok.injEq] at h
        subst h
        refine ⟨p, first, _, rfl, rfl, rfl, rfl, ?_, rfl⟩
        cases htable : t.containsTable first.table with
        | true => exact .inl ⟨rfl, by simp⟩
        | false => exact .inr ⟨rfl, by simp⟩

/-- A successful join leaves the catalog as it is, or clones a table. -/
theorem join_catalog {t : JoinTree} {c : Catalog} {parent name : String} {direction : Direction}
    {left right : List ColumnRef} {j : Joined}
    (h : t.join c parent name direction left right = .ok j) :
    j.catalog = c ∨ ∃ id, j.catalog = (c.cloneTable id).2 := by
  obtain ⟨_, first, _, _, _, _, _, htable, _⟩ := join_cases h
  rcases htable with ⟨_, hcloned⟩ | ⟨_, hsame⟩
  · exact .inr ⟨first.table, congrArg Prod.snd hcloned⟩
  · exact .inl (congrArg Prod.snd hsame)

/-! ## Well-formed trees -/

/-- What holds of a tree and its catalog, however it was joined. -/
structure WellFormed (t : JoinTree) (c : Catalog) : Prop where
  /-- Node names are pairwise distinct. -/
  names_nodup : (t.nodes.map (·.name)).Nodup
  /-- Node aliases are pairwise distinct. -/
  aliases_nodup : t.aliases.Nodup
  /-- Each node has a table of its own. -/
  tables_nodup : (t.nodes.map (·.table)).Nodup
  /-- The tables are registered. -/
  table_lt : ∀ n ∈ t.nodes, n.table < c.size
  /-- The first node has no parent; each other one has its parent before it. -/
  parent_before : ∀ i n, t.nodes[i]? = some n →
    (i = 0 ∧ n.parent? = none) ∨ ∃ k m, k < i ∧ t.nodes[k]? = some m ∧ n.parent? = some m.name

/-- A tree of its root alone. -/
theorem WellFormed.ofRoot {c : Catalog} {name : String} {root : TableId} (h : root < c.size) :
    WellFormed (ofRoot c name root) c where
  names_nodup := List.nodup_singleton _
  aliases_nodup := List.nodup_singleton _
  tables_nodup := List.nodup_singleton _
  table_lt n hn := by rw [List.mem_singleton.mp hn]; exact h
  parent_before i n hn := by
    obtain ⟨hi, _⟩ := List.getElem?_eq_some_iff.mp hn
    have hzero : i = 0 := Nat.lt_one_iff.mp hi
    subst hzero
    exact .inl ⟨rfl, by rw [← Option.some.inj hn]; rfl⟩

section Join

variable {t : JoinTree} {c later : Catalog}

/-- A catalog that has grown still lists the tables of the tree. -/
theorem WellFormed.grow (h : WellFormed t c) (hle : c.size ≤ later.size) : WellFormed t later :=
  { h with table_lt := fun n hn => Nat.lt_of_lt_of_le (h.table_lt n hn) hle }

/-- A node is added to a well-formed tree when its name, alias and table are new and its parent
is there. -/
theorem WellFormed.insert (h : WellFormed t c) {n p : JoinNode} (hname : t.node? n.name = none)
    (halias : n.aliasName ∉ t.aliases) (htable : n.table ∉ t.nodes.map (·.table))
    (hlt : n.table < c.size) (hp : p ∈ t.nodes) (hparent : n.parent? = some p.name) :
    WellFormed ⟨t.nodes ++ [n]⟩ c where
  names_nodup := by
    rw [List.map_append]
    refine nodup_append_singleton h.names_nodup fun hmem => ?_
    obtain ⟨m, hm, hmn⟩ := List.mem_map.mp hmem
    have hother := List.find?_eq_none.mp hname m hm
    simp [hmn] at hother
  aliases_nodup := by
    rw [aliases, List.map_append]
    exact nodup_append_singleton h.aliases_nodup halias
  tables_nodup := by
    rw [List.map_append]
    exact nodup_append_singleton h.tables_nodup htable
  table_lt m hm := by
    rcases List.mem_append.mp hm with hold | hnew
    · exact h.table_lt m hold
    · rw [List.mem_singleton.mp hnew]
      exact hlt
  parent_before i m hm := by
    -- an old node keeps the place of its parent, and all old nodes are before the new one
    rw [List.getElem?_append] at hm
    by_cases hi : i < t.nodes.length
    · rw [if_pos hi] at hm
      rcases h.parent_before i m hm with hroot | ⟨k, q, hk, hq, hmq⟩
      · exact .inl hroot
      · exact .inr ⟨k, q, hk, by rw [List.getElem?_append_left (by omega), hq], hmq⟩
    · rw [if_neg hi] at hm
      have hmn : n = m := by
        have hmem := List.mem_of_getElem? hm
        exact (List.mem_singleton.mp hmem).symm
      obtain ⟨k, hk⟩ := List.mem_iff_getElem?.mp hp
      obtain ⟨hklt, _⟩ := List.getElem?_eq_some_iff.mp hk
      refine .inr ⟨k, p, by omega, ?_, hmn ▸ hparent⟩
      rw [List.getElem?_append_left hklt, hk]

/-- A node found by a name is in the tree and has the name. -/
theorem node?_eq_some {name : String} {n : JoinNode} (h : t.node? name = some n) :
    n ∈ t.nodes ∧ n.name = name :=
  ⟨List.mem_of_find?_eq_some h, by simpa using List.find?_some h⟩

/-- A table that no node has is not among the tables of the nodes. -/
theorem not_mem_tables {table : TableId} (h : t.containsTable table = false) :
    table ∉ t.nodes.map (·.table) := by
  intro hmem
  obtain ⟨n, hn, htable⟩ := List.mem_map.mp hmem
  have hno := List.any_eq_false.mp h n hn
  simp [htable] at hno

/-- A successful join keeps a tree well-formed: a table that is in the tree already is cloned,
and the clone is registered after all others. -/
theorem WellFormed.join (h : WellFormed t c) {parent name : String} {direction : Direction}
    {left right : List ColumnRef} {j : Joined}
    (hright : ∀ first ∈ right.head?, first.table < c.size)
    (hjoin : t.join c parent name direction left right = .ok j) :
    WellFormed j.tree j.catalog ∧ c.size ≤ j.catalog.size := by
  obtain ⟨p, first, link, hname, hp, hfirst, hlink, htable, htree⟩ := join_cases hjoin
  obtain ⟨hpmem, hpname⟩ := node?_eq_some hp
  have hlt : first.table < c.size := hright first hfirst
  have hfresh := freshAlias_not_mem t.aliases (p.aliasName ++ "_" ++ j.catalog.nameOf j.table)
  -- a clone is registered last, where no node has its table yet
  have hnew : j.table ∉ t.nodes.map (·.table) ∧ j.table < j.catalog.size ∧
      c.size ≤ j.catalog.size := by
    rcases htable with ⟨_, hclone⟩ | ⟨hout, hsame⟩
    · obtain ⟨table, _, happend⟩ := Catalog.cloneTable_of_lt hlt
      obtain ⟨hid, hcatalog⟩ := Prod.mk.inj (hclone.trans happend)
      have hsize : j.catalog.size = c.size + 1 := by
        rw [hcatalog]
        exact Catalog.size_append c table
      refine ⟨fun hmem => ?_, by rw [hid, hsize]; exact Nat.lt_succ_self _, by omega⟩
      obtain ⟨n, hn, hntable⟩ := List.mem_map.mp hmem
      have hold := h.table_lt n hn
      rw [hntable, hid] at hold
      exact Nat.lt_irrefl _ hold
    · obtain ⟨hid, hcatalog⟩ := Prod.mk.inj hsame
      rw [hid, hcatalog]
      exact ⟨not_mem_tables hout, hlt, Nat.le_refl _⟩
  obtain ⟨houtside, hregistered, hgrown⟩ := hnew
  refine ⟨?_, hgrown⟩
  rw [htree]
  refine (h.grow hgrown).insert hname hfresh houtside hregistered hpmem ?_
  rw [hpname, hlink]
  rfl

end Join

/-! ## Trees of successful joins -/

/-- The trees built from a root table by successful joins, with the catalog that the joins leave.
The root and the right columns of a join designate tables of the catalog. -/
inductive Built (start : Catalog) : JoinTree → Catalog → Prop where
  | root (name : String) {table : TableId} (htable : table < start.size) :
    Built start (ofRoot start name table) start
  | join {t : JoinTree} {c : Catalog} {parent name : String} {direction : Direction}
    {left right : List ColumnRef} {j : Joined} (ht : Built start t c)
    (hright : ∀ first ∈ right.head?, first.table < c.size)
    (hjoin : t.join c parent name direction left right = .ok j) :
    Built start j.tree j.catalog

section Built

variable {start c : Catalog} {t : JoinTree}

/-- Built trees are well-formed. -/
theorem Built.wellFormed (h : Built start t c) : WellFormed t c := by
  induction h with
  | root _ htable => exact WellFormed.ofRoot htable
  | join _ hright hjoin ih => exact (ih.join hright hjoin).1

/-- A node is found by its name. -/
theorem Built.node?_name (h : Built start t c) {n : JoinNode} (hn : n ∈ t.nodes) :
    t.node? n.name = some n := by
  have hinj := List.inj_on_of_nodup_map h.wellFormed.names_nodup
  unfold node?
  cases hfind : t.nodes.find? fun m => m.name == n.name with
  | none =>
    have hself := List.find?_eq_none.mp hfind n hn
    simp at hself
  | some m =>
    obtain ⟨hm, hmn⟩ := node?_eq_some hfind
    rw [hinj hm hn hmn]

/-- Distinct column names stay distinct, whatever is cloned. -/
theorem Built.distinctColumns (h : Built start t c) (hstart : start.DistinctColumns) :
    c.DistinctColumns := by
  induction h with
  | root => exact hstart
  | join _ _ hjoin ih =>
    rcases join_catalog hjoin with hsame | ⟨id, hcloned⟩
    · rw [hsame]
      exact ih
    · rw [hcloned]
      exact ih.cloneTable id

end Built

end JoinTree

end SqlGraph
