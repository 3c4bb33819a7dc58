import Mathlib.Data.List.Nodup
import Mathlib.Data.List.Pairwise
import SqlGraph.Proofs.Graph.Grouping

/-!
# Fields and collections of a content

Filling from a row overwrites what earlier rows filled (`Entity.fill_fill`), so only the last row
of a key matters. Fixing adds a bean to a collection (`Collection.fix_fixer`). In a lawful plan
fields and collections do not meet: a fill leaves the collections, and an addition leaves the
content with its collections emptied.
-/

namespace SqlGraph.Graph

variable {α : Type}

/-- A result that is no error. -/
theorem exists_of_isOk {ε β : Type} {r : Except ε β} (h : r.isOk = true) :
    ∃ b, r = .ok b := by
  cases r with
  | error e => simp [Except.isOk, Except.toBool] at h
  | ok b => exact ⟨b, rfl⟩

/-! ## Fills -/

namespace Entity

variable {e : Entity α} {row : Row}

/-- The fields filled from a row do not show a former fill of one of them. -/
private theorem foldl_write_fill {c : FieldColumn α} (columns : List (FieldColumn α))
    (hcells : ∀ d ∈ columns, (d.cell row).isOk = true) (hself : c.Overwrites c)
    (hpair : ∀ d ∈ columns, d.Overwrites c ∨ d.Commutes c) (hc : c ∈ columns) (v : Json) (a : α) :
    columns.foldl (fun a d => d.write row a) (c.fill v a) =
      columns.foldl (fun a d => d.write row a) a := by
  induction columns generalizing a with
  | nil => simp at hc
  | cons d rest ih =>
    obtain ⟨w, hw⟩ := exists_of_isOk (hcells d List.mem_cons_self)
    have hwrite : ∀ a, d.write row a = d.fill w a := by
      intro a
      unfold FieldColumn.write
      rw [hw]
    rw [List.foldl_cons, List.foldl_cons, hwrite, hwrite]
    -- the former fill moves past columns of other fields until its own field is filled again
    rcases List.mem_cons.mp hc with heq | hrest
    · rw [← heq, hself]
    · rcases hpair d List.mem_cons_self with hover | hcomm
      · rw [hover]
      · rw [hcomm]
        exact ih (fun d hd => hcells d (List.mem_cons_of_mem _ hd))
          (fun d hd => hpair d (List.mem_cons_of_mem _ hd)) hrest (d.fill w a)

/-- A later row overwrites an earlier one. -/
theorem fill_fill (h : e.Overwriting) (hcells : ∀ c ∈ e.columns, (c.cell row).isOk = true)
    (row' : Row) (a : α) : e.fill row (e.fill row' a) = e.fill row a := by
  have hsome : ∀ columns, columns ⊆ e.columns → ∀ a,
      e.fill row (columns.foldl (fun a c => c.write row' a) a) = e.fill row a := by
    intro columns
    induction columns with
    | nil =>
      intro _ a
      rfl
    | cons c rest ih =>
      intro hsub a
      have hc : c ∈ e.columns := hsub List.mem_cons_self
      rw [List.foldl_cons, ih fun d hd => hsub (List.mem_cons_of_mem c hd)]
      unfold FieldColumn.write
      cases c.cell row' with
      | error e => rfl
      | ok v =>
        exact foldl_write_fill e.columns hcells (h.self c hc) (fun d hd => h.pair d hd c hc) hc v a
  exact hsome e.columns (List.Subset.refl _) a

/-- The last row of the key is the one a bean is filled from. -/
theorem content_concat_self {rows : List Row} {key : Key} (h : e.key? row = some key) :
    e.content (rows ++ [row]) key = e.fill row (e.construct key) := by
  unfold content
  rw [rowsOf_concat_self h, List.getLast?_concat]

/-- Filling from one more row of the key. -/
theorem fill_content (h : e.Overwriting) (hcells : ∀ c ∈ e.columns, (c.cell row).isOk = true)
    (rows : List Row) (key : Key) :
    e.fill row (e.content rows key) = e.fill row (e.construct key) := by
  unfold content
  cases (e.rowsOf rows key).getLast? with
  | none => rfl
  | some last => exact fill_fill h hcells last _

theorem content_concat_of_ne {rows : List Row} {key : Key} (hne : e.key? row ≠ some key)
    (hrow : ∀ k, e.key? row = some k → k.zeroFree = true) (hkey : key.zeroFree = true) :
    e.content (rows ++ [row]) key = e.content rows key := by
  unfold content
  rw [rowsOf_concat_of_ne hne hrow hkey]

end Entity

/-! ## Collections of a content -/

theorem Collection.Independent.symm {c d : Collection α} (h : c.Independent d) :
    d.Independent c where
  get_set := h.get_set'
  get_set' := h.get_set
  set_comm beans beans' a := (h.set_comm beans' beans a).symm

/-- A list adds as distinct items are inserted. -/
theorem addList_eq (beans : List BeanId) (bean : BeanId) :
    BeanCollection.add beans bean = Accumulator.insertDistinct beans bean := by
  have hany : beans.contains bean = beans.any fun other => other == bean := by
    rw [List.contains_eq_any_beq]
    congr 1
    funext other
    rw [Bool.beq_comm]
  show (if beans.contains bean then beans else beans ++ [bean]) = _
  rw [hany]
  rfl

/-- An ordered set adds as distinct items are inserted. -/
theorem addOrderedSet_eq (beans : OrderedSet) (bean : BeanId) :
    (BeanCollection.add beans bean).members =
      Accumulator.insertDistinct beans.members bean := by
  show (beans.insert bean).members = _
  unfold OrderedSet.insert OrderedSet.position? Accumulator.insertDistinct
  by_cases hmem : bean ∈ beans.members
  · obtain ⟨i, hi⟩ : ∃ i, (beans.members.findIdx? fun b => b == bean) = some i := by
      rw [← Option.isSome_iff_exists, List.findIdx?_isSome]
      simpa using hmem
    rw [hi, if_pos (by simpa using hmem)]
  · have hnone : (beans.members.findIdx? fun b => b == bean) = none := by
      rw [List.findIdx?_eq_none_iff]
      intro b hb
      simpa using fun heq : b = bean => hmem (heq ▸ hb)
    rw [hnone, if_neg (by simpa using hmem)]

/-- Fixing adds the related bean to the collection of the owner. -/
theorem Collection.fix_fixer (c : Collection α) (owner related : BeanId) (heap : Heap α) :
    c.fixer.fix owner related heap = heap.modify owner (c.add related) := by
  cases c with
  | list slot =>
    show heap.modify owner _ = heap.modify owner _
    congr 1
    funext a
    exact congrArg (slot.set · a) (addList_eq (slot.get a) related)
  | orderedSet slot =>
    show heap.modify owner _ = heap.modify owner _
    congr 1
    funext a
    have hadd : BeanCollection.add (slot.get a) related =
        ⟨Accumulator.insertDistinct (slot.get a).members related⟩ := by
      rw [← addOrderedSet_eq]
    exact congrArg (slot.set · a) hadd

namespace Plan.Lawful

variable {p : Plan α} (hp : p.Lawful)
include hp

theorem kind_ne_root {l : Link α} (hl : l ∈ p.links) : l.target.kind ≠ p.root.kind := by
  intro heq
  exact (List.nodup_cons.mp hp.kinds_nodup).1 (List.mem_map.mpr ⟨l, hl, heq⟩)

/-- Links of different kinds have independent collections. -/
theorem independent_of_kind_ne {l m : Link α} (hl : l ∈ p.links) (hm : m ∈ p.links)
    (hne : l.target.kind ≠ m.target.kind) : l.collection.Independent m.collection := by
  have hlm : l ≠ m := fun heq => hne (congrArg (·.target.kind) heq)
  have hsymm : Std.Symm fun l m : Link α => l.collection.Independent m.collection :=
    ⟨fun _ _ h => h.symm⟩
  exact hp.independent.forall hl hm hlm

/-- Links of one kind are the same link. -/
theorem eq_of_kind_eq {l m : Link α} (hl : l ∈ p.links) (hm : m ∈ p.links)
    (heq : l.target.kind = m.target.kind) : l = m :=
  List.inj_on_of_nodup_map (List.nodup_cons.mp hp.kinds_nodup).2 hl hm heq

theorem emptied_write (c : FieldColumn α) (hc : c ∈ p.root.columns) (row : Row) (a : α) :
    p.emptied (c.write row a) = c.write row (p.emptied a) := by
  have hset : ∀ l ∈ p.links, ∀ a,
      l.collection.set [] (c.write row a) = c.write row (l.collection.set [] a) := by
    intro l hl a
    unfold FieldColumn.write
    cases c.cell row with
    | error e => rfl
    | ok v => exact (hp.apart l hl c hc).set_fill [] v a
  unfold Plan.emptied
  -- from here on only that each set commutes matters, not that the links are those of the plan
  generalize hlinks : p.links = links at hset
  clear hlinks
  induction links generalizing a with
  | nil => rfl
  | cons l rest ih =>
    rw [List.foldl_cons, List.foldl_cons, hset l List.mem_cons_self]
    exact ih _ fun m hm => hset m (List.mem_cons_of_mem l hm)

/-- Filling the fields of a root leaves its collections. -/
theorem emptied_fill (row : Row) (a : α) :
    p.emptied (p.root.fill row a) = p.root.fill row (p.emptied a) := by
  have hsome : ∀ columns, columns ⊆ p.root.columns → ∀ a,
      p.emptied (columns.foldl (fun a c => c.write row a) a) =
        columns.foldl (fun a c => c.write row a) (p.emptied a) := by
    intro columns
    induction columns with
    | nil =>
      intro _ a
      rfl
    | cons c rest ih =>
      intro hsub a
      rw [List.foldl_cons, List.foldl_cons, ih fun d hd => hsub (List.mem_cons_of_mem c hd),
        hp.emptied_write c (hsub List.mem_cons_self)]
  exact hsome p.root.columns (List.Subset.refl _) a

theorem get_fill {l : Link α} (hl : l ∈ p.links) (row : Row) (a : α) :
    l.collection.get (p.root.fill row a) = l.collection.get a := by
  have hsome : ∀ columns, columns ⊆ p.root.columns → ∀ a,
      l.collection.get (columns.foldl (fun a c => c.write row a) a) = l.collection.get a := by
    intro columns
    induction columns with
    | nil =>
      intro _ a
      rfl
    | cons c rest ih =>
      intro hsub a
      rw [List.foldl_cons, ih fun d hd => hsub (List.mem_cons_of_mem c hd)]
      unfold FieldColumn.write
      cases c.cell row with
      | error e => rfl
      | ok v => exact (hp.apart l hl c (hsub List.mem_cons_self)).get_fill v a
  exact hsome p.root.columns (List.Subset.refl _) a

/-- What a collection holds is gone when all are emptied. -/
theorem emptied_set {l : Link α} (hl : l ∈ p.links) (beans : List BeanId) (a : α) :
    p.emptied (l.collection.set beans a) = p.emptied a := by
  have hsome : ∀ links, links ⊆ p.links → l ∈ links → ∀ a,
      links.foldl (fun a m => m.collection.set [] a) (l.collection.set beans a) =
        links.foldl (fun a m => m.collection.set [] a) a := by
    intro links
    induction links with
    | nil =>
      intro _ hmem
      simp at hmem
    | cons m rest ih =>
      intro hsub hmem a
      have hm : m ∈ p.links := hsub List.mem_cons_self
      rw [List.foldl_cons, List.foldl_cons]
      by_cases hkind : m.target.kind = l.target.kind
      · rw [hp.eq_of_kind_eq hm hl hkind, (hp.collection_lawful l hl).set_set]
      · have hrest : l ∈ rest := by
          rcases List.mem_cons.mp hmem with heq | hrest
          · exact absurd (congrArg (·.target.kind) heq.symm) hkind
          · exact hrest
        rw [(hp.independent_of_kind_ne hm hl hkind).set_comm]
        exact ih (fun n hn => hsub (List.mem_cons_of_mem m hn)) hrest _
  exact hsome p.links (List.Subset.refl _) hl a

/-- A root is constructed without related beans. -/
theorem emptied_construct (key : Key) :
    p.emptied (p.root.construct key) = p.root.construct key := by
  have hset : ∀ l ∈ p.links,
      l.collection.set [] (p.root.construct key) = p.root.construct key := by
    intro l hl
    have h := (hp.collection_lawful l hl).set_get (p.root.construct key)
    rw [hp.get_construct l hl key] at h
    exact h
  unfold Plan.emptied
  generalize p.links = links at hset
  induction links with
  | nil => rfl
  | cons l rest ih =>
    rw [List.foldl_cons, hset l List.mem_cons_self]
    exact ih fun m hm => hset m (List.mem_cons_of_mem l hm)

end Plan.Lawful

end SqlGraph.Graph
