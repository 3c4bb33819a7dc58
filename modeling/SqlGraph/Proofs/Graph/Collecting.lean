import SqlGraph.Proofs.Graph.Layout
import SqlGraph.Proofs.Graph.Opaque
import SqlGraph.Proofs.Graph.Substitution

/-!
# Beans collected one after the other

A one-to-many link adds each related bean to a collection of its owner. Whatever the collection is,
a run of such fixes leaves there what adding the beans to an empty collection gives
(`BeanCollection.gather`), and touches nothing else in the heap (`Fixer.fixEach_many`). The
collections differ in how they look for a bean and agree in what they end with: a list and an
ordered set keep the first occurrences in order, a plain set the same beans in an order of its own,
and an optional collection is there from the first bean on. The main statement is
`Fixer.becomes_fixEach`.
-/

namespace SqlGraph.Graph

variable {α γ : Type}

/-! ## What collections end with -/

namespace BeanCollection

/-- The collection that beans are added to in order, empty at first. -/
def gather [BeanCollection γ] (beans : List BeanId) : γ := beans.foldl add empty

section Collections

variable (beans : List BeanId)

theorem gather_concat [BeanCollection γ] (bean : BeanId) :
    (gather (beans ++ [bean]) : γ) = add (gather beans) bean :=
  List.foldl_concat _ _ _ _

/-- A list ends with the distinct beans in order of first addition. -/
theorem gather_list : (gather beans : List BeanId) = beans.eraseDups := by
  induction beans using List.reverseRecOn with
  | nil => rfl
  | append_singleton rest bean ih =>
    have hcontains : rest.eraseDups.contains bean = rest.contains bean := by
      rw [Bool.eq_iff_iff, List.contains_iff_mem, List.contains_iff_mem, List.mem_eraseDups]
    rw [gather_concat, ih, eraseDups_concat, ← hcontains]
    rfl

theorem gather_orderedSet : (gather beans : OrderedSet) = ⟨gather beans⟩ := by
  induction beans using List.reverseRecOn with
  | nil => rfl
  | append_singleton rest bean ih => rw [gather_concat, gather_concat, ih, addOrderedSet_eq_addList]

theorem mem_gather_plainSet {bean : BeanId} :
    bean ∈ (gather beans : PlainSet).members ↔ bean ∈ beans := by
  induction beans using List.reverseRecOn with
  | nil => exact Iff.rfl
  | append_singleton rest other ih =>
    rw [gather_concat, List.mem_append, List.mem_singleton, ← ih, or_comm]
    exact PlainSet.mem_insertSorted

/-- A plain set lists its members by ascending handle. -/
theorem pairwise_gather_plainSet : (gather beans : PlainSet).members.Pairwise (· < ·) := by
  induction beans using List.reverseRecOn with
  | nil => exact List.Pairwise.nil
  | append_singleton rest bean ih =>
    rw [gather_concat]
    exact PlainSet.pairwise_insertSorted ih

/-- A plain set ends with the same beans as a list, each once. -/
theorem perm_gather_plainSet : (gather beans : PlainSet).members.Perm beans.eraseDups := by
  have hnodup : (gather beans : PlainSet).members.Nodup :=
    (pairwise_gather_plainSet beans).imp Nat.ne_of_lt
  refine (List.perm_ext_iff_of_nodup hnodup (nodup_eraseDups beans)).mpr fun bean => ?_
  rw [mem_gather_plainSet, List.mem_eraseDups]

/-- An optional collection is absent until a bean is added, and then is what the collection is. -/
theorem gather_option [BeanCollection γ] :
    (gather beans : Option γ) = if beans = [] then none else some (gather beans) := by
  induction beans using List.reverseRecOn with
  | nil => rfl
  | append_singleton rest bean ih =>
    have hstart : (gather rest : Option γ).getD empty = gather rest := by
      rw [ih]
      split
      · next hnil => exact hnil ▸ rfl
      · rfl
    rw [if_neg (List.concat_ne_nil bean rest), gather_concat, gather_concat, ← hstart]
    rfl

end Collections

end BeanCollection

/-! ## Slots in a heap -/

theorem Slot.Lawful.modify_set {slot : Slot α γ} (h : slot.Lawful) (f : γ → γ) (v : γ) (a : α) :
    slot.modify f (slot.set v a) = slot.set (f v) a := by
  rw [Slot.modify, h.get_set, h.set_set]

/-- A lawful slot that holds an empty collection in a content. -/
structure Slot.Vacant [BeanCollection γ] (slot : Slot α γ) (a : α) : Prop extends slot.Lawful where
  get_eq_empty : slot.get a = BeanCollection.empty

/-- The slot of the owner becomes a value, and all else stays as it was: what the owner has beside
the slot, and all other beans. -/
structure Slot.Becomes (slot : Slot α γ) (owner : BeanId) (value : γ) (before after : Heap α) :
    Prop where
  holds : (after.content? owner).map slot.get = some value
  /-- a field of the owner is whatever a write of the slot leaves as it is -/
  keeps_field : ∀ {δ : Type} (field : α → δ), (∀ v a, field (slot.set v a) = field a) →
    (after.content? owner).map field = (before.content? owner).map field
  keeps_kind : (after.bean? owner).map (·.kind) = (before.bean? owner).map (·.kind)
  keeps_bean : ∀ bean ≠ owner, after.bean? bean = before.bean? bean

namespace Heap

variable {heap : Heap α} {owner : BeanId} {a : α}

theorem modify_modify (heap : Heap α) (owner : BeanId) (f g : α → α) :
    (heap.modify owner f).modify owner g = heap.modify owner (g ∘ f) := by
  refine ext_bean? fun bean => ?_
  rw [bean?_modify, bean?_modify, bean?_modify, bean?_modify, if_pos rfl, Option.map_map]
  split <;> rfl

theorem content?_modify_self (f : α → α) :
    (heap.modify owner f).content? owner = (heap.content? owner).map f := by
  rw [content?, bean?_modify, if_pos rfl, Option.map_map, content?, Option.map_map]
  rfl

theorem modify_eq_self {f : α → α} (hcontent : heap.content? owner = some a) (hf : f a = a) :
    heap.modify owner f = heap := by
  obtain ⟨b, hb, rfl⟩ := Option.map_eq_some_iff.mp hcontent
  refine ext_bean? fun bean => ?_
  rw [bean?_modify]
  split
  · next heq => rw [heq, hb, Option.map_some, hf]
  · rfl

theorem becomes_modify {slot : Slot α γ} (hslot : slot.Lawful)
    (hcontent : heap.content? owner = some a) (value : γ) :
    slot.Becomes owner value heap (heap.modify owner (slot.set value)) where
  holds := by rw [content?_modify_self, hcontent, Option.map_some, Option.map_some, hslot.get_set]
  keeps_field field hfield := by
    rw [content?_modify_self, hcontent, Option.map_some, Option.map_some, hfield, Option.map_some]
  keeps_kind := by
    rw [bean?_modify, if_pos rfl, Option.map_map]
    rfl
  keeps_bean bean hne := by rw [bean?_modify, if_neg hne]

end Heap

/-! ## Runs of fixes -/

namespace Fixer

/-- Wires related beans into their owner, one after the other. -/
def fixEach (fixer : Fixer α) (owner : BeanId) (related : List BeanId) (heap : Heap α) : Heap α :=
  related.foldl (fun heap bean => fixer.fix owner bean heap) heap

theorem fixEach_concat (fixer : Fixer α) (owner : BeanId) (related : List BeanId) (bean : BeanId)
    (heap : Heap α) :
    fixer.fixEach owner (related ++ [bean]) heap =
      fixer.fix owner bean (fixer.fixEach owner related heap) :=
  List.foldl_concat _ _ _ _

variable {heap : Heap α} {owner : BeanId} {a : α}

/-- A run of one-to-many fixes writes what its beans gather, into one slot of one bean. -/
theorem fixEach_many [BeanCollection γ] {slot : Slot α γ} (hslot : slot.Vacant a)
    (hcontent : heap.content? owner = some a) (related : List BeanId) :
    (Fixer.many slot).fixEach owner related heap =
      heap.modify owner (slot.set (BeanCollection.gather related)) := by
  -- from the back: the last fix adds to what the fixes before it wrote into the slot
  induction related using List.reverseRecOn with
  | nil =>
    -- nothing is written, which is as good as writing the empty collection that is there
    have hkept : slot.set BeanCollection.empty a = a := by
      rw [← hslot.get_eq_empty, hslot.set_get]
    exact (Heap.modify_eq_self hcontent hkept).symm
  | append_singleton rest bean ih =>
    calc (Fixer.many slot).fixEach owner (rest ++ [bean]) heap
      _ = (heap.modify owner (slot.set (BeanCollection.gather rest))).modify owner
            (slot.modify fun beans => BeanCollection.add beans bean) := by
          rw [fixEach_concat, ih]
          rfl
      _ = heap.modify owner fun a =>
            slot.set (BeanCollection.add (BeanCollection.gather rest) bean) a := by
          rw [Heap.modify_modify]
          congr 1
          funext a
          exact hslot.modify_set _ _ a
      _ = heap.modify owner (slot.set (BeanCollection.gather (rest ++ [bean]))) := by
          rw [BeanCollection.gather_concat]

theorem becomes_gather [BeanCollection γ] {slot : Slot α γ} (hslot : slot.Vacant a)
    (hcontent : heap.content? owner = some a) (related : List BeanId) :
    slot.Becomes owner (BeanCollection.gather related) heap
      ((Fixer.many slot).fixEach owner related heap) := by
  rw [fixEach_many hslot hcontent]
  exact Heap.becomes_modify hslot.toLawful hcontent _

/-- A run of one-to-many fixes of one owner, with whatever related beans, also the owner itself, and
from an empty collection on. A list and an ordered set end with the same list: the beans of the run
without repetitions, in order of first addition. A plain set ends with the same beans, each once. An
optional collection ends as absent when the run is empty, and otherwise as what the collection ends
with by itself. Beans are told apart by their handles, whatever their contents, and the run changes
neither what the owner has beside the collection nor any other bean. -/
theorem becomes_fixEach (hcontent : heap.content? owner = some a) (related : List BeanId) :
    (∀ slot : Slot α (List BeanId), slot.Vacant a →
      slot.Becomes owner related.eraseDups heap
        ((Fixer.many slot).fixEach owner related heap)) ∧
    (∀ slot : Slot α OrderedSet, slot.Vacant a →
      slot.Becomes owner ⟨related.eraseDups⟩ heap
        ((Fixer.many slot).fixEach owner related heap)) ∧
    (∀ slot : Slot α PlainSet, slot.Vacant a →
      ∃ set : PlainSet, set.members.Perm related.eraseDups ∧
        slot.Becomes owner set heap ((Fixer.many slot).fixEach owner related heap)) ∧
    (∀ {γ : Type} [BeanCollection γ] (slot : Slot α γ) (optional : Slot α (Option γ)),
      slot.Vacant a → optional.Vacant a →
      ∃ collected : γ,
        slot.Becomes owner collected heap ((Fixer.many slot).fixEach owner related heap) ∧
        optional.Becomes owner (if related = [] then none else some collected) heap
          ((Fixer.many optional).fixEach owner related heap)) := by
  refine ⟨fun slot hslot => ?_, fun slot hslot => ?_, fun slot hslot => ?_,
    fun slot optional hslot hoptional => ?_⟩
  · rw [← BeanCollection.gather_list]
    exact becomes_gather hslot hcontent related
  · rw [← BeanCollection.gather_list, ← BeanCollection.gather_orderedSet]
    exact becomes_gather hslot hcontent related
  · exact ⟨_, BeanCollection.perm_gather_plainSet related, becomes_gather hslot hcontent related⟩
  · refine ⟨_, becomes_gather hslot hcontent related, ?_⟩
    rw [← BeanCollection.gather_option]
    exact becomes_gather hoptional hcontent related

end Fixer

/-! ## A crate of each kind -/

/-- A content with a label and a collection of each kind. -/
private structure Crate where
  label : String := "crate"
  list : List BeanId := []
  ordered : OrderedSet := {}
  plain : PlainSet := {}
  optional : Option PlainSet := none

namespace Crate

private def listSlot : Slot Crate (List BeanId) := ⟨list, fun v a => { a with list := v }⟩

private def orderedSlot : Slot Crate OrderedSet := ⟨ordered, fun v a => { a with ordered := v }⟩

private def plainSlot : Slot Crate PlainSet := ⟨plain, fun v a => { a with plain := v }⟩

private def optionalSlot : Slot Crate (Option PlainSet) :=
  ⟨optional, fun v a => { a with optional := v }⟩

/-- Three crates of equal content, of which the first takes them all, itself included and two of
them twice. -/
theorem becomes_fixEach_crates :
    let crates : Heap Crate := ⟨List.replicate 3 ⟨0, {}⟩⟩
    let related := [2, 1, 2, 0, 1]
    listSlot.Becomes 0 [2, 1, 0] crates ((Fixer.many listSlot).fixEach 0 related crates) ∧
    orderedSlot.Becomes 0 ⟨[2, 1, 0]⟩ crates
      ((Fixer.many orderedSlot).fixEach 0 related crates) ∧
    (∃ set : PlainSet, set.members.Perm [2, 1, 0] ∧
      plainSlot.Becomes 0 set crates ((Fixer.many plainSlot).fixEach 0 related crates)) ∧
    (∃ collected : PlainSet,
      plainSlot.Becomes 0 collected crates ((Fixer.many plainSlot).fixEach 0 related crates) ∧
      optionalSlot.Becomes 0 (some collected) crates
        ((Fixer.many optionalSlot).fixEach 0 related crates)) := by
  intro crates related
  have hdistinct : related.eraseDups = [2, 1, 0] := by decide
  obtain ⟨hlist, hordered, hplain, hoptional⟩ :=
    Fixer.becomes_fixEach (show crates.content? 0 = some {} from rfl) related
  rw [hdistinct] at hlist hordered hplain
  have hplainSlot : plainSlot.Vacant {} := ⟨⟨fun _ _ => rfl, fun _ => rfl, fun _ _ _ => rfl⟩, rfl⟩
  exact ⟨hlist listSlot ⟨⟨fun _ _ => rfl, fun _ => rfl, fun _ _ _ => rfl⟩, rfl⟩,
    hordered orderedSlot ⟨⟨fun _ _ => rfl, fun _ => rfl, fun _ _ _ => rfl⟩, rfl⟩,
    hplain plainSlot hplainSlot,
    hoptional plainSlot optionalSlot hplainSlot
      ⟨⟨fun _ _ => rfl, fun _ => rfl, fun _ _ _ => rfl⟩, rfl⟩⟩

end Crate

end SqlGraph.Graph
