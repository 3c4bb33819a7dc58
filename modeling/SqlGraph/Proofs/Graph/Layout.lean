import Mathlib.Logic.Function.Basic
import SqlGraph.Proofs.Graph.Laws

/-!
# Fields of a content

A content consists of fields (`Layout`), and what a row does to it is seen field by field: a column
overwrites some fields, a link is written over, and a collection takes a bean in that it then keeps
(`KeepingCollection`). Such edits may follow each other in any number and order, also on one field:
taken together they are seen by each field as one value written, or as beans added
(`Field.Sees.comp`). So making all of them a second time changes nothing, whatever the last write of
a field is and whatever was added behind it (`Layout.Tame.idempotent`), and likewise for edits of
all beans of a heap (`Layout.TameBelow.idempotent`).
-/

namespace SqlGraph.Graph

variable {α γ : Type}

/-! ## Collections keep what is added -/

/-- A bean that is added stays in the collection: to add it once more changes nothing, and neither
does it after another bean was added. -/
class KeepingCollection (γ : Type) [BeanCollection γ] : Prop where
  add_self : ∀ (beans : γ) (bean : BeanId),
    BeanCollection.add (BeanCollection.add beans bean) bean = BeanCollection.add beans bean
  add_held : ∀ (beans : γ) (bean other : BeanId), BeanCollection.add beans bean = beans →
    BeanCollection.add (BeanCollection.add beans other) bean = BeanCollection.add beans other

section List

variable {beans : List BeanId} {bean : BeanId}

theorem addList_eq_self : BeanCollection.add beans bean = beans ↔ bean ∈ beans := by
  show (if beans.contains bean then beans else beans ++ [bean]) = beans ↔ bean ∈ beans
  split <;> simp_all

theorem mem_addList {other : BeanId} :
    other ∈ BeanCollection.add beans bean ↔ other ∈ beans ∨ other = bean := by
  show other ∈ (if beans.contains bean then beans else beans ++ [bean]) ↔ _
  split
  · next hmem =>
    rw [List.contains_iff_mem] at hmem
    exact ⟨.inl, fun h => h.elim id fun heq => heq ▸ hmem⟩
  · simp

end List

instance : KeepingCollection (List BeanId) where
  add_self _ _ := addList_eq_self.mpr (mem_addList.mpr (.inr rfl))
  add_held _ _ _ h := addList_eq_self.mpr (mem_addList.mpr (.inl (addList_eq_self.mp h)))

/-- An ordered set adds as the list of its members does. -/
theorem addOrderedSet_eq_addList (beans : OrderedSet) (bean : BeanId) :
    BeanCollection.add beans bean = OrderedSet.mk (BeanCollection.add beans.members bean) := by
  rw [addList_eq, ← addOrderedSet_eq]

instance : KeepingCollection OrderedSet where
  add_self beans bean := by
    simp only [addOrderedSet_eq_addList, KeepingCollection.add_self]
  add_held beans bean other h := by
    simp only [addOrderedSet_eq_addList] at h ⊢
    rw [KeepingCollection.add_held _ _ _ (congrArg OrderedSet.members h)]

namespace PlainSet

theorem insertSorted_self (bean : BeanId) (beans : List BeanId) :
    insertSorted bean (insertSorted bean beans) = insertSorted bean beans := by
  induction beans with
  | nil => simp [insertSorted]
  | cons first rest ih =>
    rcases Nat.lt_trichotomy bean first with hlt | rfl | hgt
    · simp [insertSorted, hlt]
    · simp [insertSorted]
    · simp [insertSorted, Nat.lt_asymm hgt, Nat.ne_of_gt hgt, ih]

/-- A bean is found again behind one that is inserted, also in a list that is not sorted. -/
theorem insertSorted_held {bean other : BeanId} {beans : List BeanId}
    (h : insertSorted bean beans = beans) :
    insertSorted bean (insertSorted other beans) = insertSorted other beans := by
  induction beans with
  | nil => simp [insertSorted] at h
  | cons first rest ih =>
    rcases Nat.lt_trichotomy bean first with hlt | rfl | hgt
    · -- the bean would be inserted before the first
      have hlength := congrArg List.length h
      simp [insertSorted, hlt] at hlength
    · -- the bean stands first
      rcases Nat.lt_trichotomy other bean with hlt | rfl | hgt
      · simp [insertSorted, hlt, Nat.lt_asymm hlt, Nat.ne_of_gt hlt]
      · simp [insertSorted]
      · simp [insertSorted, Nat.lt_asymm hgt, Nat.ne_of_gt hgt]
    · -- the bean stands further behind
      simp only [insertSorted, Nat.lt_asymm hgt, Nat.ne_of_gt hgt, if_false, List.cons.injEq,
        true_and] at h
      rcases Nat.lt_trichotomy other first with hlt | rfl | hlt
      · have hother := Nat.lt_trans hlt hgt
        simp [insertSorted, hlt, hgt, hother, Nat.lt_asymm, Nat.ne_of_gt, h]
      · simp [insertSorted, hgt, Nat.lt_asymm, Nat.ne_of_gt, h]
      · simp [insertSorted, hgt, hlt, Nat.lt_asymm, Nat.ne_of_gt, ih h]

end PlainSet

instance : KeepingCollection PlainSet where
  add_self beans bean := congrArg PlainSet.mk (PlainSet.insertSorted_self bean beans.members)
  add_held _ _ _ h :=
    congrArg PlainSet.mk (PlainSet.insertSorted_held (congrArg PlainSet.members h))

/-- An optional collection keeps beans from its first addition on. -/
instance [BeanCollection γ] [KeepingCollection γ] : KeepingCollection (Option γ) where
  add_self beans bean :=
    congrArg some (KeepingCollection.add_self (beans.getD BeanCollection.empty) bean)
  add_held beans bean other h := by
    obtain ⟨members, rfl, hheld⟩ : ∃ members, beans = some members ∧
        BeanCollection.add members bean = members := by
      cases beans with
      | none => exact nomatch h
      | some members => exact ⟨members, rfl, Option.some.inj h⟩
    exact congrArg some (KeepingCollection.add_held members bean other hheld)

/-! ## Fields -/

/-- A field of a content; one that holds a collection knows how a bean is added to it. -/
structure Field (α : Type) where
  Value : Type
  get : α → Value
  add : Value → BeanId → Value
  add_self : ∀ value bean, add (add value bean) bean = add value bean
  add_held : ∀ value bean other, add value bean = value →
    add (add value other) bean = add value other

namespace Field

/-- A field that is only written over. -/
def plain (get : α → γ) : Field α := ⟨γ, get, fun value _ => value, fun _ _ => rfl, fun _ _ _ => id⟩

/-- A field that holds a collection. -/
def collection [BeanCollection γ] [KeepingCollection γ] (get : α → γ) : Field α :=
  ⟨γ, get, BeanCollection.add, KeepingCollection.add_self, KeepingCollection.add_held⟩

/-- The edit leaves the field as it is, or writes it over whatever it was. -/
def Overwrites (f : Field α) (edit : α → α) : Prop :=
  (∀ a, f.get (edit a) = f.get a) ∨ ∃ value, ∀ a, f.get (edit a) = value

/-- All that the field sees of the edit is one value written, or beans added in order, if any. -/
inductive Sees (f : Field α) (edit : α → α) : Prop where
  | written (value : f.Value) (h : ∀ a, f.get (edit a) = value)
  | added (beans : List BeanId) (h : ∀ a, f.get (edit a) = beans.foldl f.add (f.get a))

variable {f : Field α} {edit edit' : α → α}

theorem Overwrites.sees (h : f.Overwrites edit) : f.Sees edit := by
  rcases h with hkept | ⟨value, hvalue⟩
  · exact .added [] hkept
  · exact .written value hvalue

/-- Edits that follow each other are seen as one: a value written covers what was there before. -/
theorem Sees.comp (h' : f.Sees edit') (h : f.Sees edit) : f.Sees (edit' ∘ edit) := by
  cases h' with
  | written value hvalue => exact .written value fun a => hvalue (edit a)
  | added beans' hadded' =>
    cases h with
    | written value hvalue =>
      refine .written (beans'.foldl f.add value) fun a => ?_
      rw [Function.comp_apply, hadded', hvalue]
    | added beans hadded =>
      refine .added (beans ++ beans') fun a => ?_
      rw [Function.comp_apply, hadded', hadded, List.foldl_append]

/-- A bean that is held stays so while others are added. -/
theorem add_foldl_of_held {value : f.Value} {bean : BeanId} (h : f.add value bean = value)
    (beans : List BeanId) :
    f.add (beans.foldl f.add value) bean = beans.foldl f.add value := by
  induction beans generalizing value with
  | nil => exact h
  | cons other rest ih => exact ih (f.add_held value bean other h)

/-- Beans that were added are held. -/
theorem add_foldl_of_mem {bean : BeanId} {beans : List BeanId} (h : bean ∈ beans)
    (value : f.Value) : f.add (beans.foldl f.add value) bean = beans.foldl f.add value := by
  induction beans generalizing value with
  | nil => simp at h
  | cons other rest ih =>
    rcases List.mem_cons.mp h with rfl | hrest
    · exact add_foldl_of_held (f.add_self value bean) rest
    · exact ih hrest (f.add value other)

theorem foldl_add_of_held {value : f.Value} {beans : List BeanId}
    (h : ∀ bean ∈ beans, f.add value bean = value) : beans.foldl f.add value = value := by
  induction beans with
  | nil => rfl
  | cons bean rest ih =>
    rw [List.foldl_cons, h bean List.mem_cons_self]
    exact ih fun other hother => h other (List.mem_cons_of_mem bean hother)

/-- An edit that is made twice is seen as if it was made once. -/
theorem Sees.twice (h : f.Sees edit) (a : α) : f.get (edit (edit a)) = f.get (edit a) := by
  cases h with
  | written value hvalue => rw [hvalue, hvalue]
  | added beans hadded =>
    rw [hadded (edit a), hadded a]
    exact foldl_add_of_held fun bean hbean => add_foldl_of_mem hbean (f.get a)

end Field

/-! ## Layouts -/

/-- The fields that a content consists of. -/
structure Layout (α : Type) where
  Name : Type
  field : Name → Field α
  ext : ∀ a b, (∀ n, (field n).get a = (field n).get b) → a = b

/-- Each field sees the edit as a value written or as beans added. -/
def Layout.Tame (l : Layout α) (edit : α → α) : Prop := ∀ n, (l.field n).Sees edit

namespace Layout

variable {l : Layout α} {edit edit' : α → α}

theorem tame_id : l.Tame id := fun _ => .added [] fun _ => rfl

theorem Tame.comp (h' : l.Tame edit') (h : l.Tame edit) : l.Tame (edit' ∘ edit) :=
  fun n => (h' n).comp (h n)

/-- Such edits change nothing when they are made once more. -/
theorem Tame.idempotent (h : l.Tame edit) (a : α) : edit (edit a) = edit a :=
  l.ext _ _ fun n => (h n).twice a

end Layout

/-! ## Edits of a heap -/

namespace Heap

/-- Each bean with its content edited, as its handle says. -/
def editEach (h : Heap α) (edits : BeanId → α → α) : Heap α :=
  ⟨h.beans.mapIdx fun bean b => { b with content := edits bean b.content }⟩

variable (h : Heap α) (edits edits' : BeanId → α → α)

@[simp] theorem size_editEach : (h.editEach edits).size = h.size := List.length_mapIdx

theorem ext_bean? {h h' : Heap α} (heq : ∀ bean, h.bean? bean = h'.bean? bean) : h = h' :=
  congrArg Heap.mk (List.ext_getElem? heq)

theorem bean?_editEach (bean : BeanId) :
    (h.editEach edits).bean? bean =
      (h.bean? bean).map fun b => { b with content := edits bean b.content } :=
  List.getElem?_mapIdx

theorem content?_of_lt {h : Heap α} {bean : BeanId} (hlt : bean < h.size) :
    h.content? bean = some h.beans[bean].content := by
  rw [content?, bean?, List.getElem?_eq_getElem hlt]
  rfl

theorem editEach_id : h.editEach (fun _ => id) = h := by
  refine ext_bean? fun bean => ?_
  rw [bean?_editEach]
  exact Option.map_id'

theorem editEach_editEach :
    (h.editEach edits).editEach edits' = h.editEach fun bean => edits' bean ∘ edits bean := by
  refine ext_bean? fun bean => ?_
  rw [bean?_editEach, bean?_editEach, bean?_editEach, Option.map_map]
  rfl

/-- To change the content of one bean is to edit that bean only. -/
theorem modify_eq_editEach (bean : BeanId) (f : α → α) :
    h.modify bean f = h.editEach (Function.update (fun _ => id) bean f) := by
  refine ext_bean? fun other => ?_
  rw [bean?_modify, bean?_editEach]
  by_cases heq : other = bean
  · rw [if_pos heq, heq, Function.update_self]
  · rw [if_neg heq, Function.update_of_ne heq]
    exact Option.map_id'.symm

/-- Beans that are not edited may be put behind the others before or after the edits. -/
theorem editEach_append {beans : List (Bean α)} (made : List (Bean α))
    (hid : ∀ bean, beans.length ≤ bean → edits bean = id) :
    (Heap.mk (beans ++ made)).editEach edits =
      ⟨((Heap.mk beans).editEach edits).beans ++ made⟩ := by
  unfold editEach
  rw [List.mapIdx_append]
  congr 2
  refine List.ext_getElem? fun i => ?_
  rw [List.getElem?_mapIdx, hid _ (Nat.le_add_left _ _)]
  exact Option.map_id'

end Heap

/-- Edits of the first beans only, as a layout allows them. -/
structure Layout.TameBelow (l : Layout α) (size : Nat) (edits : BeanId → α → α) : Prop where
  tame : ∀ bean, l.Tame (edits bean)
  eq_id : ∀ bean, size ≤ bean → edits bean = id

namespace Layout

variable {l : Layout α} {size size' : Nat} {edits edits' : BeanId → α → α}

theorem tameBelow_id (size : Nat) : l.TameBelow size fun _ => id :=
  ⟨fun _ => tame_id, fun _ _ => rfl⟩

theorem tameBelow_update {bean : BeanId} {edit : α → α} (hedit : l.Tame edit)
    (hbean : bean < size) : l.TameBelow size (Function.update (fun _ => id) bean edit) where
  tame other := by
    by_cases heq : other = bean
    · rw [heq, Function.update_self]
      exact hedit
    · rw [Function.update_of_ne heq]
      exact tame_id
  eq_id _ hother := Function.update_of_ne (Nat.ne_of_gt (Nat.lt_of_lt_of_le hbean hother)) _ _

namespace TameBelow

theorem comp (h' : l.TameBelow size' edits') (h : l.TameBelow size edits) (hle : size ≤ size') :
    l.TameBelow size' fun bean => edits' bean ∘ edits bean where
  tame bean := (h'.tame bean).comp (h.tame bean)
  eq_id bean hbean := by
    rw [h'.eq_id bean hbean, h.eq_id bean (Nat.le_trans hle hbean)]
    rfl

/-- Made a second time, the edits change nothing. -/
theorem idempotent (h : l.TameBelow size edits) (heap : Heap α) :
    (heap.editEach edits).editEach edits = heap.editEach edits := by
  rw [Heap.editEach_editEach]
  congr 1
  funext bean a
  exact (h.tame bean).idempotent a

end TameBelow
end Layout

/-! ## Columns and fixers on fields -/

/-- A value that the column reads overwrites fields; whether it can be read does not depend on the
content. -/
def ColumnReader.Overwriting (c : ColumnReader α) (l : Layout α) : Prop :=
  ∀ v, (∃ e, ∀ a, c.consume v a = .error e) ∨
    ∃ edit : α → α, (∀ a, c.consume v a = .ok (edit a)) ∧ ∀ n, (l.field n).Overwrites edit

theorem ColumnReader.overwriting_raw {l : Layout α} {fill : Json → α → α}
    (h : ∀ v n, (l.field n).Overwrites (fill v)) (label : String) :
    (ColumnReader.raw label fill).Overwriting l :=
  fun v => .inr ⟨fill v, fun _ => rfl, h v⟩

theorem ColumnReader.overwriting_typed {l : Layout α} {fill : Json → α → α}
    (h : ∀ v n, (l.field n).Overwrites (fill v)) (label : String) (type : ColumnType) :
    (ColumnReader.typed label type fill).Overwriting l := by
  intro v
  unfold typed
  cases hnull : v.isNull with
  | true => exact .inr ⟨fill .null, fun a => by simp only [hnull, if_true], h .null⟩
  | false =>
    cases hread : type.read? v with
    | none =>
      exact .inl ⟨_, fun a => by simp only [hnull, hread, Bool.false_eq_true, if_false]; rfl⟩
    | some w =>
      exact .inr ⟨fill w, fun a => by simp only [hnull, hread, Bool.false_eq_true, if_false], h w⟩

/-- What is set in the slot is read from it, and of the fields only the named one sees it. -/
structure Slot.IsField (slot : Slot α γ) (l : Layout α) (n : l.Name) : Prop where
  get_set : ∀ v a, slot.get (slot.set v a) = v
  get_other : ∀ m, m ≠ n → ∀ v a, (l.field m).get (slot.set v a) = (l.field m).get a

/-- The usual fixers over slots that are fields. -/
inductive Fixer.OnFields (l : Layout α) : Fixer α → Prop where
  | one {slot : Slot α (Option BeanId)} {n : l.Name} (hfield : l.field n = .plain slot.get)
    (hslot : slot.IsField l n) : OnFields l (.one slot)
  | many {γ : Type} [BeanCollection γ] [KeepingCollection γ] {slot : Slot α γ} {n : l.Name}
    (hfield : l.field n = .collection slot.get) (hslot : slot.IsField l n) :
    OnFields l (.many slot)
  | weak {slot : Slot α WeakLink} {n : l.Name} (hfield : l.field n = .plain slot.get)
    (hslot : slot.IsField l n) : OnFields l (.weak slot)
  | withReverse {forward reverse : Fixer α} (hforward : OnFields l forward)
    (hreverse : OnFields l reverse) : OnFields l (.withReverse forward reverse)

namespace Slot.IsField

variable {slot : Slot α γ} {l : Layout α} {n : l.Name} (h : slot.IsField l n)
include h

/-- To set a slot is to write its field. -/
theorem tame_set (hfield : l.field n = .plain slot.get) (v : γ) : l.Tame (slot.set v) := by
  intro m
  by_cases hm : m = n
  · rw [hm, hfield]
    exact .written v (h.get_set v)
  · exact .added [] fun a => h.get_other m hm v a

/-- To add a bean to the collection of a slot is to add it to its field. -/
theorem tame_add [BeanCollection γ] [KeepingCollection γ]
    (hfield : l.field n = .collection slot.get) (bean : BeanId) :
    l.Tame (slot.modify fun beans => BeanCollection.add beans bean) := by
  intro m
  by_cases hm : m = n
  · rw [hm, hfield]
    exact .added [bean] fun a => h.get_set _ a
  · exact .added [] fun a => h.get_other m hm _ a

end Slot.IsField

end SqlGraph.Graph
