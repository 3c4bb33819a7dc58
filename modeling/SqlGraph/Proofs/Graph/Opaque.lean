import Mathlib.Algebra.Group.Action.End
import Mathlib.Algebra.Group.Action.Option
import Mathlib.Data.Finset.Sort
import SqlGraph.Graph.Transformer

/-!
# Handles are opaque

A handle is good for telling a bean from others and for finding it, and its number means nothing.
So what is done with handles commutes with renaming them: a permutation `π` of handles acts on
handles, on links and collections of them, and on contents that hold them (`π • a`).

* `OpaqueCollection`: all collections of beans, the plain set included, whose order is by handle;
* `Slot.Opaque`, `Factory.Opaque`, `ColumnReader.Opaque`: the parts that a transformer is given;
* `Fixer.BuiltIn`: the usual fixers over such slots, opaque as well (`Fixer.BuiltIn.isOpaque`).

A content made by a factory or a column may mention beans that were there before the traversal, by
a fixed handle: only renamings that leave those as they are need to commute (`FixesBelow`).
-/

namespace SqlGraph.Graph

variable {α γ : Type}

/-- A renaming of handles. -/
abbrev HandleMap := Equiv.Perm BeanId

/-- The renaming leaves the handles of the first beans as they are. -/
def FixesBelow (old : Nat) (π : HandleMap) : Prop := ∀ bean < old, π bean = bean

/-! ## Collections -/

instance : SMul HandleMap (List BeanId) := ⟨fun π beans => beans.map π⟩

instance : SMul HandleMap OrderedSet := ⟨fun π s => ⟨s.members.map π⟩⟩

/-- The members of a plain set are listed by their new handles. -/
instance : SMul HandleMap PlainSet := ⟨fun π s => ⟨(s.members.map π).toFinset.sort⟩⟩

instance : SMul HandleMap WeakLink := ⟨fun π link => ⟨link.target.map π⟩⟩

/-- A collection that adds a renamed bean as it adds the bean. -/
class OpaqueCollection (γ : Type) [BeanCollection γ] [SMul HandleMap γ] : Prop where
  smul_empty : ∀ π : HandleMap, π • (BeanCollection.empty : γ) = BeanCollection.empty
  smul_add : ∀ (π : HandleMap) (beans : γ) (bean : BeanId),
    π • BeanCollection.add beans bean = BeanCollection.add (π • beans) (π bean)

instance : OpaqueCollection (List BeanId) where
  smul_empty _ := rfl
  smul_add π beans bean := by
    have hmem : (beans.map π).contains (π bean) = beans.contains bean := by simp
    show (if beans.contains bean then beans else beans ++ [bean]).map π =
      if (beans.map π).contains (π bean) then beans.map π else beans.map π ++ [π bean]
    rw [hmem]
    cases beans.contains bean <;> simp

instance : OpaqueCollection OrderedSet where
  smul_empty _ := rfl
  smul_add π beans bean := by
    have hposition : OrderedSet.position? (π • beans) (π bean) = beans.position? bean := by
      have hsame : ((fun other => other == π bean) ∘ π) = fun other => other == bean := by
        funext other
        rw [Function.comp_apply, Bool.eq_iff_iff, beq_iff_eq, beq_iff_eq, π.apply_eq_iff_eq]
      show (beans.members.map π).findIdx? _ = beans.members.findIdx? _
      rw [List.findIdx?_map, hsame]
    show π • beans.insert bean = OrderedSet.insert (π • beans) (π bean)
    unfold OrderedSet.insert
    rw [hposition]
    cases beans.position? bean with
    | some i => rfl
    | none => exact congrArg OrderedSet.mk List.map_append

namespace PlainSet

theorem mem_insertSorted {bean other : BeanId} {beans : List BeanId} :
    other ∈ insertSorted bean beans ↔ other = bean ∨ other ∈ beans := by
  induction beans with
  | nil => simp [insertSorted]
  | cons first rest ih =>
    unfold insertSorted
    split
    · simp
    · split
      · next heq => simp [heq]
      · simp only [List.mem_cons, ih]
        tauto

theorem pairwise_insertSorted {bean : BeanId} {beans : List BeanId}
    (h : beans.Pairwise (· < ·)) : (insertSorted bean beans).Pairwise (· < ·) := by
  induction beans with
  | nil => exact List.pairwise_singleton _ _
  | cons first rest ih =>
    obtain ⟨hfirst, hrest⟩ := List.pairwise_cons.mp h
    unfold insertSorted
    split
    · next hlt =>
      refine List.pairwise_cons.mpr ⟨fun other hother => ?_, h⟩
      rcases List.mem_cons.mp hother with rfl | hmem
      · exact hlt
      · exact Nat.lt_trans hlt (hfirst other hmem)
    · split
      · exact h
      · next hnot hne =>
        refine List.pairwise_cons.mpr ⟨fun other hother => ?_, ih hrest⟩
        rcases mem_insertSorted.mp hother with rfl | hmem
        · exact Nat.lt_of_le_of_ne (Nat.le_of_not_lt hnot) (Ne.symm hne)
        · exact hfirst other hmem

end PlainSet

instance : OpaqueCollection PlainSet where
  smul_empty _ := congrArg PlainSet.mk (Finset.sort_empty _)
  smul_add π beans bean := by
    -- both sides list the same members by ascending handle
    have hsorted (s : PlainSet) : (π • s).members.Pairwise (· < ·) :=
      (Finset.sortedLT_sort (s.members.map π).toFinset).pairwise
    have hmem (s : PlainSet) (other : BeanId) :
        other ∈ (π • s).members ↔ ∃ b ∈ s.members, π b = other := by
      show other ∈ (s.members.map π).toFinset.sort ↔ _
      rw [Finset.mem_sort, List.mem_toFinset, List.mem_map]
    refine congrArg PlainSet.mk (List.Pairwise.eq_of_mem_iff (hsorted (beans.insert bean))
      (PlainSet.pairwise_insertSorted (hsorted beans)) fun other => ?_)
    have hinserted := hmem (beans.insert bean) other
    simp only [PlainSet.insert, PlainSet.mem_insertSorted] at hinserted
    refine hinserted.trans ?_
    rw [PlainSet.mem_insertSorted, hmem]
    constructor
    · rintro ⟨b, rfl | hb, rfl⟩
      · exact .inl rfl
      · exact .inr ⟨b, hb, rfl⟩
    · rintro (rfl | ⟨b, hb, rfl⟩)
      · exact ⟨bean, .inl rfl, rfl⟩
      · exact ⟨b, .inr hb, rfl⟩

instance [BeanCollection γ] [SMul HandleMap γ] [OpaqueCollection γ] :
    OpaqueCollection (Option γ) where
  smul_empty _ := rfl
  smul_add π beans bean := by
    have hstart : (π • beans).getD BeanCollection.empty = π • beans.getD BeanCollection.empty := by
      cases beans with
      | none => exact (OpaqueCollection.smul_empty π).symm
      | some beans => rfl
    show some (π • BeanCollection.add (beans.getD BeanCollection.empty) bean) =
      some (BeanCollection.add ((π • beans).getD BeanCollection.empty) (π bean))
    rw [hstart, OpaqueCollection.smul_add]

/-! ## Fixers -/

variable [SMul HandleMap α] [SMul HandleMap γ]

/-- A slot is read and replaced alike whatever the handles. -/
structure Slot.Opaque (slot : Slot α γ) : Prop where
  get_smul : ∀ (π : HandleMap) (a : α), slot.get (π • a) = π • slot.get a
  set_smul : ∀ (π : HandleMap) (c : γ) (a : α), slot.set (π • c) (π • a) = π • slot.set c a

/-- A fixer whose wires link renamed beans as they link the beans. -/
def Fixer.Opaque : Fixer α → Prop
  | .wire link => ∀ (π : HandleMap) (related : BeanId) (a : α),
      link (π related) (π • a) = π • link related a
  | .withReverse forward reverse => forward.Opaque ∧ reverse.Opaque

/-- The usual fixers, over slots that do not look at handles. -/
inductive Fixer.BuiltIn : Fixer α → Prop
  | one {slot : Slot α (Option BeanId)} (hslot : slot.Opaque) : BuiltIn (.one slot)
  | many {γ : Type} [BeanCollection γ] [SMul HandleMap γ] [OpaqueCollection γ] {slot : Slot α γ}
      (hslot : slot.Opaque) : BuiltIn (.many slot)
  | weak {slot : Slot α WeakLink} (hslot : slot.Opaque) : BuiltIn (.weak slot)
  | withReverse {forward reverse : Fixer α} (hforward : BuiltIn forward)
      (hreverse : BuiltIn reverse) : BuiltIn (.withReverse forward reverse)

/-- The usual fixers do not look at handles either. -/
theorem Fixer.BuiltIn.isOpaque {fixer : Fixer α} (h : fixer.BuiltIn) : fixer.Opaque := by
  induction h with
  | one hslot => exact fun π related a => hslot.set_smul π (some related) a
  | many hslot =>
    intro π related a
    simp only [Slot.modify]
    rw [hslot.get_smul, ← OpaqueCollection.smul_add, hslot.set_smul]
  | weak hslot => exact fun π related a => hslot.set_smul π ⟨some related⟩ a
  | withReverse _ _ hforward hreverse => exact ⟨hforward, hreverse⟩

/-! ## Transformers -/

/-- New contents hold no handles but those of beans that were there before. -/
def Factory.Opaque (old : Nat) (f : Factory α) : Prop :=
  ∀ π : HandleMap, FixesBelow old π → ∀ key, π • f.construct key = f.construct key

/-- A column fills its own bean, or fails, alike whatever the handles in it; the value that is
filled in holds no handles but those of beans that were there before. -/
def ColumnReader.Opaque (old : Nat) (c : ColumnReader α) : Prop :=
  ∀ π : HandleMap, FixesBelow old π → ∀ v a, c.consume v (π • a) = (c.consume v a).map (π • ·)

mutual

/-- All parts of the transformer are opaque, and its fixers are the usual ones. -/
def Transformer.Opaque (old : Nat) : Transformer α → Prop
  | .mk factory columns relations =>
    factory.Opaque old ∧ (∀ c ∈ columns, c.Opaque old) ∧ Relation.AllOpaque old relations

/-- The fixer is a usual one, and the target is opaque. -/
def Relation.Opaque (old : Nat) : Relation α → Prop
  | .mk _ target fixer _ => target.Opaque old ∧ fixer.BuiltIn

/-- All relations are opaque. -/
def Relation.AllOpaque (old : Nat) : List (Relation α) → Prop
  | [] => True
  | r :: rest => r.Opaque old ∧ Relation.AllOpaque old rest

end

end SqlGraph.Graph
