import SqlGraph.Graph.Liveness
import SqlGraph.Proofs.Graph.Footprint
import SqlGraph.Proofs.Graph.Layout
import SqlGraph.Proofs.Graph.Opaque
import SqlGraph.Proofs.Graph.Simulation

/-!
# Relations wired at both ends

A relation that is wired on each row and at both ends adds the related bean to a collection of its
owner, and writes the owner into the related bean. So the collection has all that was ever added,
while the link back leads to the last owner only, and both are told by the rows: by the keys that
the root and the related bean have in each of them (`rootKeysOf`).

A state is `Linked` to such a history when the ends of all beans agree with it. Steps of other parts
leave that as it is, and one row makes the history longer by itself. The main statement is
`WiredRoot.list_wired`.
-/

namespace SqlGraph.Graph

variable {α γ : Type}

/-! ## Collections by their members -/

/-- A collection has the beans that were added to it. -/
class ListedCollection (γ : Type) [BeanCollection γ] where
  members : γ → List BeanId
  members_empty : members BeanCollection.empty = []
  mem_add : ∀ (beans : γ) (bean other : BeanId),
    other ∈ members (BeanCollection.add beans bean) ↔ other ∈ members beans ∨ other = bean

instance : ListedCollection (List BeanId) where
  members := id
  members_empty := rfl
  mem_add _ _ _ := mem_addList

instance : ListedCollection OrderedSet where
  members := OrderedSet.members
  members_empty := rfl
  mem_add beans bean other := by
    rw [addOrderedSet_eq_addList]
    exact mem_addList

instance : ListedCollection PlainSet where
  members := PlainSet.members
  members_empty := rfl
  mem_add _ _ _ := PlainSet.mem_insertSorted.trans or_comm

instance [BeanCollection γ] [ListedCollection γ] : ListedCollection (Option γ) where
  members beans := (beans.map ListedCollection.members).getD []
  members_empty := rfl
  mem_add beans bean other := by
    show other ∈ ListedCollection.members
      (BeanCollection.add (beans.getD BeanCollection.empty) bean) ↔ _
    rw [ListedCollection.mem_add]
    cases beans with
    | none => rw [Option.getD_none, ListedCollection.members_empty]; rfl
    | some beans => rfl

/-! ## Links back -/

/-- The link of a related bean back to its owner. -/
inductive BackLink (α : Type) where
  /-- keeps the owner alive -/
  | strong (slot : Slot α (Option BeanId))
  /-- leads to the owner as long as it lives -/
  | weak (slot : Slot α WeakLink)

namespace BackLink

/-- Writes the owner. -/
def write : BackLink α → BeanId → α → α
  | .strong slot, owner => slot.set (some owner)
  | .weak slot, owner => slot.set ⟨some owner⟩

/-- The owner that was written. -/
def target : BackLink α → α → Option BeanId
  | .strong slot, a => slot.get a
  | .weak slot, a => (slot.get a).target

/-- The owner that is found while some beans live. -/
def read (living : List BeanId) : BackLink α → α → Option BeanId
  | .strong slot, a => slot.get a
  | .weak slot, a => (slot.get a).target.filter living.contains

/-- What is written is read. -/
def Lawful : BackLink α → Prop
  | .strong slot => ∀ v a, slot.get (slot.set v a) = v
  | .weak slot => ∀ v a, slot.get (slot.set v a) = v

/-- The fixer of the link. -/
def fixer : BackLink α → Fixer α
  | .strong slot => .one slot
  | .weak slot => .weak slot

variable {back : BackLink α}

theorem fixer_eq : back.fixer = .wire back.write := by cases back <;> rfl

theorem target_write (h : back.Lawful) (owner : BeanId) (a : α) :
    back.target (back.write owner a) = some owner := by
  cases back with
  | strong slot => exact h (some owner) a
  | weak slot => exact congrArg WeakLink.target (h ⟨some owner⟩ a)

/-- A living owner is found when it was written. -/
theorem read_eq_some {living : List BeanId} {owner : BeanId}
    (hlives : owner ∈ living) {a : α} :
    back.read living a = some owner ↔ back.target a = some owner := by
  cases back with
  | strong slot => exact Iff.rfl
  | weak slot => simp [read, target, Option.filter_eq_some_iff, hlives]

/-- What is found was written. -/
theorem target_of_read {living : List BeanId} {owner : BeanId} {a : α}
    (h : back.read living a = some owner) : back.target a = some owner := by
  cases back with
  | strong slot => exact h
  | weak slot => exact (Option.filter_eq_some_iff.mp h).1

end BackLink

/-! ## Who is alive -/

/-- A bean with a handle outside stays. -/
theorem mem_dropUnheld {held : α → List BeanId} {heap : Heap α} {outside : List BeanId}
    {bean : BeanId} (houtside : bean ∈ outside) (fuel : Nat) {living : List BeanId}
    (hliving : bean ∈ living) : bean ∈ dropUnheld held heap outside fuel living := by
  induction fuel generalizing living with
  | zero => exact hliving
  | succ fuel ih =>
    unfold dropUnheld
    dsimp only
    split
    · exact hliving
    · refine ih (List.mem_filter.mpr ⟨hliving, ?_⟩)
      rw [List.contains_iff_mem]
      exact List.mem_append_left _ houtside

theorem mem_alive {held : α → List BeanId} {heap : Heap α} {outside : List BeanId}
    {bean : BeanId} (houtside : bean ∈ outside) (hlt : bean < heap.size) :
    bean ∈ alive held heap outside :=
  mem_dropUnheld houtside heap.size (List.mem_range.mpr hlt)

/-! ## The two ends -/

/-- The ends of a relation: a collection of the owner, and the link back from what is in it. -/
structure Wiring (α γ : Type) where
  slot : Slot α γ
  back : BackLink α

namespace Wiring

variable [BeanCollection γ] [ListedCollection γ]

section Ends

variable (w : Wiring α γ)

/-- The fixer of both ends. -/
def fixer : Fixer α := .withReverse (.many w.slot) w.back.fixer

/-- What is written at an end is there. -/
structure Lawful : Prop where
  slot : ∀ v a, w.slot.get (w.slot.set v a) = v
  back : w.back.Lawful

/-- The beans in the collection of a content. -/
def beansOf (a : α) : List BeanId := ListedCollection.members (w.slot.get a)

/-- The beans in the collection of a bean. -/
def beans (heap : Heap α) (owner : BeanId) : List BeanId :=
  ((heap.content? owner).map w.beansOf).getD []

/-- The owner written into a bean. -/
def target? (heap : Heap α) (bean : BeanId) : Option BeanId :=
  (heap.content? bean).bind w.back.target

/-- The owner that a bean leads to while some beans live. -/
def owner? (living : List BeanId) (heap : Heap α) (bean : BeanId) : Option BeanId :=
  (heap.content? bean).bind (w.back.read living)

/-- The contents have the same at both ends. -/
def SameEnds (a a' : α) : Prop :=
  w.beansOf a' = w.beansOf a ∧ w.back.target a' = w.back.target a

/-- The factory constructs beans that lead to beans of before only. -/
def Starts (old : Nat) (f : Factory α) : Prop :=
  ∀ key, (∀ bean ∈ w.beansOf (f.construct key), bean < old) ∧
    ∀ owner, w.back.target (f.construct key) = some owner → owner < old

/-- The column leaves both ends alone. -/
def SparesColumn (c : ColumnReader α) : Prop :=
  ∀ v a a', c.consume v a = .ok a' → w.SameEnds a a'

/-- The fixer leaves both ends alone. -/
def SparesFixer : Fixer α → Prop
  | .wire link => ∀ related a, w.SameEnds a (link related a)
  | .withReverse forward reverse => SparesFixer forward ∧ SparesFixer reverse

/-- All beans have the same at both ends. -/
def Keeps (heap heap' : Heap α) : Prop :=
  ∀ bean < heap.size, w.beans heap' bean = w.beans heap bean ∧
    w.target? heap' bean = w.target? heap bean

end Ends

variable {w : Wiring α γ} {heap : Heap α} {owner related bean : BeanId}

theorem beans_of_bean? {kind : BeanKind} {a : α} (h : heap.bean? bean = some ⟨kind, a⟩) :
    w.beans heap bean = w.beansOf a := by
  simp [beans, Heap.content?, h]

omit [BeanCollection γ] [ListedCollection γ] in
theorem target?_of_bean? {kind : BeanKind} {a : α} (h : heap.bean? bean = some ⟨kind, a⟩) :
    w.target? heap bean = w.back.target a := by
  simp [target?, Heap.content?, h]

section Modify

variable {f : α → α}

theorem beans_modify_of_ne (h : bean ≠ owner) :
    w.beans (heap.modify owner f) bean = w.beans heap bean := by
  rw [beans, Heap.content?, Heap.bean?_modify, if_neg h]
  rfl

omit [BeanCollection γ] [ListedCollection γ] in
theorem target?_modify_of_ne (h : bean ≠ owner) :
    w.target? (heap.modify owner f) bean = w.target? heap bean := by
  rw [target?, Heap.content?, Heap.bean?_modify, if_neg h]
  rfl

/-- A change that leaves the ends of a content alone leaves those of all beans. -/
theorem keeps_modify (hf : ∀ a, heap.content? owner = some a → w.SameEnds a (f a)) :
    w.Keeps heap (heap.modify owner f) := by
  intro bean _
  by_cases heq : bean = owner
  · subst heq
    unfold beans target?
    rw [Heap.content?, Heap.bean?_modify, if_pos rfl]
    unfold Heap.content? at hf ⊢
    cases hbean : heap.bean? bean with
    | none => exact ⟨rfl, rfl⟩
    | some b => exact hf b.content (by rw [hbean]; rfl)
  · exact ⟨beans_modify_of_ne heq, target?_modify_of_ne heq⟩

end Modify

theorem Keeps.refl (heap : Heap α) : w.Keeps heap heap := fun _ _ => ⟨rfl, rfl⟩

/-- A bean that is constructed changes no others. -/
theorem keeps_construct (kind : BeanKind) (a : α) :
    w.Keeps heap (heap.construct kind a).2 := by
  intro bean hlt
  have hsame : (heap.construct kind a).2.bean? bean = heap.bean? bean := by
    rw [Heap.bean?_construct, if_neg hlt.ne]
  unfold beans target? Heap.content?
  rw [hsame]
  exact ⟨rfl, rfl⟩

/-- A fixer that leaves both ends alone. -/
theorem keeps_fix {fixer : Fixer α} (h : w.SparesFixer fixer) :
    w.Keeps heap (fixer.fix owner related heap) := by
  induction fixer generalizing owner related heap with
  | wire link => exact keeps_modify fun a _ => h related a
  | withReverse forward reverse ihf ihr =>
    intro bean hlt
    have hforward : w.Keeps heap (forward.fix owner related heap) := ihf h.1
    have hreverse : w.Keeps (forward.fix owner related heap)
        (reverse.fix related owner (forward.fix owner related heap)) := ihr h.2
    obtain ⟨hbeans, htarget⟩ :=
      hreverse bean (hlt.trans_eq (forward.size_fix owner related heap).symm)
    exact ⟨hbeans.trans (hforward bean hlt).1, htarget.trans (hforward bean hlt).2⟩

/-! ## What the fixer of both ends does -/

omit [ListedCollection γ] in
theorem fix_eq : w.fixer.fix owner related heap =
    (heap.modify owner (w.slot.modify fun beans => BeanCollection.add beans related)).modify
      related (w.back.write owner) := by
  unfold fixer
  rw [BackLink.fixer_eq]
  rfl

section Fix

variable (hw : w.Lawful) (hne : owner ≠ related)

include hw hne in
/-- The related bean is in the collection of its owner. -/
theorem mem_beans_fix (hlt : owner < heap.size) :
    bean ∈ w.beans (w.fixer.fix owner related heap) owner ↔
      bean ∈ w.beans heap owner ∨ bean = related := by
  obtain ⟨b, hb⟩ : ∃ b, heap.bean? owner = some b := ⟨_, List.getElem?_eq_getElem hlt⟩
  have hmodified : (heap.modify owner
      (w.slot.modify fun beans => BeanCollection.add beans related)).bean? owner =
      some ⟨b.kind, w.slot.modify (fun beans => BeanCollection.add beans related) b.content⟩ := by
    rw [Heap.bean?_modify, if_pos rfl, hb]
    rfl
  rw [fix_eq, beans_modify_of_ne hne, beans_of_bean? hmodified, beans_of_bean? hb, beansOf,
    Slot.modify, hw.slot, ListedCollection.mem_add]
  rfl

omit [ListedCollection γ] in
include hw hne in
/-- The owner is written into the related bean. -/
theorem target?_fix (hlt : related < heap.size) :
    w.target? (w.fixer.fix owner related heap) related = some owner := by
  obtain ⟨b, hb⟩ : ∃ b, heap.bean? related = some b := ⟨_, List.getElem?_eq_getElem hlt⟩
  have hmodified : (w.fixer.fix owner related heap).bean? related =
      some ⟨b.kind, w.back.write owner b.content⟩ := by
    rw [fix_eq, Heap.bean?_modify, if_pos rfl, Heap.bean?_modify, if_neg hne.symm, hb]
    rfl
  rw [target?_of_bean? hmodified, BackLink.target_write hw.back]

omit hw hne in
/-- Other beans have the same at both ends. -/
theorem ends_fix_of_ne (howner : bean ≠ owner) (hrelated : bean ≠ related) :
    w.beans (w.fixer.fix owner related heap) bean = w.beans heap bean ∧
      w.target? (w.fixer.fix owner related heap) bean = w.target? heap bean := by
  rw [fix_eq, beans_modify_of_ne hrelated, beans_modify_of_ne howner,
    target?_modify_of_ne hrelated, target?_modify_of_ne howner]
  exact ⟨rfl, rfl⟩

end Fix

/-! ## The invariant -/

/-- The history after one more link. -/
def record (history : Key → List Key) (rootKey relatedKey key : Key) : List Key :=
  if key = relatedKey then history key ++ [rootKey] else history key

omit [BeanCollection γ] [ListedCollection γ] in
theorem mem_record {history : Key → List Key} {rootKey relatedKey key other : Key} :
    other ∈ record history rootKey relatedKey key ↔
      other ∈ history key ∨ key = relatedKey ∧ other = rootKey := by
  unfold record
  split
  · next heq => simp [heq]
  · next hne => simp [hne]

/-- The ends of all beans agree with a history, which has for each related key the root keys it was
linked with, in order: an owner has all that was linked with it, a related bean leads to the owner
that it was linked with last, and nothing else of what was constructed from `old` on. -/
structure Linked (w : Wiring α γ) (old : Nat) (root related : BeanKind) (history : Key → List Key)
    (s : State α) : Prop where
  sound : s.Sound
  old_le_size : old ≤ s.heap.size
  old_le : ∀ {id bean}, s.handle? id = some bean → old ≤ bean
  known : ∀ {rootKey relatedKey}, rootKey ∈ history relatedKey →
    (∃ owner, s.handle? (root, rootKey) = some owner) ∧
    ∃ bean, s.handle? (related, relatedKey) = some bean
  forward : ∀ {rootKey owner}, s.handle? (root, rootKey) = some owner → ∀ bean, old ≤ bean →
    (bean ∈ w.beans s.heap owner ↔
      ∃ relatedKey, s.handle? (related, relatedKey) = some bean ∧ rootKey ∈ history relatedKey)
  backward : ∀ {relatedKey bean}, s.handle? (related, relatedKey) = some bean →
    ∀ owner, old ≤ owner → (w.target? s.heap bean = some owner ↔
      ∃ rootKey, (history relatedKey).getLast? = some rootKey ∧
        s.handle? (root, rootKey) = some owner)

namespace Linked

variable {old : Nat} {O R : BeanKind} {history : Key → List Key} {s s' : State α}

/-- A traversal starts without links. -/
theorem start (heap : Heap α) :
    w.Linked heap.size O R (fun _ => []) ({ heap := heap } : State α) where
  sound := State.sound_of_empty heap
  old_le_size := Nat.le_refl _
  old_le h := by simp [State.handle?, Context.cached?] at h
  known h := by cases h
  forward h := by simp [State.handle?, Context.cached?] at h
  backward h := by simp [State.handle?, Context.cached?] at h

section Preserved

variable (h : w.Linked old O R history s)
include h

theorem lt_size {id : BeanKind × Key} (hbean : s.handle? id = some bean) : bean < s.heap.size := by
  obtain ⟨a, ha⟩ := h.sound.bean?_of_cached hbean
  exact (List.getElem?_eq_some_iff.mp ha).1

/-- Steps that leave the cache and the ends of all beans alone. -/
theorem of_keeps (hcache : s'.context.cache = s.context.cache)
    (hkinds : s.heap.KeepsKinds s'.heap) (hsize : s.heap.size ≤ s'.heap.size)
    (hkeeps : w.Keeps s.heap s'.heap) : w.Linked old O R history s' := by
  have hhandle : s'.handle? = s.handle? := by
    funext id
    rw [State.handle?, State.handle?, Context.cached?, Context.cached?, hcache]
  constructor
  · exact h.sound.of_cache_eq hcache hkinds
  · exact h.old_le_size.trans hsize
  · rw [hhandle]
    exact h.old_le
  · rw [hhandle]
    exact h.known
  · intro rootKey owner howner bean hnew
    rw [hhandle] at howner ⊢
    rw [(hkeeps owner (h.lt_size howner)).1]
    exact h.forward howner bean hnew
  · intro relatedKey bean hbean owner hnew
    rw [hhandle] at hbean ⊢
    rw [(hkeeps bean (h.lt_size hbean)).2]
    exact h.backward hbean owner hnew

end Preserved

omit [BeanCollection γ] [ListedCollection γ] in
/-- Beans keep their handles when another one is constructed. -/
theorem handle?_of_known {f : Factory α} {key : Key}
    (hnone : s.context.cached? f.kind key = none)
    (hs' : s' = ⟨(s.heap.construct f.kind (f.construct key)).2,
      s.context.remember f.kind key s.heap.size⟩)
    {id : BeanKind × Key} (hknown : ∃ bean, s.handle? id = some bean) :
    s'.handle? id = s.handle? id := by
  obtain ⟨bean, hid⟩ := hknown
  rw [hs', State.handle?, Context.cached?_remember, if_neg]
  · rfl
  · rintro ⟨hkind, hkey⟩
    rw [State.handle?, hkind, hkey, hnone] at hid
    cases hid

section Remember

variable (h : w.Linked old O R history s) {f : Factory α} (hf : w.Starts old f) {key : Key}
  (hnone : s.context.cached? f.kind key = none)
  (hs' : s' = ⟨(s.heap.construct f.kind (f.construct key)).2,
    s.context.remember f.kind key s.heap.size⟩)
include h hnone hs'

/-- A bean with a handle is the new one, which has no history, or was there before. -/
theorem handle?_remember {id : BeanKind × Key} (hid : s'.handle? id = some bean) :
    (bean = s.heap.size ∧ s'.heap.bean? bean = some ⟨f.kind, f.construct key⟩ ∧
      s.handle? id = none) ∨
    (s.handle? id = some bean ∧ w.beans s'.heap bean = w.beans s.heap bean ∧
      w.target? s'.heap bean = w.target? s.heap bean) := by
  rw [hs', State.handle?, Context.cached?_remember] at hid
  split at hid
  · next hsame =>
    obtain rfl : s.heap.size = bean := Option.some.inj hid
    refine .inl ⟨rfl, ?_, ?_⟩
    · rw [hs', Heap.bean?_construct, if_pos rfl]
    · rw [State.handle?, hsame.1, hsame.2, hnone]
  · rw [hs']
    exact .inr ⟨hid, keeps_construct f.kind (f.construct key) bean (h.lt_size hid)⟩

include hf

/-- The collections agree with the history. -/
theorem forward_remember {rootKey : Key} (howner : s'.handle? (O, rootKey) = some owner)
    (hnew : old ≤ bean) :
    bean ∈ w.beans s'.heap owner ↔
      ∃ relatedKey, s'.handle? (R, relatedKey) = some bean ∧ rootKey ∈ history relatedKey := by
  have hhistory : (∃ relatedKey, s'.handle? (R, relatedKey) = some bean ∧
      rootKey ∈ history relatedKey) ↔
      ∃ relatedKey, s.handle? (R, relatedKey) = some bean ∧ rootKey ∈ history relatedKey :=
    exists_congr fun relatedKey => and_congr_left fun hmem => by
      rw [handle?_of_known hnone hs' (h.known hmem).2]
  rw [hhistory]
  rcases h.handle?_remember hnone hs' howner with ⟨-, hbean, hunknown⟩ | ⟨howner, hbeans, -⟩
  -- the history has nothing of an owner that was not known before
  · rw [beans_of_bean? hbean]
    refine ⟨fun hmem => absurd ((hf key).1 bean hmem) (Nat.not_lt.mpr hnew), ?_⟩
    rintro ⟨relatedKey, -, hmem⟩
    obtain ⟨⟨other, hother⟩, -⟩ := h.known hmem
    cases hunknown.symm.trans hother
  · rw [hbeans]
    exact h.forward howner bean hnew

/-- The links back agree with the history. -/
theorem backward_remember {relatedKey : Key} (hrelated : s'.handle? (R, relatedKey) = some bean)
    (hnew : old ≤ owner) :
    w.target? s'.heap bean = some owner ↔
      ∃ rootKey, (history relatedKey).getLast? = some rootKey ∧
        s'.handle? (O, rootKey) = some owner := by
  have hhistory : (∃ rootKey, (history relatedKey).getLast? = some rootKey ∧
      s'.handle? (O, rootKey) = some owner) ↔
      ∃ rootKey, (history relatedKey).getLast? = some rootKey ∧
        s.handle? (O, rootKey) = some owner :=
    exists_congr fun rootKey => and_congr_right fun hlast => by
      rw [handle?_of_known hnone hs' (h.known (List.mem_of_getLast? hlast)).1]
  rw [hhistory]
  rcases h.handle?_remember hnone hs' hrelated with ⟨-, hbean, hunknown⟩ | ⟨hrelated, -, htarget⟩
  · rw [target?_of_bean? hbean]
    refine ⟨fun hmem => absurd ((hf key).2 owner hmem) (Nat.not_lt.mpr hnew), ?_⟩
    rintro ⟨rootKey, hlast, -⟩
    obtain ⟨-, other, hother⟩ := h.known (List.mem_of_getLast? hlast)
    cases hunknown.symm.trans hother
  · rw [htarget]
    exact h.backward hrelated owner hnew

/-- A bean is constructed for a key, without links to the others. -/
theorem remember : w.Linked old O R history s' where
  sound := hs' ▸ (h.sound.puts_construct f.kind key (f.construct key)).sound
  old_le_size := by
    rw [hs', Heap.size_construct]
    exact h.old_le_size.trans (Nat.le_succ _)
  old_le {id bean} hid := by
    rcases h.handle?_remember hnone hs' hid with ⟨rfl, -⟩ | ⟨hid, -⟩
    · exact h.old_le_size
    · exact h.old_le hid
  known hmem := by
    obtain ⟨howner, hrelated⟩ := h.known hmem
    rw [handle?_of_known hnone hs' howner, handle?_of_known hnone hs' hrelated]
    exact ⟨howner, hrelated⟩
  forward howner _ hnew := h.forward_remember hf hnone hs' howner hnew
  backward hrelated _ hnew := h.backward_remember hf hnone hs' hrelated hnew

end Remember

section Fix

variable (h : w.Linked old O R history s) (hw : w.Lawful) (hkinds : O ≠ R)
  {rootKey relatedKey : Key} (howner : s.handle? (O, rootKey) = some owner)
  (hrelated : s.handle? (R, relatedKey) = some related)
include h

/-- A bean has one kind and key. -/
theorem id_unique {id id' : BeanKind × Key} (hbean : s.handle? id = some bean)
    (hbean' : s.handle? id' = some bean) : id = id' :=
  Prod.ext (h.sound.eq_of_cached hbean hbean').1 (h.sound.eq_of_cached hbean hbean').2

theorem ne_of_id_ne {id id' : BeanKind × Key} {bean' : BeanId} (hbean : s.handle? id = some bean)
    (hbean' : s.handle? id' = some bean') (hne : id ≠ id') : bean ≠ bean' :=
  fun heq => hne (h.id_unique hbean (heq ▸ hbean'))

include hkinds howner hrelated

/-- An owner is not the related bean. -/
theorem owner_ne_related : owner ≠ related :=
  h.ne_of_id_ne howner hrelated fun heq => hkinds (congrArg Prod.fst heq)

include hw

/-- The owner has one more bean. -/
theorem forward_fix {key : Key} {other : BeanId} (hother : s.handle? (O, key) = some other)
    (hnew : old ≤ bean) :
    bean ∈ w.beans (w.fixer.fix owner related s.heap) other ↔ ∃ key',
      s.handle? (R, key') = some bean ∧ key ∈ record history rootKey relatedKey key' := by
  simp only [mem_record, and_or_left, exists_or]
  rw [← h.forward hother bean hnew]
  -- the owner itself has one more bean, and any other owner is neither of the two beans
  by_cases heq : key = rootKey
  · subst heq
    obtain rfl : owner = other := Option.some.inj (howner.symm.trans hother)
    rw [mem_beans_fix hw (h.owner_ne_related hkinds howner hrelated) (h.lt_size howner)]
    refine or_congr_right ⟨?_, ?_⟩
    · rintro rfl
      exact ⟨relatedKey, hrelated, rfl, rfl⟩
    · rintro ⟨_, hbean, rfl, -⟩
      exact Option.some.inj (hbean.symm.trans hrelated)
  · have hne : other ≠ owner :=
      h.ne_of_id_ne hother howner fun hid => heq (congrArg Prod.snd hid)
    rw [(ends_fix_of_ne hne (h.owner_ne_related hkinds hother hrelated)).1]
    refine (or_iff_left ?_).symm
    rintro ⟨_, -, -, hkey⟩
    exact heq hkey

/-- The related bean leads to the owner. -/
theorem backward_fix {key : Key} (hbean : s.handle? (R, key) = some bean) {other : BeanId}
    (hnew : old ≤ other) :
    w.target? (w.fixer.fix owner related s.heap) bean = some other ↔ ∃ key',
      (record history rootKey relatedKey key).getLast? = some key' ∧
        s.handle? (O, key') = some other := by
  -- the related bean forgets its former owner, other related beans are neither of the two
  by_cases heq : key = relatedKey
  · subst heq
    obtain rfl : related = bean := Option.some.inj (hrelated.symm.trans hbean)
    rw [target?_fix hw (h.owner_ne_related hkinds howner hrelated) (h.lt_size hrelated), record,
      if_pos rfl, List.getLast?_concat]
    constructor
    · exact fun hsame => ⟨rootKey, rfl, howner.trans hsame⟩
    · rintro ⟨_, hkey, hother⟩
      rw [← Option.some.inj hkey, howner] at hother
      exact hother
  · have hne : bean ≠ related :=
      h.ne_of_id_ne hbean hrelated fun hid => heq (congrArg Prod.snd hid)
    rw [(ends_fix_of_ne (h.owner_ne_related hkinds howner hbean).symm hne).2, record, if_neg heq]
    exact h.backward hbean other hnew

/-- Both ends are written, and the history has one more link. -/
theorem fix : w.Linked old O R (record history rootKey relatedKey)
    { s with heap := w.fixer.fix owner related s.heap } where
  sound := h.sound.of_cache_eq rfl (w.fixer.keepsKinds_fix owner related s.heap)
  old_le_size := h.old_le_size.trans_eq (w.fixer.size_fix owner related s.heap).symm
  old_le := h.old_le
  known hmem := by
    rcases mem_record.mp hmem with hmem | ⟨rfl, rfl⟩
    · exact h.known hmem
    · exact ⟨⟨owner, howner⟩, related, hrelated⟩
  forward hother _ hnew := h.forward_fix hw hkinds howner hrelated hother hnew
  backward hbean _ hnew := h.backward_fix hw hkinds howner hrelated hbean hnew

end Fix

end Linked

/-! ## Steps of other parts -/

/-- What steps of other parts keep. -/
def upkeep (w : Wiring α γ) (old : Nat) (O R : BeanKind) (history : Key → List Key) : Upkeep α where
  states := w.Linked old O R history
  beans _ _ := True
  factories := w.Starts old
  columns := w.SparesColumn
  fixers := w.SparesFixer

section Steps

variable {old : Nat} {O R : BeanKind} {history : Key → List Key}

theorem upkeep_steps : (w.upkeep old O R history).Steps where
  produce {f s} hf h row := by
    have hdoes := f.does row s
    generalize f.produce row s = o at hdoes ⊢
    refine ⟨⟨?_, fun _ => trivial⟩, fun _ _ _ => trivial⟩
    cases hdoes with
    | failed e => exact h
    | absent _ => exact h
    | found _ _ => exact h
    | built _ hcached => exact Linked.remember h hf hcached rfl
    | unkeyed _ =>
      exact Linked.of_keeps h rfl (s.heap.keepsKinds_construct _ _)
        ((Nat.le_succ _).trans_eq (Heap.size_construct _ _ _).symm) (keeps_construct _ _)
  fill {c s bean} hc h _ row := by
    refine ⟨?_, fun _ => trivial⟩
    rcases c.fill_eq_or_consume bean row s with hsame | ⟨v, a, a', hcontent, hconsume, hfill⟩
    · rw [hsame]
      exact h
    · rw [hfill]
      refine Linked.of_keeps h rfl (s.heap.keepsKinds_modify _ _)
        (Heap.size_modify _ _ _).ge (keeps_modify fun b hb => ?_)
      obtain rfl : a = b := Option.some.inj (hcontent.symm.trans hb)
      exact hc v a a' hconsume
  fix {fixer s owner related} hfixer h _ _ id policy := by
    refine ⟨?_, fun _ => trivial⟩
    rcases applyFixer_eq_or_fix id fixer policy owner related s with hsame | ⟨c, hcache, hfix⟩
    · rw [hsame]
      exact h
    · rw [hfix]
      exact Linked.of_keeps h hcache (fixer.keepsKinds_fix owner related s.heap)
        (fixer.size_fix owner related s.heap).ge (keeps_fix hfixer)

end Steps

end Wiring

/-! ## Roots with such a relation -/

/-- A keyed root with a relation, among others, to keyed beans of another kind, which is wired on
each row and at both ends. Beans start without links to those that a traversal constructs, and all
other parts leave both ends alone. -/
structure WiredRoot (α γ : Type) [BeanCollection γ] [ListedCollection γ] (old : Nat) where
  wiring : Wiring α γ
  factory : Factory α
  columns : List (ColumnReader α)
  before : List (Relation α)
  id : RelationId
  target : Transformer α
  after : List (Relation α)
  lawful : wiring.Lawful
  keyed : factory.keyColumns.isSome = true
  target_keyed : target.factory.keyColumns.isSome = true
  kind_ne : factory.kind ≠ target.factory.kind
  factory_starts : wiring.Starts old factory
  columns_spare : ∀ c ∈ columns, wiring.SparesColumn c
  before_spare :
    Relation.AllMadeOf (wiring.Starts old) wiring.SparesColumn wiring.SparesFixer before
  target_spares : target.MadeOf (wiring.Starts old) wiring.SparesColumn wiring.SparesFixer
  after_spare :
    Relation.AllMadeOf (wiring.Starts old) wiring.SparesColumn wiring.SparesFixer after

/-- Relations are assembled one part after the other. -/
theorem assembleAll_append (relations relations' : List (Relation α)) (owner : BeanId) (row : Row)
    (s : State α) :
    assembleAll (relations ++ relations') owner row s =
      (assembleAll relations owner row s).andThen fun _ s =>
        assembleAll relations' owner row s := by
  induction relations generalizing s with
  | nil => rfl
  | cons r rest ih =>
    rw [List.cons_append, assembleAll, assembleAll]
    rcases r.assemble owner row s with ⟨e | ⟨⟩, s₁⟩
    · rfl
    · exact ih s₁

namespace WiredRoot

variable [BeanCollection γ] [ListedCollection γ] {old : Nat} (r : WiredRoot α γ old)

/-- The relation wired at both ends. -/
def relation : Relation α := .mk r.id r.target r.wiring.fixer .eachRow

/-- The transformer with all its relations. -/
def transformer : Transformer α :=
  .mk r.factory r.columns (r.before ++ r.relation :: r.after)

/-- The root keys of the rows that have a related key, in order; a null root key is none. -/
def rootKeysOf (rows : List Row) (relatedKey : Key) : List Key :=
  rows.filterMap fun row =>
    if r.target.factory.key? row = some relatedKey then r.factory.key? row else none

/-- The state agrees with the rows read so far. -/
abbrev LinkedTo (history : Key → List Key) (s : State α) : Prop :=
  r.wiring.Linked old r.factory.kind r.target.factory.kind history s

variable {r} {history : Key → List Key} {s s' : State α} {row : Row} {rows : List Row}

/-- Other relations leave the ends alone. -/
theorem others_linkedTo {relations : List (Relation α)}
    (hspare : Relation.AllMadeOf (r.wiring.Starts old) r.wiring.SparesColumn r.wiring.SparesFixer
      relations) (h : r.LinkedTo history s) {owner : BeanId}
    (hassemble : assembleAll relations owner row s = (.ok (), s')) : r.LinkedTo history s' := by
  have hlinked : r.LinkedTo history (assembleAll relations owner row s).2 :=
    (Wiring.upkeep_steps.assembleAll hspare h trivial row).states
  rw [hassemble] at hlinked
  exact hlinked

/-- The relation makes the history longer when the row has a related bean. -/
theorem linkedTo_assemble (h : r.LinkedTo history s) {rootKey : Key} {owner : BeanId}
    (howner : s.handle? (r.factory.kind, rootKey) = some owner)
    (hassemble : r.relation.assemble owner row s = (.ok (), s')) :
    r.LinkedTo (fun key => history key ++
      if r.target.factory.key? row = some key then [rootKey] else []) s' := by
  rw [relation, Relation.assemble] at hassemble
  obtain ⟨related, s₁, htransform, hassemble⟩ := Outcome.andThen_eq_ok hassemble
  have htarget : r.LinkedTo history (r.target.transform row s).2 :=
    (Wiring.upkeep_steps.transform r.target_spares h row).1.states
  have howner₁ := steps_handle?.transform r.target row s _ _ howner
  rw [htransform] at htarget howner₁
  cases related with
  | none =>
    obtain ⟨hkey, -⟩ := Transformer.of_transform_eq_none htransform
    obtain rfl : s₁ = s' := (Prod.mk.inj hassemble).2
    simpa only [hkey, reduceCtorEq, if_false, List.append_nil] using htarget
  | some related =>
    obtain ⟨relatedKey, hkey, hrelated⟩ := Transformer.key_of_transform r.target_keyed htransform
    obtain rfl := (Prod.mk.inj hassemble).2
    have hrecord : Wiring.record history rootKey relatedKey = fun key => history key ++
        if r.target.factory.key? row = some key then [rootKey] else [] := by
      funext key
      rw [hkey, Wiring.record]
      by_cases heq : key = relatedKey
      · simp [heq]
      · simp [heq, Ne.symm heq]
    rw [← hrecord]
    exact htarget.fix r.lawful r.kind_ne howner₁ hrelated

theorem mem_rootKeysOf {rootKey relatedKey : Key} :
    rootKey ∈ r.rootKeysOf rows relatedKey ↔ ∃ row ∈ rows, r.factory.key? row = some rootKey ∧
      r.target.factory.key? row = some relatedKey := by
  unfold rootKeysOf
  rw [List.mem_filterMap]
  refine exists_congr fun row => and_congr_right fun _ => ?_
  split
  · next hkey => simp [hkey]
  · next hkey => simp [hkey]

/-- One more row. -/
theorem rootKeysOf_concat (rows : List Row) (row : Row) (relatedKey : Key) :
    r.rootKeysOf (rows ++ [row]) relatedKey = r.rootKeysOf rows relatedKey ++
      if r.target.factory.key? row = some relatedKey then (r.factory.key? row).toList else [] := by
  unfold rootKeysOf
  rw [List.filterMap_append]
  congr 1
  split
  · next heq => cases hkey : r.factory.key? row <;> simp [heq, hkey]
  · next hne => simp [hne]

/-- A row has a root key or changes nothing; its own relations see the ends of before. -/
theorem linkedTo_transform (h : r.LinkedTo (r.rootKeysOf rows) s) {root : Option BeanId}
    (htransform : r.transformer.transform row s = (.ok root, s')) :
    r.LinkedTo (r.rootKeysOf (rows ++ [row])) s' := by
  have hhistory : r.rootKeysOf (rows ++ [row]) = fun key => r.rootKeysOf rows key ++
      if r.target.factory.key? row = some key then (r.factory.key? row).toList else [] :=
    funext fun key => rootKeysOf_concat rows row key
  rw [hhistory]
  cases root with
  | none =>
    obtain ⟨hkey, rfl⟩ := Transformer.of_transform_eq_none htransform
    simpa only [show r.factory.key? row = none from hkey, Option.toList_none, ite_self,
      List.append_nil] using h
  | some owner =>
    obtain ⟨fresh, s₁, s₂, hproduce, hfill, hassemble⟩ :=
      Transformer.of_transform_eq_some htransform
    obtain ⟨rootKey, hkey, howner⟩ := Factory.handle?_of_produce r.keyed hproduce
    rw [show r.factory.key? row = some rootKey from hkey, Option.toList_some]
    -- the bean is produced and filled
    have hproduced := (Wiring.upkeep_steps.produce r.factory_starts h row).1.states
    rw [show r.factory.produce row s = _ from hproduce] at hproduced
    have hfilled : r.LinkedTo (r.rootKeysOf rows) (fillAll owner row r.columns s₁).2 :=
      (Wiring.upkeep_steps.fillAll r.columns_spare hproduced trivial row).states
    have howner₂ := steps_handle?.fillAll owner row r.columns s₁ _ _ howner
    rw [show fillAll owner row r.columns s₁ = _ from hfill] at hfilled howner₂
    -- the relation wired at both ends is assembled between the others
    have hassemble : assembleAll (r.before ++ r.relation :: r.after) owner row s₂ = (.ok (), s') :=
      hassemble
    rw [assembleAll_append] at hassemble
    obtain ⟨⟨⟩, s₃, hbefore, hassemble⟩ := Outcome.andThen_eq_ok hassemble
    rw [assembleAll] at hassemble
    obtain ⟨⟨⟩, s₄, hrelation, hafter⟩ := Outcome.andThen_eq_ok hassemble
    have hlinked : r.LinkedTo (r.rootKeysOf rows) s₃ :=
      others_linkedTo r.before_spare hfilled hbefore
    have howner₃ := steps_handle?.assembleAll r.before owner row s₂ _ _ howner₂
    rw [hbefore] at howner₃
    exact others_linkedTo r.after_spare (linkedTo_assemble hlinked howner₃ hrelation) hafter

/-- Handing a root over concerns no links. -/
theorem linkedTo_deliver (h : r.LinkedTo history s) {seed seed' : List BeanId} {bean : BeanId}
    (hdeliver : Transformer.deliver Transformer.lister seed bean s = (.ok seed', s')) :
    r.LinkedTo history s' := by
  unfold Transformer.deliver at hdeliver
  split at hdeliver
  · obtain ⟨-, rfl⟩ := Prod.mk.inj hdeliver
    exact h
  · obtain ⟨-, rfl⟩ := Prod.mk.inj hdeliver
    exact h.of_keeps (Context.cache_markRoot _ _) (.refl _) (Nat.le_refl _) (.refl _)

/-- All rows. -/
theorem linkedTo_list {heap : Heap α} {r : WiredRoot α γ heap.size} {roots : List BeanId}
    (hlist : r.transformer.list (rows.map .ok) heap = (.ok roots, s)) :
    r.LinkedTo (r.rootKeysOf rows) s := by
  -- from the back, as one more row makes the history of each related key longer at its end
  induction rows using List.reverseRecOn generalizing roots s with
  | nil =>
    obtain ⟨-, rfl⟩ := Prod.mk.inj hlist
    exact Wiring.Linked.start heap
  | append_singleton rows row ih =>
    obtain ⟨beans, s₀, root, s₁, hfront, htransform, hlast⟩ :=
      Transformer.list_concat_cases hlist
    have hrow := linkedTo_transform (ih hfront) htransform
    cases root with
    | none =>
      rw [hlast.2]
      exact hrow
    | some bean => exact linkedTo_deliver hrow hlast

/-- The bean of each root key is listed. -/
theorem exists_root_of_list {heap : Heap α} {r : WiredRoot α γ heap.size} {roots : List BeanId}
    (hlist : r.transformer.list (rows.map .ok) heap = (.ok roots, s)) (hrow : row ∈ rows)
    {rootKey : Key} (hkey : r.factory.key? row = some rootKey) :
    ∃ owner ∈ roots, s.handle? (r.factory.kind, rootKey) = some owner := by
  have hinv := Transformer.RootInv.of_list hlist
  rw [← Transformer.map_row_rootCalls r.transformer rows heap] at hrow
  obtain ⟨p, hp, rfl⟩ := List.mem_map.mp hrow
  obtain ⟨owner, howner, hcached⟩ := hinv.exists_cached hp hkey
  obtain ⟨log, htraced, -⟩ := hinv.traced
  exact ⟨owner, (hinv.mem_iff owner).mpr ⟨p, hp, howner⟩,
    (Context.cached?_eq_some_iff htraced.ids_nodup).mpr hcached⟩

/-- A root that is listed is alive afterwards, so that a weak link finds it. -/
theorem owner?_eq_some {heap : Heap α} {r : WiredRoot α γ heap.size} {roots : List BeanId}
    (hlist : r.transformer.list (rows.map .ok) heap = (.ok roots, s)) (held : α → List BeanId)
    {relatedKey : Key} {bean : BeanId}
    (hbean : s.handle? (r.target.factory.kind, relatedKey) = some bean) {owner : BeanId}
    (hnew : heap.size ≤ owner) :
    r.wiring.owner? (alive held s.heap roots) s.heap bean = some owner ↔
      ∃ rootKey, (r.rootKeysOf rows relatedKey).getLast? = some rootKey ∧
        s.handle? (r.factory.kind, rootKey) = some owner := by
  have hlinked := linkedTo_list hlist
  rw [← hlinked.backward hbean owner hnew]
  unfold Wiring.owner? Wiring.target?
  constructor
  · intro howner
    obtain ⟨a, ha, hread⟩ := Option.bind_eq_some_iff.mp howner
    exact Option.bind_eq_some_iff.mpr ⟨a, ha, BackLink.target_of_read hread⟩
  · intro htarget
    -- the owner was linked by a row, so its bean is a root and the list keeps it alive
    obtain ⟨rootKey, hlast, howner⟩ := (hlinked.backward hbean owner hnew).mp htarget
    obtain ⟨row, hrow, hkey, -⟩ := mem_rootKeysOf.mp (List.mem_of_getLast? hlast)
    obtain ⟨root, hroot, hhandle⟩ := exists_root_of_list hlist hrow hkey
    obtain rfl : root = owner := Option.some.inj (hhandle.symm.trans howner)
    obtain ⟨a, ha, hread⟩ := Option.bind_eq_some_iff.mp htarget
    have hlives : root ∈ alive held s.heap roots := mem_alive hroot (hlinked.lt_size howner)
    exact Option.bind_eq_some_iff.mpr ⟨a, ha, (BackLink.read_eq_some hlives).mpr hread⟩

/-- When rows are listed without error, a relation that is wired at both ends on each row is told by
the keys of the rows. The bean of each root key is listed, and the related key of such a row has a
bean too. A bean constructed by the traversal is in the collection of an owner if and only if it is
the bean of a related key that some row has beside the root key of the owner. The link back of a
related bean leads to an owner if and only if the last row that has the related key and a root key
has the key of the owner, also when the link does not keep the owner alive, as roots that are listed
are. So when each related key has one root key only, a related bean is in the collection of an owner
if and only if its link back leads there. -/
theorem list_wired {heap : Heap α} (r : WiredRoot α γ heap.size) (held : α → List BeanId)
    {roots : List BeanId} (hlist : r.transformer.list (rows.map .ok) heap = (.ok roots, s)) :
    (∀ row ∈ rows, ∀ rootKey, r.factory.key? row = some rootKey →
      (∃ owner ∈ roots, s.handle? (r.factory.kind, rootKey) = some owner) ∧
      ∀ relatedKey, r.target.factory.key? row = some relatedKey →
        ∃ bean, s.handle? (r.target.factory.kind, relatedKey) = some bean) ∧
    (∀ rootKey owner, s.handle? (r.factory.kind, rootKey) = some owner →
      ∀ bean, heap.size ≤ bean → (bean ∈ r.wiring.beans s.heap owner ↔
        ∃ relatedKey, s.handle? (r.target.factory.kind, relatedKey) = some bean ∧
          ∃ row ∈ rows, r.factory.key? row = some rootKey ∧
            r.target.factory.key? row = some relatedKey)) ∧
    (∀ relatedKey bean, s.handle? (r.target.factory.kind, relatedKey) = some bean →
      ∀ owner, heap.size ≤ owner →
        (r.wiring.owner? (alive held s.heap roots) s.heap bean = some owner ↔
          ∃ rootKey, (r.rootKeysOf rows relatedKey).getLast? = some rootKey ∧
            s.handle? (r.factory.kind, rootKey) = some owner)) ∧
    ((∀ relatedKey, ∀ k ∈ r.rootKeysOf rows relatedKey, ∀ l ∈ r.rootKeysOf rows relatedKey,
        k = l) →
      ∀ rootKey owner relatedKey bean, s.handle? (r.factory.kind, rootKey) = some owner →
        s.handle? (r.target.factory.kind, relatedKey) = some bean →
        (bean ∈ r.wiring.beans s.heap owner ↔
          r.wiring.owner? (alive held s.heap roots) s.heap bean = some owner)) := by
  have hlinked := linkedTo_list hlist
  refine ⟨fun row hrow rootKey hkey => ⟨exists_root_of_list hlist hrow hkey, ?_⟩, ?_, ?_, ?_⟩
  · exact fun relatedKey hrelated =>
      (hlinked.known (mem_rootKeysOf.mpr ⟨row, hrow, hkey, hrelated⟩)).2
  · intro rootKey owner howner bean hnew
    simp only [← mem_rootKeysOf]
    exact hlinked.forward howner bean hnew
  · exact fun relatedKey bean hbean owner hnew => owner?_eq_some hlist held hbean hnew
  · intro hone rootKey owner relatedKey bean howner hbean
    rw [hlinked.forward howner bean (hlinked.old_le hbean),
      owner?_eq_some hlist held hbean (hlinked.old_le howner)]
    constructor
    · rintro ⟨key, hkey, hmem⟩
      obtain rfl : relatedKey = key := congrArg Prod.snd (hlinked.id_unique hbean hkey)
      obtain ⟨last, hlast⟩ := Option.isSome_iff_exists.mp
        (List.getLast?_isSome.mpr (List.ne_nil_of_mem hmem))
      obtain rfl := hone relatedKey rootKey hmem last (List.mem_of_getLast? hlast)
      exact ⟨rootKey, hlast, howner⟩
    · rintro ⟨key, hlast, hkey⟩
      obtain rfl : rootKey = key := congrArg Prod.snd (hlinked.id_unique howner hkey)
      exact ⟨relatedKey, hbean, List.mem_of_getLast? hlast⟩

/-! ## Teams of friends -/

/-- Persons who have teams of friends, and friends who know the person they were last with. -/
private def teams : WiredRoot (List BeanId × WeakLink) (List BeanId)
    ({} : Heap (List BeanId × WeakLink)).size where
  wiring := ⟨⟨Prod.fst, fun team a => (team, a.2)⟩, .weak ⟨Prod.snd, fun link a => (a.1, link)⟩⟩
  factory := ⟨0, some ["id"], fun _ => ([], {})⟩
  columns := []
  before := []
  id := 0
  target := .mk ⟨1, some ["friend"], fun _ => ([], {})⟩ [] []
  after := []
  lawful := ⟨fun _ _ => rfl, fun _ _ => rfl⟩
  keyed := rfl
  target_keyed := rfl
  kind_ne := by decide
  factory_starts _ := ⟨List.forall_mem_nil _, fun _ h => nomatch h⟩
  columns_spare := List.forall_mem_nil _
  before_spare := trivial
  target_spares :=
    ⟨fun _ => ⟨List.forall_mem_nil _, fun _ h => nomatch h⟩, List.forall_mem_nil _, trivial⟩
  after_spare := trivial

/-- A friend changes from one person to another, and a row without person has no say. -/
private def changing : List Row :=
  [friendRow (.ofNat 1) (.ofNat 7), friendRow (.ofNat 2) (.ofNat 7), friendRow .null (.ofNat 7)]

/-- Friends with one person each. -/
private def steady : List Row :=
  [friendRow (.ofNat 1) (.ofNat 7), friendRow (.ofNat 2) (.ofNat 8)]

/-- No friend has two persons. -/
private theorem steady_one (relatedKey : Key) : ∀ k ∈ teams.rootKeysOf steady relatedKey,
    ∀ l ∈ teams.rootKeysOf steady relatedKey, k = l := by
  intro k hk l hl
  obtain ⟨row, hrow, hkey, hfriend⟩ := mem_rootKeysOf.mp hk
  obtain ⟨row', hrow', hkey', hfriend'⟩ := mem_rootKeysOf.mp hl
  have hsame : row = row' := by
    have hseven : teams.target.factory.key? (friendRow (.ofNat 1) (.ofNat 7)) ≠
      teams.target.factory.key? (friendRow (.ofNat 2) (.ofNat 8)) := by decide
    simp only [steady, List.mem_cons, List.not_mem_nil, or_false] at hrow hrow'
    rcases hrow with rfl | rfl <;> rcases hrow' with rfl | rfl
    · rfl
    · exact absurd (hfriend.trans hfriend'.symm) hseven
    · exact absurd (hfriend'.trans hfriend.symm) hseven
    · rfl
  rw [← hsame, hkey] at hkey'
  exact Option.some.inj hkey'

/-- The state that rows lead to. -/
private def teamsAfter (rows : List Row) : State (List BeanId × WeakLink) :=
  (teams.transformer.list (rows.map .ok) {}).2

/-- A friend who changes is in both teams and knows the second person, who is alive as listed. A
friend who does not is in the team of the person that the friend knows. -/
theorem list_wired_teams :
    (1 ∈ teams.wiring.beans (teamsAfter changing).heap 0 ∧
      1 ∈ teams.wiring.beans (teamsAfter changing).heap 2 ∧
      teams.wiring.owner? (alive Prod.fst (teamsAfter changing).heap [0, 2])
        (teamsAfter changing).heap 1 = some 2) ∧
    (1 ∈ teams.wiring.beans (teamsAfter steady).heap 0 ↔
      teams.wiring.owner? (alive Prod.fst (teamsAfter steady).heap [0, 2])
        (teamsAfter steady).heap 1 = some 0) := by
  constructor
  · have hlist : teams.transformer.list (changing.map .ok) {} = (.ok [0, 2], teamsAfter changing) :=
      rfl
    obtain ⟨-, hforward, hbackward, -⟩ := list_wired teams Prod.fst hlist
    have hfriend : (teamsAfter changing).handle? (1, ⟨[.ofNat 7]⟩) = some 1 := rfl
    refine ⟨?_, ?_, ?_⟩
    · exact (hforward ⟨[.ofNat 1]⟩ 0 rfl 1 (Nat.zero_le _)).mpr
        ⟨⟨[.ofNat 7]⟩, hfriend, _, List.mem_cons_self, rfl, rfl⟩
    · exact (hforward ⟨[.ofNat 2]⟩ 2 rfl 1 (Nat.zero_le _)).mpr
        ⟨⟨[.ofNat 7]⟩, hfriend, _, List.mem_cons_of_mem _ List.mem_cons_self, rfl, rfl⟩
    · exact (hbackward ⟨[.ofNat 7]⟩ 1 hfriend 2 (Nat.zero_le _)).mpr ⟨⟨[.ofNat 2]⟩, rfl, rfl⟩
  · have hlist : teams.transformer.list (steady.map .ok) {} = (.ok [0, 2], teamsAfter steady) := rfl
    obtain ⟨-, -, -, hone⟩ := list_wired teams Prod.fst hlist
    exact hone steady_one ⟨[.ofNat 1]⟩ 0 ⟨[.ofNat 7]⟩ 1 rfl rfl

end WiredRoot

end SqlGraph.Graph
