import SqlGraph.Proofs.Graph.Footprint
import SqlGraph.Proofs.Graph.Simulation

/-!
# Runs that construct the same beans

Two runs start with beans of their own, and from then on construct the same beans in the same order:
the one constructed as the i-th by one run and the one constructed as the i-th by the other are
twins (`Twinning.Twins`). Their contents correspond in a way that is left open, and so may their
kinds. Twins are found under the same keys and have the same marks (`Twinning.States`).

When corresponding parts make corresponding contents, every step keeps that
(`Twinning.steps`), so two traversals side by side return twins.
-/

namespace SqlGraph.Graph

variable {α β : Type}

/-- A bean was constructed for a key: it is cached under it, or the factory of its kind has no key
columns. -/
def Context.HasKey (c : Context) (kind : BeanKind) (key : Key) (bean : BeanId) : Prop :=
  c.cached? kind key = some bean ∨ key = ⟨[]⟩ ∧ bean ∈ c.retained

/-- Where two runs start, and which kinds and contents correspond; contents may be said to
correspond as far as the beans constructed so far go. -/
structure Twinning (α β : Type) where
  old : Nat
  old' : Nat
  kinds : BeanKind → BeanKind → Prop
  kinds_iff : ∀ {kind kind' other other'}, kinds kind kind' → kinds other other' →
    (kind = other ↔ kind' = other')
  contents : Nat → Key → α → β → Prop
  contents_mono : ∀ {n m key a b}, n ≤ m → contents n key a b → contents m key a b

namespace Twinning

variable (w : Twinning α β)

/-- The beans were constructed at the same turn by the two runs. -/
structure Twins (bean bean' : BeanId) : Prop where
  new : w.old ≤ bean
  turn : bean + w.old' = bean' + w.old

/-- Two beans of corresponding kinds and contents, constructed for one key. -/
structure Pair (s : State α) (s' : State β) (bean bean' : BeanId) (kind kind' : BeanKind)
    (key : Key) (a : α) (b : β) : Prop where
  kinds : w.kinds kind kind'
  left : s.heap.bean? bean = some ⟨kind, a⟩
  right : s'.heap.bean? bean' = some ⟨kind', b⟩
  key_left : s.context.HasKey kind key bean
  key_right : s'.context.HasKey kind' key bean'
  contents : w.contents s.heap.size key a b

/-- States of two runs that constructed the same beans. -/
structure States (s : State α) (s' : State β) : Prop where
  size : w.Twins s.heap.size s'.heap.size
  cached : ∀ {kind kind'}, w.kinds kind kind' → ∀ key,
    Option.Rel (fun bean bean' => w.Twins bean bean' ∧ bean < s.heap.size)
      (s.context.cached? kind key) (s'.context.cached? kind' key)
  isTreated : ∀ {bean bean'}, w.Twins bean bean' →
    s'.context.isTreated bean' = s.context.isTreated bean
  isRoot : ∀ {bean bean'}, w.Twins bean bean' → s'.context.isRoot bean' = s.context.isRoot bean
  pairs : ∀ {bean bean'}, w.Twins bean bean' → bean < s.heap.size →
    ∃ kind kind' key a b, w.Pair s s' bean bean' kind kind' key a b

/-- Fixers whose wires keep contents corresponding when they link twins. -/
inductive Fixers : Fixer α → Fixer β → Prop where
  | wire {link : BeanId → α → α} {link' : BeanId → β → β}
    (h : ∀ {n key bean bean' a b}, w.Twins bean bean' → bean < n → w.contents n key a b →
      w.contents n key (link bean a) (link' bean' b)) : Fixers (.wire link) (.wire link')
  | withReverse {forward reverse forward' reverse'} (hforward : Fixers forward forward')
    (hreverse : Fixers reverse reverse') :
    Fixers (.withReverse forward reverse) (.withReverse forward' reverse')

/-- Twins of two runs correspond, and so do parts that make corresponding contents. -/
def simulation : Simulation α β where
  states := w.States
  beans s _ bean bean' := w.Twins bean bean' ∧ bean < s.heap.size
  factories f f' := w.kinds f.kind f'.kind ∧ f'.keyColumns = f.keyColumns ∧
    ∀ key, w.contents w.old key (f.construct key) (f'.construct key)
  columns c c' := c'.label = c.label ∧ ∀ {n key a b}, w.contents n key a b → ∀ v,
    Agree (w.contents n key) (c.consume v a) (c'.consume v b)
  fixers := w.Fixers

variable {w} {s : State α} {s' : State β} {bean bean' other other' : BeanId}

/-- Beans that are one bean have one twin. -/
theorem Twins.eq_iff (h : w.Twins bean bean') (h' : w.Twins other other') :
    bean = other ↔ bean' = other' := by
  constructor
  · rintro rfl
    exact Nat.add_right_cancel (h.turn.symm.trans h'.turn)
  · rintro rfl
    exact Nat.add_right_cancel (h.turn.trans h'.turn.symm)

/-- The beans constructed next are twins too. -/
theorem Twins.succ (h : w.Twins bean bean') : w.Twins (bean + 1) (bean' + 1) :=
  ⟨h.new.trans (Nat.le_succ bean), by rw [Nat.add_right_comm, h.turn, Nat.add_right_comm]⟩

/-- Two runs start with no twins. -/
theorem states_start (heap : Heap α) (heap' : Heap β) (hold : w.old = heap.size)
    (hold' : w.old' = heap'.size) : w.States { heap := heap } { heap := heap' } where
  size := ⟨hold.le, by rw [hold, hold', Nat.add_comm]⟩
  cached _ _ := .none
  isTreated _ := rfl
  isRoot _ := rfl
  pairs h hlt := absurd h.new (Nat.not_le.mpr (hold ▸ hlt))

namespace States

/-- Twins are constructed, and the contexts remember them. -/
theorem construct (h : w.States s s') {kind kind' : BeanKind} (hkinds : w.kinds kind kind')
    {key : Key} {a : α} {b : β} (hcontents : w.contents w.old key a b) {c c' : Context}
    (hcached : ∀ {other other'}, w.kinds other other' → ∀ key,
      Option.Rel (fun bean bean' => w.Twins bean bean' ∧ bean < s.heap.size + 1)
        (c.cached? other key) (c'.cached? other' key))
    (hmarks : c.treated = s.context.treated ∧ c.roots = s.context.roots)
    (hmarks' : c'.treated = s'.context.treated ∧ c'.roots = s'.context.roots)
    (hkeys : ∀ {kind key bean}, s.context.HasKey kind key bean → c.HasKey kind key bean)
    (hkeys' : ∀ {kind key bean}, s'.context.HasKey kind key bean → c'.HasKey kind key bean)
    (hnew : c.HasKey kind key s.heap.size) (hnew' : c'.HasKey kind' key s'.heap.size) :
    w.States ⟨(s.heap.construct kind a).2, c⟩ ⟨(s'.heap.construct kind' b).2, c'⟩ where
  size := by
    rw [Heap.size_construct, Heap.size_construct]
    exact h.size.succ
  cached {other other'} hother key := by
    rw [Heap.size_construct]
    exact hcached hother key
  isTreated {bean bean'} htwins := by
    unfold Context.isTreated
    rw [hmarks.1, hmarks'.1]
    exact funext fun id => congrFun (h.isTreated htwins) id
  isRoot {bean bean'} htwins := by
    unfold Context.isRoot
    rw [hmarks.2, hmarks'.2]
    exact h.isRoot htwins
  pairs {bean bean'} htwins hlt := by
    rw [Heap.size_construct] at hlt
    have hsize := Heap.size_construct s.heap kind a
    by_cases hbean : bean = s.heap.size
    · have hbean' : bean' = s'.heap.size := (htwins.eq_iff h.size).mp hbean
      rw [hbean, hbean']
      refine ⟨kind, kind', key, a, b, hkinds, ?_, ?_, hnew, hnew', ?_⟩
      · rw [Heap.bean?_construct, if_pos rfl]
      · rw [Heap.bean?_construct, if_pos rfl]
      · exact w.contents_mono (h.size.new.trans (Nat.le_succ _ |>.trans_eq hsize.symm)) hcontents
    · have hbean' : bean' ≠ s'.heap.size := fun heq => hbean ((htwins.eq_iff h.size).mpr heq)
      have hbefore : bean < s.heap.size := Nat.lt_of_le_of_ne (Nat.le_of_lt_succ hlt) hbean
      obtain ⟨k, k', l, x, y, hpair⟩ := h.pairs htwins hbefore
      refine ⟨k, k', l, x, y, hpair.kinds, ?_, ?_, hkeys hpair.key_left, hkeys' hpair.key_right, ?_⟩
      · rw [Heap.bean?_construct, if_neg hbean, hpair.left]
      · rw [Heap.bean?_construct, if_neg hbean', hpair.right]
      · exact w.contents_mono (Nat.le_succ _ |>.trans_eq hsize.symm) hpair.contents

/-- The contents of twins change into corresponding ones. -/
theorem modify (h : w.States s s') (htwins : w.Twins bean bean') {kind kind' : BeanKind} {key : Key}
    {a : α} {b : β} (hpair : w.Pair s s' bean bean' kind kind' key a b) {f : α → α} {f' : β → β}
    (hf : w.contents s.heap.size key (f a) (f' b)) :
    w.States { s with heap := s.heap.modify bean f }
      { s' with heap := s'.heap.modify bean' f' } where
  size := by
    rw [Heap.size_modify, Heap.size_modify]
    exact h.size
  cached {_ _} hkinds key := by
    rw [Heap.size_modify]
    exact h.cached hkinds key
  isTreated := h.isTreated
  isRoot := h.isRoot
  pairs {other other'} hother hlt := by
    rw [Heap.size_modify] at hlt
    by_cases heq : other = bean
    · obtain rfl := heq
      obtain rfl := (hother.eq_iff htwins).mp rfl
      refine ⟨kind, kind', key, f a, f' b, hpair.kinds, ?_, ?_, hpair.key_left, hpair.key_right, ?_⟩
      · rw [Heap.bean?_modify, if_pos rfl, hpair.left]
        rfl
      · rw [Heap.bean?_modify, if_pos rfl, hpair.right]
        rfl
      · rw [Heap.size_modify]
        exact hf
    · have heq' : other' ≠ bean' := fun heq' => heq ((hother.eq_iff htwins).mpr heq')
      obtain ⟨k, k', l, x, y, hpair⟩ := h.pairs hother hlt
      refine ⟨k, k', l, x, y, hpair.kinds, ?_, ?_, hpair.key_left, hpair.key_right, ?_⟩
      · rw [Heap.bean?_modify, if_neg heq, hpair.left]
      · rw [Heap.bean?_modify, if_neg heq', hpair.right]
      · rw [Heap.size_modify]
        exact hpair.contents

/-- Twins are marked alike. -/
theorem marks (h : w.States s s') {c c' : Context} (hcache : c.cache = s.context.cache)
    (hcache' : c'.cache = s'.context.cache) (hretained : c.retained = s.context.retained)
    (hretained' : c'.retained = s'.context.retained)
    (htreated : ∀ {bean bean'}, w.Twins bean bean' → c'.isTreated bean' = c.isTreated bean)
    (hroot : ∀ {bean bean'}, w.Twins bean bean' → c'.isRoot bean' = c.isRoot bean) :
    w.States { s with context := c } { s' with context := c' } where
  size := h.size
  cached {_ _} hkinds key := by
    unfold Context.cached?
    rw [hcache, hcache']
    exact h.cached hkinds key
  isTreated := htreated
  isRoot := hroot
  pairs {other other'} hother hlt := by
    obtain ⟨k, k', l, a, b, hpair⟩ := h.pairs hother hlt
    refine ⟨k, k', l, a, b, hpair.kinds, hpair.left, hpair.right, ?_, ?_, hpair.contents⟩
    · unfold Context.HasKey Context.cached?
      rw [hcache, hretained]
      exact hpair.key_left
    · unfold Context.HasKey Context.cached?
      rw [hcache', hretained']
      exact hpair.key_right

/-- Fixers wire twins alike. -/
theorem fix {fixer : Fixer α} {fixer' : Fixer β} (hfixer : w.Fixers fixer fixer')
    (h : w.States s s') (howner : w.Twins bean bean') (hlt : bean < s.heap.size)
    (hrelated : w.Twins other other') (hlt' : other < s.heap.size) :
    w.States { s with heap := fixer.fix bean other s.heap }
      { s' with heap := fixer'.fix bean' other' s'.heap } := by
  induction hfixer generalizing s s' bean bean' other other' with
  | wire hlink =>
    obtain ⟨_, _, _, _, _, hpair⟩ := h.pairs howner hlt
    exact h.modify howner hpair (hlink hrelated hlt' hpair.contents)
  | @withReverse forward reverse forward' reverse' _ _ ihf ihr =>
    have hforward := ihf h howner hlt hrelated hlt'
    have hsize := forward.size_fix bean other s.heap
    exact ihr hforward hrelated (hlt'.trans_eq hsize.symm) howner (hlt.trans_eq hsize.symm)

/-- A relation is treated for twins. -/
theorem treat (h : w.States s s') (htwins : w.Twins bean bean') (id : RelationId) :
    w.States { s with context := s.context.treat bean id }
      { s' with context := s'.context.treat bean' id } := by
  refine h.marks (Context.cache_treat _ _ _) (Context.cache_treat _ _ _) ?_ ?_ ?_ ?_
  · unfold Context.treat
    split <;> rfl
  · unfold Context.treat
    split <;> rfl
  · intro other other' hother
    funext relation
    have hsame : (bean' == other') = (bean == other) := by
      rw [Bool.eq_iff_iff, beq_iff_eq, beq_iff_eq]
      exact (htwins.eq_iff hother).symm
    rw [Context.isTreated_treat, Context.isTreated_treat, h.isTreated hother, hsame]
  · intro other other' hother
    rw [Context.isRoot_treat, Context.isRoot_treat]
    exact h.isRoot hother

/-- Twins are marked as roots. -/
theorem markRoot (h : w.States s s') (htwins : w.Twins bean bean') :
    w.States { s with context := s.context.markRoot bean }
      { s' with context := s'.context.markRoot bean' } := by
  refine h.marks (Context.cache_markRoot _ _) (Context.cache_markRoot _ _) ?_ ?_ ?_ ?_
  · unfold Context.markRoot
    split <;> rfl
  · unfold Context.markRoot
    split <;> rfl
  · intro other other' hother
    rw [Context.isTreated_markRoot, Context.isTreated_markRoot]
    exact h.isTreated hother
  · intro other other' hother
    have hsame : (other' == bean') = (other == bean) := by
      rw [Bool.eq_iff_iff, beq_iff_eq, beq_iff_eq]
      exact (hother.eq_iff htwins).symm
    rw [Context.isRoot_markRoot, Context.isRoot_markRoot, h.isRoot hother, hsame]

end States

/-! ## Steps -/

/-- What is cached for twins stays so when another bean is constructed. -/
private theorem States.cached_succ (h : w.States s s') {kind kind' : BeanKind}
    (hkinds : w.kinds kind kind') (key : Key) :
    Option.Rel (fun bean bean' => w.Twins bean bean' ∧ bean < s.heap.size + 1)
      (s.context.cached? kind key) (s'.context.cached? kind' key) := by
  have hcached := h.cached hkinds key
  generalize s.context.cached? kind key = found at hcached
  generalize s'.context.cached? kind' key = found' at hcached
  cases hcached with
  | none => exact .none
  | some hbean => exact .some ⟨hbean.1, hbean.2.trans (Nat.lt_succ_self _)⟩

/-- A bean that is cached stays cached when another key is remembered. -/
private theorem hasKey_remember {c : Context} {kind other : BeanKind} {key key' : Key}
    (hnone : c.cached? kind key = none) (h : c.HasKey other key' bean') :
    (c.remember kind key bean).HasKey other key' bean' := by
  refine h.imp_left fun hcached => ?_
  rw [Context.cached?_remember, if_neg, hcached]
  rintro ⟨rfl, rfl⟩
  exact Option.some_ne_none _ (hcached.symm.trans hnone)

section Construct

variable (h : w.States s s') {kind kind' : BeanKind} (hkinds : w.kinds kind kind') {key : Key}
  {a : α} {b : β} (hcontents : w.contents w.old key a b)
include h hkinds hcontents

/-- Twins without key are constructed. -/
theorem States.retain (hkey : key = ⟨[]⟩) :
    w.States ⟨(s.heap.construct kind a).2, s.context.retain s.heap.size⟩
      ⟨(s'.heap.construct kind' b).2, s'.context.retain s'.heap.size⟩ := by
  refine h.construct hkinds hcontents (fun hother key => h.cached_succ hother key) ⟨rfl, rfl⟩
    ⟨rfl, rfl⟩ ?_ ?_ (.inr ⟨hkey, List.mem_cons_self⟩) (.inr ⟨hkey, List.mem_cons_self⟩)
  · exact fun hkey => hkey.imp_right fun hkept => ⟨hkept.1, List.mem_cons_of_mem _ hkept.2⟩
  · exact fun hkey => hkey.imp_right fun hkept => ⟨hkept.1, List.mem_cons_of_mem _ hkept.2⟩

/-- Twins are constructed for a key. -/
theorem States.remember (hnone : s.context.cached? kind key = none)
    (hnone' : s'.context.cached? kind' key = none) :
    w.States ⟨(s.heap.construct kind a).2, s.context.remember kind key s.heap.size⟩
      ⟨(s'.heap.construct kind' b).2, s'.context.remember kind' key s'.heap.size⟩ := by
  refine h.construct hkinds hcontents ?_ ⟨rfl, rfl⟩ ⟨rfl, rfl⟩ (hasKey_remember hnone)
    (hasKey_remember hnone') (.inl ?_) (.inl ?_)
  · intro other other' hother key'
    have hsame : (other = kind ∧ key' = key) ↔ (other' = kind' ∧ key' = key) :=
      and_congr_left' (w.kinds_iff hother hkinds)
    rw [Context.cached?_remember, Context.cached?_remember]
    by_cases hentry : other = kind ∧ key' = key
    · rw [if_pos hentry, if_pos (hsame.mp hentry)]
      exact .some ⟨h.size, Nat.lt_succ_self _⟩
    · rw [if_neg hentry, if_neg fun hentry' => hentry (hsame.mpr hentry')]
      exact h.cached_succ hother key'
  · rw [Context.cached?_remember, if_pos ⟨rfl, rfl⟩]
  · rw [Context.cached?_remember, if_pos ⟨rfl, rfl⟩]

end Construct

/-- Twins that are constructed are returned. -/
private theorem ends_construct (h : w.States s s') {kind kind' : BeanKind} {a : α} {b : β}
    {c c' : Context}
    (hstates : w.States ⟨(s.heap.construct kind a).2, c⟩ ⟨(s'.heap.construct kind' b).2, c'⟩) :
    w.simulation.Ends (fun s₁ s₁' => Option.Rel fun made made' =>
      w.simulation.beans s₁ s₁' made.1 made'.1) s s'
      (.ok (some (s.heap.size, true)), ⟨(s.heap.construct kind a).2, c⟩)
      (.ok (some (s'.heap.size, true)), ⟨(s'.heap.construct kind' b).2, c'⟩) := by
  have hlt : s.heap.size < (s.heap.construct kind a).2.size :=
    (Nat.lt_succ_self _).trans_eq (Heap.size_construct s.heap kind a).symm
  exact ⟨⟨hstates, fun hbean => ⟨hbean.1, hbean.2.trans hlt⟩⟩, .ok (.some ⟨h.size, hlt⟩)⟩

/-- What corresponding factories return are twins, constructed or found. -/
theorem produce_ends {f : Factory α} {f' : Factory β} (hf : w.simulation.factories f f')
    (h : w.States s s') (row : Row) :
    w.simulation.Ends (fun s₁ s₁' => Option.Rel fun made made' =>
      w.simulation.beans s₁ s₁' made.1 made'.1) s s' (f.produce row s) (f'.produce row s') := by
  obtain ⟨hkinds, hcolumns, hconstruct⟩ := hf
  unfold Factory.produce
  rw [hcolumns]
  cases f.keyColumns with
  | none => exact ends_construct h (h.retain hkinds (hconstruct _) rfl)
  | some labels =>
    dsimp only
    cases readAll row labels with
    | error e => exact ⟨.refl h, .error e⟩
    | ok values =>
      dsimp only
      cases (Key.mk values).isNull with
      | true =>
        simp only [if_true]
        exact ⟨.refl h, .ok .none⟩
      | false =>
        simp only [Bool.false_eq_true, if_false]
        have hcached := h.cached hkinds ⟨values⟩
        cases hleft : s.context.cached? f.kind ⟨values⟩ with
        | some bean =>
          rw [hleft] at hcached
          generalize s'.context.cached? f'.kind ⟨values⟩ = found' at hcached
          cases hcached with
          | some hbean => exact ⟨.refl h, .ok (.some hbean)⟩
        | none =>
          cases hright : s'.context.cached? f'.kind ⟨values⟩ with
          | some bean' =>
            rw [hleft, hright] at hcached
            cases hcached
          | none => exact ends_construct h (h.remember hkinds (hconstruct _) hleft hright)

/-- Corresponding columns fill twins alike. -/
theorem fill_ends {c : ColumnReader α} {c' : ColumnReader β} (hc : w.simulation.columns c c')
    (h : w.States s s') (hbean : w.simulation.beans s s' bean bean') (row : Row) :
    w.simulation.Ends (fun _ _ _ _ => True) s s' (c.fill bean row s) (c'.fill bean' row s') := by
  obtain ⟨hlabel, hconsume⟩ := hc
  obtain ⟨kind, kind', key, a, b, hpair⟩ := h.pairs hbean.1 hbean.2
  unfold ColumnReader.fill Heap.content?
  rw [hlabel]
  cases row c.label with
  | error e => exact ⟨.refl h, .error e⟩
  | ok v =>
    simp only [hpair.left, hpair.right, Option.map_some]
    have hfilled := hconsume hpair.contents v
    generalize c.consume v a = filled at hfilled
    generalize c'.consume v b = filled' at hfilled
    cases hfilled with
    | error e => exact ⟨.refl h, .error e⟩
    | ok hcontents =>
      have hsize := Heap.size_modify s.heap bean
      refine ⟨⟨h.modify hbean.1 hpair hcontents, fun hother => ⟨hother.1, ?_⟩⟩, .ok trivial⟩
      exact hother.2.trans_eq (hsize _).symm

/-- Corresponding fixers are applied to twins in both runs or in none. -/
theorem fix_follows {fixer : Fixer α} {fixer' : Fixer β} (hfixer : w.Fixers fixer fixer')
    (h : w.States s s') (howner : w.simulation.beans s s' bean bean')
    (hrelated : w.simulation.beans s s' other other') (id : RelationId) (policy : Policy) :
    w.simulation.Follows s s' (applyFixer id fixer policy bean other s)
      (applyFixer id fixer' policy bean' other' s') := by
  have hfixed := h.fix hfixer howner.1 howner.2 hrelated.1 hrelated.2
  have hsize := fixer.size_fix bean other s.heap
  unfold applyFixer
  cases policy with
  | eachRow => exact ⟨hfixed, fun hkept => ⟨hkept.1, hkept.2.trans_eq hsize.symm⟩⟩
  | oncePerBean =>
    simp only [h.isTreated howner.1]
    cases s.context.isTreated bean id with
    | true => exact .refl h
    | false =>
      refine ⟨hfixed.treat howner.1 id, fun hkept => ⟨hkept.1, ?_⟩⟩
      exact hkept.2.trans_eq hsize.symm

/-- Every step of one run has its twin in the other. -/
theorem steps : w.simulation.Steps where
  produce hf h row := produce_ends hf h row
  fill hc h hbean row := fill_ends hc h hbean row
  fix hfixer h howner hrelated id policy := fix_follows hfixer h howner hrelated id policy

/-- Twins are roots of both runs or of none. -/
theorem marks : w.simulation.Marks where
  isRoot h hbean := h.isRoot hbean.1
  markRoot h hbean := ⟨h.markRoot hbean.1, id⟩

end Twinning

end SqlGraph.Graph
