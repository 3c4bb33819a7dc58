import Mathlib.Data.Set.Finite.Basic
import Mathlib.Order.Interval.Finset.Nat
import SqlGraph.Proofs.Graph.Opaque
import SqlGraph.Proofs.Graph.Policies
import SqlGraph.Proofs.Graph.Swapping
import SqlGraph.Proofs.Graph.Twins

/-!
# Traversals keep to themselves

The context of a traversal starts empty and is its own, so every bean that a traversal gets hold of
was constructed by it. When the parts of a transformer act only on the beans they are given
(`Transformer.ActsOnGiven`), a traversal therefore leaves all beans that were there before as they
are, hands none of them over and links to none of them, and that holds at every moment of it, also
when it fails (`Isolated`).

So a second traversal of the same result has nothing of the first one to go by: it does all of it
again with beans of its own (`rerun`), those of the first run renamed. The main statement is
`traverse_isolated`.
-/

namespace SqlGraph.Graph

variable {α : Type} [SMul HandleMap α]

/-! ## Contents and the beans they link to -/

/-- A content links to no beans but these: it stays as it is when all other handles are renamed. -/
def OnlyHolds (beans : Set BeanId) (a : α) : Prop :=
  ∀ π : HandleMap, (∀ bean ∈ beans, π bean = bean) → π • a = a

theorem OnlyHolds.mono {beans beans' : Set BeanId} {a : α} (h : OnlyHolds beans a)
    (hsub : beans ⊆ beans') : OnlyHolds beans' a :=
  fun π hπ => h π fun bean hbean => hπ bean (hsub hbean)

/-- A link leads to one of the beans, when there are only so many of them. -/
theorem mem_of_onlyHolds {beans : Set BeanId} (hfinite : beans.Finite) {bean : BeanId}
    (h : OnlyHolds beans (some bean)) : bean ∈ beans := by
  by_contra hbean
  -- exchanging the target with a handle that is not among the beans either changes the link
  obtain ⟨other, hother⟩ := (hfinite.union (Set.finite_singleton bean)).exists_notMem
  rw [Set.mem_union, Set.mem_singleton_iff, not_or] at hother
  have hswap : Equiv.swap bean other • some bean = some bean := by
    refine h (Equiv.swap bean other) fun b hb => Equiv.swap_apply_of_ne_of_ne ?_ ?_
    · rintro rfl
      exact hbean hb
    · rintro rfl
      exact hother.1 hb
  have hmoved : Equiv.swap bean other • some bean = some other :=
    congrArg some (Equiv.swap_apply_left bean other)
  exact hother.2 (Option.some.inj (hmoved.symm.trans hswap))

/-- The parts act only on the beans they are given: factories and columns make contents without
links of their own, and a fixer links what it is given to what it is given, whatever the handles. -/
def Transformer.ActsOnGiven (t : Transformer α) : Prop :=
  t.MadeOf (Factory.Opaque 0) (ColumnReader.Opaque 0) Fixer.Opaque

/-! ## One run -/

/-- The beans constructed since a heap. -/
def Heap.since (heap : Heap α) (s : State α) : Set BeanId :=
  {bean | heap.size ≤ bean ∧ bean < s.heap.size}

omit [SMul HandleMap α] in
theorem Heap.mem_since {heap : Heap α} {s : State α} {bean : Nat} :
    bean ∈ heap.since s ↔ heap.size ≤ bean ∧ bean < s.heap.size := Iff.rfl

/-- A state of a traversal that started with the beans of a heap: these are as they were, and what
was cached, and what the new beans link to, was constructed since. -/
structure Isolated (heap : Heap α) (s : State α) : Prop where
  old : ∀ bean < heap.size, s.heap.bean? bean = heap.bean? bean
  grown : heap.size ≤ s.heap.size
  cached : ∀ {kind key bean}, s.context.cached? kind key = some bean → bean ∈ heap.since s
  holds : ∀ {bean a}, heap.size ≤ bean → s.heap.content? bean = some a →
    OnlyHolds (heap.since s) a

namespace Isolated

variable {heap : Heap α} {s : State α} {bean related : BeanId}

omit [SMul HandleMap α] in
theorem since_mono {s' : State α} (h : s.heap.size ≤ s'.heap.size) :
    heap.since s ⊆ heap.since s' := fun _ hbean => ⟨hbean.1, hbean.2.trans_le h⟩

theorem start (heap : Heap α) : Isolated heap { heap := heap } where
  old _ _ := rfl
  grown := Nat.le_refl _
  cached h := by simp [Context.cached?] at h
  holds hnew hcontent := by
    rw [Heap.content?, Heap.bean?, List.getElem?_eq_none hnew] at hcontent
    cases hcontent

/-- A bean is constructed without links. -/
theorem construct (h : Isolated heap s) (kind : BeanKind) {a : α}
    (ha : ∀ π : HandleMap, π • a = a) {c : Context}
    (hc : ∀ {kind key bean}, c.cached? kind key = some bean →
      bean = s.heap.size ∨ s.context.cached? kind key = some bean) :
    Isolated heap ⟨(s.heap.construct kind a).2, c⟩ := by
  have hsize := Heap.size_construct s.heap kind a
  have hgrown : s.heap.size ≤ (s.heap.construct kind a).2.size :=
    (Nat.le_succ _).trans_eq hsize.symm
  refine ⟨fun bean hbean => ?_, h.grown.trans hgrown, fun hcached => ?_, fun hnew hcontent => ?_⟩
  · rw [Heap.bean?_construct, if_neg (hbean.trans_le h.grown).ne, h.old bean hbean]
  · rcases hc hcached with rfl | hbefore
    · exact ⟨h.grown, (Nat.lt_succ_self _).trans_eq hsize.symm⟩
    · exact since_mono hgrown (h.cached hbefore)
  · rename_i bean content
    rw [Heap.content?, Heap.bean?_construct] at hcontent
    split at hcontent
    · obtain rfl : a = content := Option.some.inj hcontent
      exact fun π _ => ha π
    · exact (h.holds hnew hcontent).mono (since_mono hgrown)

/-- The content of a new bean changes, and links to new beans still. -/
theorem modify (h : Isolated heap s) (hbean : bean ∈ heap.since s) {f : α → α}
    (hf : ∀ a, s.heap.content? bean = some a → OnlyHolds (heap.since s) (f a)) :
    Isolated heap { s with heap := s.heap.modify bean f } := by
  have hsize := Heap.size_modify s.heap bean f
  have hsince : heap.since { s with heap := s.heap.modify bean f } = heap.since s := by
    unfold Heap.since
    rw [hsize]
  refine ⟨fun other hother => ?_, h.grown.trans_eq hsize.symm, fun hcached => ?_,
    fun hnew hcontent => ?_⟩
  · rw [Heap.bean?_modify, if_neg (hother.trans_le hbean.1).ne, h.old other hother]
  · rw [hsince]
    exact h.cached hcached
  · rename_i other content
    rw [hsince]
    rw [Heap.content?, Heap.bean?_modify] at hcontent
    split at hcontent
    · cases hfound : s.heap.bean? bean with
      | none =>
        rw [hfound] at hcontent
        cases hcontent
      | some found =>
        rw [hfound] at hcontent
        obtain rfl : f found.content = content := Option.some.inj hcontent
        exact hf found.content (by rw [Heap.content?, hfound]; rfl)
    · exact h.holds hnew hcontent

/-- Fixers that act on the beans they are given wire new beans to each other. -/
theorem fix {fixer : Fixer α} (hfixer : fixer.Opaque) (h : Isolated heap s)
    (hbean : bean ∈ heap.since s) (hrelated : related ∈ heap.since s) :
    Isolated heap { s with heap := fixer.fix bean related s.heap } := by
  induction fixer generalizing s bean related with
  | wire link =>
    refine h.modify hbean fun a ha π hπ => ?_
    rw [← hfixer π related a, hπ related hrelated, h.holds hbean.1 ha π hπ]
  | withReverse forward reverse ihf ihr =>
    -- the two beans change places
    have hsize := forward.size_fix bean related s.heap
    exact ihr hfixer.2 (ihf hfixer.1 h hbean hrelated)
      ⟨hrelated.1, hrelated.2.trans_eq hsize.symm⟩ ⟨hbean.1, hbean.2.trans_eq hsize.symm⟩

/-- Marks concern no contents. -/
theorem marks (h : Isolated heap s) {c : Context} (hc : c.cache = s.context.cache) :
    Isolated heap { s with context := c } where
  old := h.old
  grown := h.grown
  cached hcached := by
    rw [Context.cached?, hc] at hcached
    exact h.cached hcached
  holds := h.holds

end Isolated

/-- What a traversal keeps, by parts that act only on the beans they are given. -/
def isolation (heap : Heap α) : Upkeep α where
  states := Isolated heap
  beans s bean := bean ∈ heap.since s
  factories := Factory.Opaque 0
  columns := ColumnReader.Opaque 0
  fixers := Fixer.Opaque

/-- No bean was there before the first one. -/
private theorem fixesBelow_zero (π : HandleMap) : FixesBelow 0 π :=
  fun bean hbean => absurd hbean (Nat.not_lt_zero bean)

/-- A bean that is constructed is one of those worked on. -/
private theorem leads_construct {heap : Heap α} {s : State α} {f : Factory α}
    (hf : f.Opaque 0) (hs : Isolated heap s) (key : Key) {c : Context}
    (hc : ∀ {kind key bean}, c.cached? kind key = some bean →
      bean = s.heap.size ∨ s.context.cached? kind key = some bean) :
    let s₁ : State α := ⟨(s.heap.construct f.kind (f.construct key)).2, c⟩
    (isolation heap).Leads s s₁ ∧ s.heap.size ∈ heap.since s₁ := by
  intro s₁
  have hlt : s.heap.size < s₁.heap.size :=
    (Nat.lt_succ_self _).trans_eq (Heap.size_construct s.heap f.kind (f.construct key)).symm
  have hisolated : Isolated heap s₁ :=
    hs.construct f.kind (fun π => hf π (fixesBelow_zero π) key) hc
  exact ⟨⟨hisolated, fun hbean => Isolated.since_mono hlt.le hbean⟩, hs.grown, hlt⟩

/-- Opaque parts work on the beans constructed by the traversal, and these only. -/
theorem isolation_steps (heap : Heap α) : (isolation heap).Steps where
  produce {f s} hf hs row := by
    have hdoes := f.does row s
    generalize f.produce row s = o at hdoes ⊢
    cases hdoes with
    | failed e => exact ⟨⟨hs, id⟩, fun _ _ h => by cases h⟩
    | absent _ => exact ⟨⟨hs, id⟩, fun _ _ h => by cases h⟩
    | found _ hcached =>
      refine ⟨⟨hs, id⟩, fun bean fresh h => ?_⟩
      cases h
      exact hs.cached hcached
    | @built key _ _ =>
      obtain ⟨hleads, hbean⟩ := leads_construct hf hs key fun hcached => by
        rw [Context.cached?_remember] at hcached
        split at hcached
        · exact .inl (Option.some.inj hcached).symm
        · exact .inr hcached
      refine ⟨hleads, fun bean fresh h => ?_⟩
      cases h
      exact hbean
    | unkeyed _ =>
      obtain ⟨hleads, hbean⟩ : (isolation heap).Leads s
          ⟨(s.heap.construct f.kind (f.construct ⟨[]⟩)).2, s.context.retain s.heap.size⟩ ∧ _ :=
        leads_construct hf hs ⟨[]⟩ .inr
      refine ⟨hleads, fun bean fresh h => ?_⟩
      cases h
      exact hbean
  fill {c s bean} hc hs hbean row := by
    rcases c.fill_eq_or_consume bean row s with hsame | ⟨v, a, a', hcontent, hconsume, hfill⟩
    · rw [hsame]
      exact ⟨hs, id⟩
    · rw [hfill]
      refine ⟨hs.modify hbean fun _ _ π hπ => ?_, fun hother =>
        ⟨hother.1, hother.2.trans_eq (Heap.size_modify s.heap bean fun _ => a').symm⟩⟩
      -- the column fills the renamed content with the renamed value, and both are as before
      have hfilled := hc π (fixesBelow_zero π) v a
      rw [hs.holds hbean.1 hcontent π hπ, hconsume] at hfilled
      exact (Except.ok.inj hfilled).symm
  fix {fixer s owner related} hfixer hs howner hrelated id policy := by
    rcases applyFixer_eq_or_fix id fixer policy owner related s with hsame | ⟨c, hcache, hfix⟩
    · rw [hsame]
      exact ⟨hs, fun hother => hother⟩
    · rw [hfix]
      exact ⟨(hs.fix hfixer howner hrelated).marks hcache, fun hother =>
        ⟨hother.1, hother.2.trans_eq (fixer.size_fix owner related s.heap).symm⟩⟩

/-- A traversal keeps to the beans that it constructs, and folds none but these. -/
theorem isolated_traverse {σ ω : Type} {t : Transformer α} (ht : t.ActsOnGiven)
    (acc : Accumulator (Delivery α) σ ω) (feed : List (Except Error Row)) (heap : Heap α) :
    Isolated heap (t.traverse acc feed heap).2 ∧
      ∀ result, (t.traverse acc feed heap).1 = .ok result →
        ∃ deliveries : List (Delivery α), acc.collect deliveries = .ok result ∧
          ∀ d ∈ deliveries, d.bean ∈ heap.since (t.traverse acc feed heap).2 :=
  (isolation_steps heap).traverse
    (fun hs _ => ⟨hs.marks (Context.cache_markRoot _ _), fun hother => hother⟩) ht acc feed
    (.start heap)

/-! ## Another run -/

/-- The renaming takes the handles constructed since one heap, up to a bound, to those constructed
at the same turn since another. -/
def Shifts (old old' bound : Nat) (π : HandleMap) : Prop :=
  ∀ bean : Nat, old ≤ bean → bean < bound → bean + old' = π bean + old

/-- There is such a renaming: the two blocks of handles change places. -/
theorem shifts_exchange {old old' : Nat} (hle : old ≤ old') (bound : Nat) :
    Shifts old old' bound (exchange old (bound - old) (old' - old)) := by
  intro bean hnew hlt
  have hmoved : (exchange old (bound - old) (old' - old) bean : ℤ) = bean + (old' - old : ℕ) :=
    exchange_first hnew (by omega)
  have hshift : ((old' - old : ℕ) : ℤ) = old' - old := Int.ofNat_sub hle
  omega

omit [SMul HandleMap α] in
/-- The beans constructed by one run are taken to those constructed by the other. -/
theorem image_since {heap heap' : Heap α} {s s' : State α} {π : HandleMap}
    (hπ : Shifts heap.size heap'.size s.heap.size π)
    (hsize : s.heap.size + heap'.size = s'.heap.size + heap.size) :
    π '' heap.since s = heap'.since s' := by
  ext bean'
  rw [Set.mem_image, Heap.mem_since]
  constructor
  · rintro ⟨bean, hbean, rfl⟩
    have hturn := hπ bean hbean.1 hbean.2
    rw [Heap.mem_since] at hbean
    omega
  · rintro ⟨hnew, hlt⟩
    have hbean : bean' + heap.size - heap'.size ∈ heap.since s := by
      rw [Heap.mem_since]
      omega
    have hturn := hπ _ hbean.1 hbean.2
    rw [Nat.sub_add_cancel (hnew.trans (Nat.le_add_right _ _))] at hturn
    exact ⟨_, hbean, Nat.add_right_cancel hturn.symm⟩

/-- Twins of two runs of one transformer have the same kinds, and contents that are the same but
for the handles. -/
def rerun (heap heap' : Heap α) : Twinning α α where
  old := heap.size
  old' := heap'.size
  kinds kind kind' := kind = kind'
  kinds_iff := by
    rintro kind kind' other other' rfl rfl
    exact Iff.rfl
  contents bound _ a b := ∀ π, Shifts heap.size heap'.size bound π → b = π • a
  contents_mono hle h π hπ := h π fun bean hnew hlt => hπ bean hnew (hlt.trans_le hle)

/-- Fixers that act on the beans they are given wire the beans of both runs alike. -/
theorem rerun_fixers (heap heap' : Heap α) {fixer : Fixer α} (h : fixer.Opaque) :
    (rerun heap heap').Fixers fixer fixer := by
  induction fixer with
  | wire link =>
    refine .wire fun {bound key bean bean' a b} htwins hlt hab π hπ => ?_
    have hbean : π bean = bean' :=
      Nat.add_right_cancel ((hπ bean htwins.new hlt).symm.trans htwins.turn)
    rw [hab π hπ, ← hbean, h π bean a]
  | withReverse forward reverse ihf ihr => exact .withReverse (ihf h.1) (ihr h.2)

/-- A transformer whose parts act only on the beans they are given does the same in both runs. -/
theorem rerun_transformers {heap heap' : Heap α} (hle : heap.size ≤ heap'.size)
    {t : Transformer α} (ht : t.ActsOnGiven) :
    (rerun heap heap').simulation.Transformers t t := by
  refine Simulation.transformers_self (rerun heap heap').simulation
    (fun f hf => ⟨rfl, rfl, fun key π _ => ?_⟩)
    (fun c hc => ⟨rfl, fun {bound key a b} hab v => ?_⟩)
    (fun fixer hfixer => rerun_fixers heap heap' hfixer) ht
  · exact (hf π (fixesBelow_zero π) key).symm
  · -- any renaming of the kind tells what the column makes of the other content
    have hconsume : ∀ π, Shifts heap.size heap'.size bound π →
        c.consume v b = (c.consume v a).map (π • ·) := by
      intro π hπ
      rw [hab π hπ, hc π (fixesBelow_zero π) v a]
    have hexchange := hconsume _ (shifts_exchange hle bound)
    cases hfilled : c.consume v a with
    | error e =>
      rw [hfilled] at hexchange
      rw [hexchange]
      exact .error e
    | ok a' =>
      rw [hfilled] at hexchange
      rw [hexchange]
      refine .ok fun π hπ => ?_
      have hother := hconsume π hπ
      rw [hfilled, hexchange] at hother
      exact Except.ok.inj hother

theorem loyal_actsOnGiven : loyal.ActsOnGiven := by
  have hnone : (⟨0, some ["friend"], fun _ => none⟩ : Factory (Option BeanId)).Opaque 0 :=
    fun _ _ _ => rfl
  have hnoColumns : ∀ c ∈ ([] : List (ColumnReader (Option BeanId))), c.Opaque 0 := by simp
  refine ⟨fun _ _ _ => rfl, hnoColumns, ⟨⟨hnone, hnoColumns, trivial⟩, ?_⟩, trivial⟩
  exact fun _ _ _ => rfl

/-- A bean of another traversal. -/
private def stranger : Heap (Option BeanId) := (({} : Heap (Option BeanId)).construct 0 none).2

/-- A person who is read with two friends. -/
private def twoFriends : List (Except Error Row) :=
  [.ok (friendRow (.ofNat 1) (.ofNat 2)), .ok (friendRow (.ofNat 1) (.ofNat 3))]

end SqlGraph.Graph
