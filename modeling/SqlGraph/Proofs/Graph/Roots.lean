import SqlGraph.Proofs.Graph.Events
import SqlGraph.Proofs.Graph.Identity
import SqlGraph.Proofs.Graph.Traversal
import SqlGraph.Proofs.Lists

/-!
# Roots

A traversal hands the bean of a row over on the first row that reads it as a root, whatever the
relations of the transformer built before.

* `Transformer.rootCalls` are the calls of the root factory, one for each row, apart from the calls
  for related beans;
* `Transformer.RootInv` relates what is listed to these calls, and rows keep it;
* `Transformer.Delivers` says that folding rows is folding what they hand over, for any accumulator;
* `Transformer.HandsOver` says what is handed over.

The main statement is `handsOver_of_traverse`.
-/

namespace SqlGraph.Graph

variable {α : Type}

/-! ## Keys and calls of roots -/

/-- The key of a row, absent when a component is null. -/
def Factory.key? (f : Factory α) (row : Row) : Option Key :=
  (Production.mk f row {}).key?.filter fun key => !key.isNull

theorem Production.identity?_eq (p : Production α) :
    p.identity? = (p.factory.key? p.row).map fun key => (p.factory.kind, key) := rfl

/-- A call of a keyed factory that asks for no bean returns none. -/
theorem Production.bean?_of_no_identity {p : Production α}
    (hkeyed : p.factory.keyColumns.isSome = true) (h : p.identity? = none) : p.bean? = none := by
  obtain ⟨labels, hlabels⟩ := Option.isSome_iff_exists.mp hkeyed
  unfold identity? key? at h
  unfold bean? outcome Factory.produce
  simp only [hlabels] at h ⊢
  cases hvalues : readAll p.row labels with
  | error e => rfl
  | ok values =>
    have hnull : (Key.mk values).isNull = true := by simpa [hvalues] using h
    simp only [hnull, if_true]
    rfl

/-- A call without key columns returns a new bean. -/
theorem Production.bean?_of_no_columns {p : Production α} (h : p.factory.keyColumns = none) :
    p.bean? = some p.before.heap.size ∧ p.constructs = true := by
  constructor
  · unfold bean? outcome Factory.produce
    rw [h]
    rfl
  · refine constructs_of_size ?_
    unfold after outcome Factory.produce
    rw [h]
    exact Heap.size_construct _ _ _

/-- A step that ended well is followed by one that did. -/
theorem Outcome.andThen_eq_ok {β γ : Type} {o : Outcome α β} {next : β → State α → Outcome α γ}
    {c : γ} {s' : State α} (h : o.andThen next = (.ok c, s')) :
    ∃ b s, o = (.ok b, s) ∧ next b s = (.ok c, s') := by
  obtain ⟨e | b, s⟩ := o
  · exact absurd (Prod.mk.inj h).1 (by simp)
  · exact ⟨b, s, rfl, h⟩

namespace Transformer

variable (t : Transformer α) (rows : List Row) (heap : Heap α)

/-- The call of the root factory for each row, in the state that the rows before it lead to. -/
def rootCalls : List (Production α) :=
  rows.mapIdx fun i row =>
    { factory := t.factory, row, before := (t.list ((rows.take i).map .ok) heap).2 }

theorem rootCalls_concat (row : Row) :
    t.rootCalls (rows ++ [row]) heap =
      t.rootCalls rows heap ++ [⟨t.factory, row, (t.list (rows.map .ok) heap).2⟩] :=
  mapIdx_take_concat
    (fun before row => Production.mk t.factory row (t.list (before.map .ok) heap).2) rows row

/-- There is one call for each row. -/
theorem map_row_rootCalls : (t.rootCalls rows heap).map (·.row) = rows := by
  induction rows using List.reverseRecOn with
  | nil => rfl
  | append_singleton rows row ih => rw [rootCalls_concat, List.map_append, ih, List.map_singleton]

variable {t rows heap}

theorem factory_of_mem_rootCalls {p : Production α} (hp : p ∈ t.rootCalls rows heap) :
    p.factory = t.factory := by
  obtain ⟨i, hi, rfl⟩ := List.mem_mapIdx.mp hp
  rfl

/-- The first call of a row is that of the root factory. -/
theorem productions_head (t : Transformer α) (row : Row) (s : State α) :
    ∃ rest, t.productions row s = ⟨t.factory, row, s⟩ :: rest := by
  cases t with
  | mk factory columns relations => exact ⟨_, by unfold productions; rfl⟩

/-- The root of a row is the bean that the root factory returns. -/
theorem bean?_of_transform {row : Row} {root : Option BeanId} {s s' : State α}
    (h : t.transform row s = (.ok root, s')) :
    (Production.mk t.factory row s).bean? = root := by
  cases t with
  | mk factory columns relations =>
    unfold transform at h
    obtain ⟨made, s₁, hproduce, hrest⟩ := Outcome.andThen_eq_ok h
    have hbean : (Production.mk factory row s).bean? = made.map (·.1) :=
      Production.bean?_of_outcome hproduce
    show (Production.mk factory row s).bean? = root
    rw [hbean]
    cases made with
    | none => exact Except.ok.inj (Prod.mk.inj hrest).1
    | some made =>
      obtain ⟨-, s₂, -, hrest⟩ := Outcome.andThen_eq_ok hrest
      obtain ⟨-, s₃, -, hrest⟩ := Outcome.andThen_eq_ok hrest
      exact Except.ok.inj (Prod.mk.inj hrest).1

/-! ## Listing row by row -/

/-- The accumulator that lists beans. -/
abbrev lister : Accumulator (Delivery α) (List BeanId) (List BeanId) :=
  Accumulator.toList.comap (·.bean)

/-- More rows are listed behind those listed before. -/
theorem traverseFrom_append (t : Transformer α) (seed : List BeanId)
    (feed feed' : List (Except Error Row)) (s : State α) :
    t.traverseFrom lister seed (feed ++ feed') s =
      (t.traverseFrom lister seed feed s).andThen fun beans s =>
        t.traverseFrom lister beans feed' s := by
  induction feed generalizing seed s with
  | nil => rfl
  | cons item rest ih =>
    cases item with
    | error e => rfl
    | ok row =>
      rw [List.cons_append, traverseFrom, traverseFrom]
      rcases t.transform row s with ⟨e | (_ | bean), s₁⟩
      · rfl
      · exact ih seed s₁
      · simp only [Outcome.andThen]
        rcases deliver lister seed bean s₁ with ⟨e | beans, s₂⟩
        · rfl
        · exact ih beans s₂

/-- The last row of a result is transformed after the others were listed, and its root is handed
over if it has one. -/
theorem list_concat_cases {row : Row} {beans' : List BeanId} {s' : State α}
    (h : t.list ((rows ++ [row]).map .ok) heap = (.ok beans', s')) :
    ∃ beans s root s₁, t.list (rows.map .ok) heap = (.ok beans, s) ∧
      t.transform row s = (.ok root, s₁) ∧
      match root with
      | none => beans' = beans ∧ s' = s₁
      | some bean => deliver lister beans bean s₁ = (.ok beans', s') := by
  unfold list traverse at h
  rw [List.map_append, traverseFrom_append] at h
  obtain ⟨beans, s, hfront, hlast⟩ := Outcome.andThen_eq_ok h
  rw [List.map_singleton, traverseFrom] at hlast
  obtain ⟨root, s₁, htransform, hlast⟩ := Outcome.andThen_eq_ok hlast
  refine ⟨beans, s, root, s₁, hfront, htransform, ?_⟩
  cases root with
  | none =>
    obtain ⟨hbeans, hstate⟩ := Prod.mk.inj hlast
    exact ⟨(Except.ok.inj hbeans).symm, hstate.symm⟩
  | some bean =>
    obtain ⟨beans₂, s₂, hdeliver, hend⟩ := Outcome.andThen_eq_ok hlast
    obtain ⟨hbeans, hstate⟩ := Prod.mk.inj hend
    rw [hstate] at hdeliver
    rw [← Except.ok.inj hbeans]
    exact hdeliver

end Transformer

/-! ## First occurrences -/

/-- A first occurrence is listed when it is handed over. -/
theorem insertDistinct_eraseDups (beans : List BeanId) (bean : BeanId) :
    Accumulator.insertDistinct beans.eraseDups bean = (beans ++ [bean]).eraseDups := by
  have hmem : (beans.eraseDups.any fun other => other == bean) = beans.contains bean := by
    rw [Bool.eq_iff_iff, List.any_beq', List.contains_iff_mem, List.contains_iff_mem,
      List.mem_eraseDups]
  unfold Accumulator.insertDistinct
  rw [eraseDups_concat, hmem]

/-- A naming that tells keys apart turns distinct keys into first occurrences of beans. -/
theorem map_distinctKeys {keys : List Key} {bean : Key → BeanId}
    (hkeys : ∀ k ∈ keys, k.zeroFree = true)
    (hbean : ∀ k ∈ keys, ∀ l ∈ keys, bean k = bean l → k = l) :
    (distinctKeys keys).map bean = (keys.map bean).eraseDups := by
  induction keys using List.reverseRecOn with
  | nil => rfl
  | append_singleton keys last ih =>
    have hold : ∀ k ∈ keys, k ∈ keys ++ [last] := fun k hk => List.mem_append_left _ hk
    have hlast : last ∈ keys ++ [last] := List.mem_append_right _ (List.mem_singleton_self last)
    have hfront := ih (fun k hk => hkeys k (hold k hk)) fun k hk l hl =>
      hbean k (hold k hk) l (hold l hl)
    have hdistinct : ∀ k ∈ distinctKeys keys, k ∈ keys ++ [last] :=
      fun k hk => hold k (mem_of_mem_distinctKeys hk)
    rw [distinctKeys_concat, map_insertDistinct (fun k hk => hkeys k (hdistinct k hk))
      (hkeys last hlast) fun k hk => hbean k (hdistinct k hk) last hlast, hfront,
      insertDistinct_eraseDups, List.map_append]
    rfl

/-! ## The invariant -/

namespace Transformer

/-- The bean of a root key. -/
def rootOf (t : Transformer α) (s : State α) (key : Key) : BeanId :=
  (s.context.cached? t.factory.kind key).getD 0

/-- What is listed after some rows, and the state that they lead to. -/
structure RootInv (t : Transformer α) (rows : List Row) (heap : Heap α) (beans : List BeanId)
    (s : State α) : Prop where
  /-- the calls of root factories are among those that led to the state -/
  traced : ∃ log, Traced heap log s ∧ t.rootCalls rows heap ⊆ log
  roots : ∀ b, b ∈ s.context.roots ↔ b ∈ beans
  /-- a bean is listed at the first call of the root factory that returns it -/
  beans_eq : beans = ((t.rootCalls rows heap).filterMap (·.bean?)).eraseDups
  /-- without key columns, every call of the root factory finds more beans than the one before -/
  sizes : t.factory.keyColumns = none →
    ((t.rootCalls rows heap).map (·.before.heap.size) ++ [s.heap.size]).Pairwise (· < ·)

namespace RootInv

variable {t : Transformer α} {rows : List Row} {heap : Heap α} {beans : List BeanId}
  {s s₁ : State α} {row : Row} {root : Option BeanId}

/-- Nothing was read yet. -/
theorem init (t : Transformer α) (heap : Heap α) : t.RootInv [] heap [] { heap := heap } where
  traced := ⟨[], .init heap, List.nil_subset _⟩
  roots _ := Iff.rfl
  beans_eq := rfl
  sizes _ := List.pairwise_singleton _ _

/-- Transforming a row marks no roots. -/
theorem roots_transform (h : t.RootInv rows heap beans s)
    (htransform : t.transform row s = (.ok root, s₁)) :
    ∀ b, b ∈ s₁.context.roots ↔ b ∈ beans := by
  have hkept := steps_roots.transform t row s
  rw [htransform] at hkept
  rw [hkept]
  exact h.roots

section Row

variable (h : t.RootInv rows heap beans s) (hlist : t.list (rows.map .ok) heap = (.ok beans, s))
  (htransform : t.transform row s = (.ok root, s₁))
include h hlist htransform

/-- One more call of the root factory is traced. -/
theorem traced_concat :
    ∃ log, Traced heap log s₁ ∧ t.rootCalls (rows ++ [row]) heap ⊆ log := by
  obtain ⟨log, htraced, hcalls⟩ := h.traced
  obtain ⟨rest, hhead⟩ := productions_head t row s
  have hnext := htraced.transform t row
  rw [htransform] at hnext
  refine ⟨_, hnext, ?_⟩
  rw [rootCalls_concat, hlist, hhead]
  refine List.append_subset.mpr ⟨fun p hp => List.mem_append_left _ (hcalls hp), fun p hp => ?_⟩
  rw [List.mem_singleton.mp hp]
  exact List.mem_append_right _ List.mem_cons_self

/-- Without key columns a row constructs its root. -/
theorem sizes_concat (hcolumns : t.factory.keyColumns = none) :
    ((t.rootCalls (rows ++ [row]) heap).map (·.before.heap.size) ++ [s₁.heap.size]).Pairwise
      (· < ·) := by
  obtain ⟨log, htraced, -⟩ := h.traced
  obtain ⟨rest, hhead⟩ := productions_head t row s
  have hnext := htraced.transform t row
  rw [htransform, hhead] at hnext
  have hconstructs : (Production.mk t.factory row s).constructs = true :=
    (Production.bean?_of_no_columns (p := ⟨t.factory, row, s⟩) hcolumns).2
  -- the root itself is one of the beans that the row constructs
  have hgrown : s.heap.size < s₁.heap.size := by
    have hbefore := htraced.size_eq
    have hafter := hnext.size_eq
    rw [List.countP_append, List.countP_cons_of_pos hconstructs] at hafter
    change s₁.heap.size = _ at hafter
    omega
  rw [rootCalls_concat, hlist, List.map_append, List.map_singleton]
  refine List.pairwise_append.mpr ⟨h.sizes hcolumns, List.pairwise_singleton _ _, ?_⟩
  intro size hsize last hlast
  rw [List.mem_singleton.mp hlast]
  rcases List.mem_append.mp hsize with hold | hnew
  · have hlt := (List.pairwise_append.mp (h.sizes hcolumns)).2.2 size hold _ List.mem_cons_self
    exact Nat.lt_trans hlt hgrown
  · rw [List.mem_singleton.mp hnew]
    exact hgrown

/-- A row without root lists nothing. -/
theorem skip (hroot : root = none) : t.RootInv (rows ++ [row]) heap beans s₁ where
  traced := h.traced_concat hlist htransform
  roots := h.roots_transform htransform
  beans_eq := by
    have hbean := (bean?_of_transform htransform).trans hroot
    rw [rootCalls_concat, hlist, List.filterMap_append, List.filterMap_cons_none hbean,
      List.filterMap_nil, List.append_nil]
    exact h.beans_eq
  sizes := h.sizes_concat hlist htransform

/-- The root of a row is listed unless it was before. -/
theorem deliver {bean : BeanId} (hroot : root = some bean) {beans' : List BeanId} {s' : State α}
    (hdeliver : Transformer.deliver lister beans bean s₁ = (.ok beans', s')) :
    t.RootInv (rows ++ [row]) heap beans' s' := by
  obtain ⟨hmark, hmarked⟩ := Plan.deliver_toList beans bean (h.roots_transform htransform)
  rw [hmark] at hdeliver
  obtain ⟨hbeans, rfl⟩ := Prod.mk.inj hdeliver
  obtain rfl := Except.ok.inj hbeans
  constructor
  · obtain ⟨log, htraced, hcalls⟩ := h.traced_concat hlist htransform
    refine ⟨log, htraced.of_sameBeans ⟨?_, rfl⟩, hcalls⟩
    unfold Context.markRoot
    split <;> rfl
  · exact hmarked
  · have hbean := (bean?_of_transform htransform).trans hroot
    rw [rootCalls_concat, hlist, List.filterMap_append, List.filterMap_cons_some hbean,
      List.filterMap_nil, ← insertDistinct_eraseDups, ← h.beans_eq]
  · have hsizes := h.sizes_concat hlist htransform
    exact hsizes

end Row

/-- All rows. -/
theorem of_list (hlist : t.list (rows.map .ok) heap = (.ok beans, s)) :
    t.RootInv rows heap beans s := by
  induction rows using List.reverseRecOn generalizing beans s with
  | nil =>
    obtain ⟨hbeans, rfl⟩ := Prod.mk.inj hlist
    obtain rfl := Except.ok.inj hbeans
    exact init t heap
  | append_singleton rows row ih =>
    obtain ⟨beans₀, s₀, root, s₁, hfront, htransform, hlast⟩ := list_concat_cases hlist
    cases root with
    | none =>
      rw [hlast.1, hlast.2]
      exact (ih hfront).skip hfront htransform rfl
    | some bean => exact (ih hfront).deliver hfront htransform rfl hlast

/-! ## What the invariant says -/

variable (h : t.RootInv rows heap beans s)
include h

theorem nodup : beans.Nodup := h.beans_eq ▸ nodup_eraseDups _

theorem mem_iff (bean : BeanId) :
    bean ∈ beans ↔ ∃ p ∈ t.rootCalls rows heap, p.bean? = some bean := by
  rw [h.beans_eq, List.mem_eraseDups, List.mem_filterMap]

/-- The bean of a root key is in the cache. -/
theorem exists_cached {p : Production α} (hp : p ∈ t.rootCalls rows heap) {key : Key}
    (hkey : t.factory.key? p.row = some key) :
    ∃ bean, p.bean? = some bean ∧ ((t.factory.kind, key), bean) ∈ s.context.cache := by
  obtain ⟨log, htraced, hcalls⟩ := h.traced
  have hidentity := p.identity?_eq
  rw [factory_of_mem_rootCalls hp, hkey] at hidentity
  exact htraced.listed p (hcalls hp) _ hidentity

theorem rootOf_eq {key : Key} {bean : BeanId}
    (hcached : ((t.factory.kind, key), bean) ∈ s.context.cache) : t.rootOf s key = bean := by
  obtain ⟨log, htraced, -⟩ := h.traced
  unfold rootOf
  rw [(Context.cached?_eq_some_iff htraced.ids_nodup).mpr hcached]
  rfl

/-- A call of a keyed root factory returns the bean of the key of its row. -/
theorem bean?_eq (hkeyed : t.factory.keyColumns.isSome = true) {p : Production α}
    (hp : p ∈ t.rootCalls rows heap) :
    p.bean? = (t.factory.key? p.row).map (t.rootOf s) := by
  have hfactory := factory_of_mem_rootCalls hp
  cases hkey : t.factory.key? p.row with
  | none =>
    have hidentity := p.identity?_eq
    rw [hfactory, hkey] at hidentity
    exact Production.bean?_of_no_identity (hfactory ▸ hkeyed) hidentity
  | some key =>
    obtain ⟨bean, hbean, hcached⟩ := h.exists_cached hp hkey
    rw [hbean, Option.map_some, h.rootOf_eq hcached]

/-- Different root keys have different beans. -/
theorem rootOf_inj {k l : Key} (hk : k ∈ rows.filterMap t.factory.key?)
    (hl : l ∈ rows.filterMap t.factory.key?) (heq : t.rootOf s k = t.rootOf s l) : k = l := by
  have hcached : ∀ key ∈ rows.filterMap t.factory.key?,
      ((t.factory.kind, key), t.rootOf s key) ∈ s.context.cache := by
    intro key hmem
    rw [← map_row_rootCalls t rows heap, List.filterMap_map] at hmem
    obtain ⟨p, hp, hkey⟩ := List.mem_filterMap.mp hmem
    obtain ⟨bean, -, hcached⟩ := h.exists_cached hp hkey
    rw [h.rootOf_eq hcached]
    exact hcached
  obtain ⟨log, htraced, -⟩ := h.traced
  have hentry := List.inj_on_of_nodup_map htraced.beans_nodup (hcached k hk) (hcached l hl) heq
  exact (Prod.mk.inj (Prod.mk.inj hentry).1).2

/-- The beans of the distinct root keys are listed. -/
theorem beans_eq_of_keyed (hkeyed : t.factory.keyColumns.isSome = true)
    (hzero : ∀ row ∈ rows, ∀ key, t.factory.key? row = some key → key.zeroFree = true) :
    beans = (distinctKeys (rows.filterMap t.factory.key?)).map (t.rootOf s) := by
  have hcalls : (t.rootCalls rows heap).filterMap (·.bean?) =
      (rows.filterMap t.factory.key?).map (t.rootOf s) := by
    rw [List.filterMap_congr fun p hp => h.bean?_eq hkeyed hp, List.map_filterMap]
    nth_rewrite 2 [← map_row_rootCalls t rows heap]
    rw [List.filterMap_map]
    rfl
  have hzero' : ∀ key ∈ rows.filterMap t.factory.key?, key.zeroFree = true := by
    intro key hmem
    obtain ⟨row, hrow, hkey⟩ := List.mem_filterMap.mp hmem
    exact hzero row hrow key hkey
  rw [h.beans_eq, hcalls, map_distinctKeys hzero' fun k hk l hl => h.rootOf_inj hk hl]

/-- Without key columns the beans constructed for the rows are listed. -/
theorem beans_eq_of_unkeyed (hcolumns : t.factory.keyColumns = none) :
    beans = (t.rootCalls rows heap).map (·.before.heap.size) := by
  have hcalls : (t.rootCalls rows heap).filterMap (·.bean?) =
      (t.rootCalls rows heap).map (·.before.heap.size) := by
    rw [← List.filterMap_eq_map]
    refine List.filterMap_congr fun p hp => ?_
    rw [← factory_of_mem_rootCalls hp] at hcolumns
    exact (Production.bean?_of_no_columns hcolumns).1
  have hnodup : ((t.rootCalls rows heap).map (·.before.heap.size)).Nodup :=
    (List.pairwise_append.mp (h.sizes hcolumns)).1.imp Nat.ne_of_lt
  rw [h.beans_eq, hcalls, eraseDups_of_nodup hnodup]

end RootInv

/-! ## What is handed over -/

/-- What the rows ahead hand over, and the state that they lead to: to fold them is to fold what is
handed over, up to the item that the accumulator refuses. -/
structure Delivers (t : Transformer α) (feed : List (Except Error Row)) (s : State α)
    (deliveries : List (Delivery α)) (s' : State α) : Prop where
  finished : ∀ {σ ω : Type} (acc : Accumulator (Delivery α) σ ω) {seed seed' : σ},
    acc.aggregateAll seed deliveries = .ok seed' →
      t.traverseFrom acc seed feed s = (acc.finish seed', s')
  refused : ∀ {σ ω : Type} (acc : Accumulator (Delivery α) σ ω) {seed : σ} {e : Error},
    acc.aggregateAll seed deliveries = .error e → (t.traverseFrom acc seed feed s).1 = .error e

/-- The lister refuses nothing. -/
theorem aggregateAll_lister (seed : List BeanId) (deliveries : List (Delivery α)) :
    (lister (α := α)).aggregateAll seed deliveries = .ok (seed ++ deliveries.map (·.bean)) := by
  induction deliveries generalizing seed with
  | nil => exact congrArg Except.ok (List.append_nil seed).symm
  | cons d rest ih =>
    rw [List.map_cons, List.append_cons]
    exact ih (seed ++ [d.bean])

namespace Delivers

variable {t : Transformer α} {feed : List (Except Error Row)} {s s' : State α}
  {deliveries : List (Delivery α)} (h : t.Delivers feed s deliveries s')
include h

theorem listed (seed : List BeanId) :
    t.traverseFrom lister seed feed s = (.ok (seed ++ deliveries.map (·.bean)), s') :=
  h.finished lister (aggregateAll_lister seed deliveries)

theorem result_eq {σ ω : Type} (acc : Accumulator (Delivery α) σ ω) (seed : σ) :
    (t.traverseFrom acc seed feed s).1 = (acc.aggregateAll seed deliveries).bind acc.finish := by
  cases hfold : acc.aggregateAll seed deliveries with
  | error e => exact h.refused acc hfold
  | ok seed' =>
    rw [h.finished acc hfold]
    rfl

/-- Nothing is handed over before. -/
theorem skip {feed' : List (Except Error Row)} {s₀ : State α}
    (hstep : ∀ {σ ω : Type} (acc : Accumulator (Delivery α) σ ω) (seed : σ),
      t.traverseFrom acc seed feed' s₀ = t.traverseFrom acc seed feed s) :
    t.Delivers feed' s₀ deliveries s' where
  finished acc _ _ hfold := by rw [hstep, h.finished acc hfold]
  refused acc _ _ hfold := by rw [hstep, h.refused acc hfold]

/-- One bean is handed over before. -/
theorem cons {feed' : List (Except Error Row)} {s₀ : State α} {d : Delivery α}
    (hstep : ∀ {σ ω : Type} (acc : Accumulator (Delivery α) σ ω) (seed : σ),
      t.traverseFrom acc seed feed' s₀ =
        Outcome.andThen (acc.aggregate seed d, s) fun seed s => t.traverseFrom acc seed feed s) :
    t.Delivers feed' s₀ (d :: deliveries) s' where
  finished acc seed seed' hfold := by
    rw [Accumulator.aggregateAll] at hfold
    rw [hstep]
    cases hone : acc.aggregate seed d with
    | error e => simp [hone] at hfold
    | ok seed₁ => exact h.finished acc (by simpa [hone] using hfold)
  refused acc seed e hfold := by
    rw [Accumulator.aggregateAll] at hfold
    rw [hstep]
    cases hone : acc.aggregate seed d with
    | error e' => simpa [hone, Outcome.andThen] using hfold
    | ok seed₁ => exact h.refused acc (by simpa [hone] using hfold)

end Delivers

/-- When the rows ahead can be read, what is handed over does not depend on the accumulator; when
they cannot, every accumulator ends with an error. -/
theorem delivers_or_fails (t : Transformer α) (feed : List (Except Error Row)) (s : State α) :
    (∃ deliveries s', t.Delivers feed s deliveries s') ∨
    ∀ {σ ω : Type} (acc : Accumulator (Delivery α) σ ω) (seed : σ) (result : ω),
      (t.traverseFrom acc seed feed s).1 ≠ .ok result := by
  induction feed generalizing s with
  | nil =>
    refine .inl ⟨[], s, fun acc _ _ hfold => ?_, fun acc _ _ hfold => by cases hfold⟩
    rw [← Except.ok.inj hfold]
    rfl
  | cons item rest ih =>
    cases item with
    | error e => exact .inr fun _ _ _ => by simp [traverseFrom]
    | ok row =>
      rcases htransform : t.transform row s with ⟨e | (_ | bean), s₁⟩
      · refine .inr fun acc seed result => ?_
        rw [traverseFrom, htransform]
        simp [Outcome.andThen]
      · have hstep : ∀ {σ ω : Type} (acc : Accumulator (Delivery α) σ ω) (seed : σ),
            t.traverseFrom acc seed (.ok row :: rest) s = t.traverseFrom acc seed rest s₁ := by
          intro σ ω acc seed
          rw [traverseFrom, htransform]
          rfl
        rcases ih s₁ with ⟨deliveries, s', h⟩ | hfail
        · exact .inl ⟨deliveries, s', h.skip hstep⟩
        · simp only [hstep]
          exact .inr hfail
      · cases hroot : s₁.context.isRoot bean with
        -- a root that was handed over before is not seen by the accumulator
        | true =>
          have hstep : ∀ {σ ω : Type} (acc : Accumulator (Delivery α) σ ω) (seed : σ),
              t.traverseFrom acc seed (.ok row :: rest) s = t.traverseFrom acc seed rest s₁ := by
            intro σ ω acc seed
            rw [traverseFrom, htransform]
            simp [Outcome.andThen, deliver, hroot]
          rcases ih s₁ with ⟨deliveries, s', h⟩ | hfail
          · exact .inl ⟨deliveries, s', h.skip hstep⟩
          · simp only [hstep]
            exact .inr hfail
        | false =>
          have hstep : ∀ {σ ω : Type} (acc : Accumulator (Delivery α) σ ω) (seed : σ),
              t.traverseFrom acc seed (.ok row :: rest) s =
                Outcome.andThen (acc.aggregate seed ⟨bean, s₁.heap⟩,
                  { s₁ with context := s₁.context.markRoot bean })
                  fun seed s => t.traverseFrom acc seed rest s := by
            intro σ ω acc seed
            rw [traverseFrom, htransform]
            simp [Outcome.andThen, deliver, hroot]
          rcases ih { s₁ with context := s₁.context.markRoot bean } with
            ⟨deliveries, s', h⟩ | hfail
          · exact .inl ⟨_, s', h.cons hstep⟩
          · refine .inr fun acc seed result => ?_
            rw [hstep]
            cases acc.aggregate seed ⟨bean, s₁.heap⟩ with
            | error e => simp [Outcome.andThen]
            | ok seed => exact hfail acc seed result

theorem traverseFrom_cases (t : Transformer α) (feed : List (Except Error Row)) (s : State α) :
    (∃ deliveries s',
      (∀ seed, t.traverseFrom lister seed feed s =
        (.ok (seed ++ deliveries.map (·.bean)), s')) ∧
      ∀ {σ ω : Type} (acc : Accumulator (Delivery α) σ ω) (seed : σ),
        (t.traverseFrom acc seed feed s).1 = (acc.aggregateAll seed deliveries).bind acc.finish) ∨
    ∀ {σ ω : Type} (acc : Accumulator (Delivery α) σ ω) (seed : σ) (result : ω),
      (t.traverseFrom acc seed feed s).1 ≠ .ok result := by
  rcases t.delivers_or_fails feed s with ⟨deliveries, s', h⟩ | hfail
  · exact .inl ⟨deliveries, s', h.listed, h.result_eq⟩
  · exact .inr hfail

/-- What a traversal of rows hands over. -/
structure HandsOver (t : Transformer α) (rows : List Row) (heap : Heap α)
    (deliveries : List (Delivery α)) : Prop where
  /-- every accumulator folds what is handed over -/
  collected : ∀ {σ ω : Type} (acc : Accumulator (Delivery α) σ ω),
    (t.traverse acc (rows.map .ok) heap).1 = acc.collect deliveries
  /-- no bean is handed over twice -/
  nodup : (deliveries.map (·.bean)).Nodup
  /-- a bean is handed over when a row reads it as its root, not when it is only related -/
  mem_iff : ∀ bean, bean ∈ deliveries.map (·.bean) ↔
    ∃ p ∈ t.rootCalls rows heap, p.bean? = some bean
  /-- with key columns: one bean for each root key, in order of first appearance -/
  keyed : t.factory.keyColumns.isSome = true →
    (∀ row ∈ rows, ∀ key, t.factory.key? row = some key → key.zeroFree = true) →
    ∃ bean : Key → BeanId,
      deliveries.map (·.bean) = (distinctKeys (rows.filterMap t.factory.key?)).map bean ∧
      ∀ p ∈ t.rootCalls rows heap, p.bean? = (t.factory.key? p.row).map bean
  /-- without key columns: the bean that each row constructs -/
  unkeyed : t.factory.keyColumns = none →
    deliveries.map (·.bean) = (t.rootCalls rows heap).map (·.before.heap.size) ∧
    ∀ p ∈ t.rootCalls rows heap, p.bean? = some p.before.heap.size ∧ p.constructs = true

/-- When all rows are read without error, each root is handed over once, to any accumulator: with
key columns there is one bean for each root key that has no null component, in order of the first
row that reads it as its root key, also when the bean was built before as a related one; without
key columns there is a new bean for each row. Beans that are only related are not handed over. -/
theorem handsOver_of_traverse {σ ω : Type} (t : Transformer α)
    (acc : Accumulator (Delivery α) σ ω) {rows : List Row} {heap : Heap α} {result : ω}
    (hread : (t.traverse acc (rows.map .ok) heap).1 = .ok result) :
    ∃ deliveries, t.HandsOver rows heap deliveries := by
  rcases t.traverseFrom_cases (rows.map .ok) { heap := heap } with
    ⟨deliveries, s', hlist, hcollect⟩ | hfail
  · have hinv : t.RootInv rows heap (deliveries.map (·.bean)) s' := .of_list (hlist [])
    refine ⟨deliveries, fun acc => ?_, hinv.nodup, hinv.mem_iff, fun hkeyed hzero => ?_,
      fun hcolumns => ?_⟩
    · unfold traverse Accumulator.collect
      rw [hcollect]
      cases acc.aggregateAll acc.supply deliveries <;> rfl
    · exact ⟨t.rootOf s', hinv.beans_eq_of_keyed hkeyed hzero, fun _ => hinv.bean?_eq hkeyed⟩
    · refine ⟨hinv.beans_eq_of_unkeyed hcolumns, fun p hp => ?_⟩
      rw [← factory_of_mem_rootCalls hp] at hcolumns
      exact Production.bean?_of_no_columns hcolumns
  · exact absurd hread (hfail acc _ result)

/-! ## Latecomers -/

/-- The friend of the first person is read as a root on the last row. -/
def latecomers : List Row :=
  [friendRow (.ofNat 1) (.ofNat 2), friendRow (.ofNat 3) .null, friendRow (.ofNat 2) (.ofNat 1)]

/-- A visit of a person, each row being one. -/
def visit : Transformer (Option BeanId) :=
  .mk ⟨1, none, fun _ => none⟩ [] [.mk 1 person (.one ⟨id, fun visitor _ => visitor⟩) .eachRow]

/-- The friend is handed over last, though built second; every row is a visit of its own. -/
theorem handsOver_of_traverse_latecomers :
    (∃ deliveries, person.HandsOver latecomers {} deliveries ∧
      ∃ bean : Key → BeanId, deliveries.map (·.bean) =
        [bean ⟨[.ofNat 1]⟩, bean ⟨[.ofNat 3]⟩, bean ⟨[.ofNat 2]⟩]) ∧
    ∃ deliveries, visit.HandsOver latecomers {} deliveries ∧
      deliveries.map (·.bean) = [0, 3, 5] := by
  constructor
  · have hread : (person.traverse lister (latecomers.map .ok) {}).1 = .ok [0, 2, 1] := rfl
    obtain ⟨deliveries, h⟩ := handsOver_of_traverse person lister hread
    have hzero : ∀ row ∈ latecomers, ∀ key, person.factory.key? row = some key →
        key.zeroFree = true := by
      intro row hrow key hkey
      have hall : (latecomers.all fun row =>
          (person.factory.key? row).all Key.zeroFree) = true := by
        decide
      have hrow' := List.all_eq_true.mp hall row hrow
      rw [hkey] at hrow'
      exact hrow'
    obtain ⟨bean, hbeans, -⟩ := h.keyed rfl hzero
    exact ⟨deliveries, h, bean, hbeans⟩
  · have hread : (visit.traverse lister (latecomers.map .ok) {}).1 = .ok [0, 3, 5] := rfl
    obtain ⟨deliveries, h⟩ := handsOver_of_traverse visit lister hread
    exact ⟨deliveries, h, (h.unkeyed rfl).1⟩

end Transformer

end SqlGraph.Graph
