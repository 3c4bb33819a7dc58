import SqlGraph.Proofs.Graph.Roots

/-!
# Folding while rows are read

A traversal folds roots while it reads rows, and the graph goes on changing under it. An accumulator
whose steps look at the handles of beans only (`Accumulator.ByHandle`) does not see that: its
traversal gives what it makes of the list of roots afterwards. In particular `Transformer.unique`
counts the roots of that list. The main statement is `traverse_eq_collect`.
-/

namespace SqlGraph

/-! ## Folds that look at handles -/

/-- Items that the steps do not tell apart are folded alike. -/
theorem Accumulator.aggregateAll_congr {ι κ σ ω : Type} (acc : Accumulator ι σ ω) {f g : κ → ι}
    (h : ∀ seed item, acc.aggregate seed (f item) = acc.aggregate seed (g item)) (seed : σ)
    (items : List κ) :
    acc.aggregateAll seed (items.map f) = acc.aggregateAll seed (items.map g) := by
  induction items generalizing seed with
  | nil => rfl
  | cons item rest ih =>
    rw [List.map_cons, List.map_cons, aggregateAll, aggregateAll, h]
    cases acc.aggregate seed (g item) with
    | error e => rfl
    | ok seed => exact ih seed

namespace Graph

variable {α σ ω : Type}

/-- The steps of an accumulator look at the handles of beans, not at their contents. -/
def ByHandle (acc : Accumulator (Delivery α) σ ω) : Prop :=
  ∀ seed (d d' : Delivery α), d.bean = d'.bean → acc.aggregate seed d = acc.aggregate seed d'

/-- An accumulator of handles looks at nothing else. -/
theorem byHandle_comap (acc : Accumulator BeanId σ ω) :
    ByHandle (acc.comap (Delivery.bean (α := α))) :=
  fun seed _ _ hbean => congrArg (acc.aggregate seed) hbean

/-- Beans handed over all at once, with the contents that they have then. -/
def Heap.deliveries (heap : Heap α) (beans : List BeanId) : List (Delivery α) :=
  beans.map fun bean => { bean, heap }

/-- What an accumulator of handles makes of beans does not depend on when they are handed over. -/
theorem ByHandle.aggregateAll_eq {acc : Accumulator (Delivery α) σ ω} (h : ByHandle acc)
    (heap : Heap α) (seed : σ) (deliveries : List (Delivery α)) :
    acc.aggregateAll seed deliveries =
      acc.aggregateAll seed (heap.deliveries (deliveries.map (·.bean))) := by
  have hsteps : ∀ seed (d : Delivery α),
      acc.aggregate seed (id d) = acc.aggregate seed { bean := d.bean, heap } :=
    fun seed d => h seed d _ rfl
  have hfold := acc.aggregateAll_congr hsteps seed deliveries
  rw [List.map_id] at hfold
  rw [hfold, Heap.deliveries, List.map_map]
  rfl

/-! ## Results read to their end -/

namespace Transformer

variable {t : Transformer α} {feed : List (Except Error Row)}

/-- A traversal that gives a result has met rows only. -/
theorem rows_of_traverseFrom {acc : Accumulator (Delivery α) σ ω} {seed : σ} {s s' : State α}
    {result : ω} (h : t.traverseFrom acc seed feed s = (.ok result, s')) :
    ∃ rows : List Row, feed = rows.map .ok := by
  induction feed generalizing seed s with
  | nil => exact ⟨[], rfl⟩
  | cons item rest ih =>
    cases item with
    | error e => exact absurd (Prod.mk.inj h).1 (by simp)
    | ok row =>
      have hrest : ∃ rows : List Row, rest = rows.map .ok := by
        obtain ⟨root, s₁, -, hnext⟩ := Outcome.andThen_eq_ok h
        cases root with
        | none => exact ih hnext
        | some bean =>
          obtain ⟨seed, s₂, -, hnext⟩ := Outcome.andThen_eq_ok hnext
          exact ih hnext
      obtain ⟨rows, rfl⟩ := hrest
      exact ⟨row :: rows, rfl⟩

variable {heap : Heap α} {beans : List BeanId} {s : State α}

/-- A result that can be listed hands the beans of the list over. -/
theorem delivers_of_list (hlist : t.list feed heap = (.ok beans, s)) :
    ∃ deliveries, t.Delivers feed { heap := heap } deliveries s ∧
      deliveries.map (·.bean) = beans := by
  rcases t.delivers_or_fails feed { heap := heap } with ⟨deliveries, s', hdelivers⟩ | hfail
  · have hlisted := (hdelivers.listed []).symm.trans hlist
    obtain ⟨hbeans, rfl⟩ := Prod.mk.inj hlisted
    exact ⟨deliveries, hdelivers, Except.ok.inj hbeans⟩
  · exact absurd (congrArg Prod.fst hlist) (hfail lister _ beans)

/-- Folding roots while they are read is folding the list of them afterwards. -/
theorem traverse_of_list (hlist : t.list feed heap = (.ok beans, s))
    {acc : Accumulator (Delivery α) σ ω} (hacc : ByHandle acc) :
    (t.traverse acc feed heap).1 = acc.collect (s.heap.deliveries beans) ∧
      ((acc.aggregateAll acc.supply (s.heap.deliveries beans)).isOk = true →
        (t.traverse acc feed heap).2 = s) := by
  obtain ⟨deliveries, hdelivers, rfl⟩ := delivers_of_list hlist
  unfold traverse Accumulator.collect
  rw [← hacc.aggregateAll_eq s.heap acc.supply deliveries]
  cases hfold : acc.aggregateAll acc.supply deliveries with
  | error e => exact ⟨hdelivers.refused acc hfold, fun hok => by cases hok⟩
  | ok seed =>
    rw [hdelivers.finished acc hfold]
    exact ⟨rfl, fun _ => rfl⟩

/-- When a result is read to its end without error, folding its roots while they are read gives what
folding the list of them gives, a success or an error alike, and the beans that it leaves are those
of the list unless a root is refused. So the only root is given back when there is one, none when
there is none, and an error when there are more: the list has each root that rows read once. -/
theorem traverse_eq_collect (hlist : t.list feed heap = (.ok beans, s)) :
    (∀ {σ ω : Type} (acc : Accumulator (Delivery α) σ ω), ByHandle acc →
      (t.traverse acc feed heap).1 = acc.collect (s.heap.deliveries beans) ∧
        ((acc.aggregateAll acc.supply (s.heap.deliveries beans)).isOk = true →
          (t.traverse acc feed heap).2 = s)) ∧
    (t.unique feed heap).1 =
      (match beans with
        | [] => .ok none
        | [bean] => .ok (some bean)
        | _ :: _ :: _ => .error .nonUniqueResult) ∧
    ∃ rows : List Row, feed = rows.map .ok ∧
      beans = ((t.rootCalls rows heap).filterMap (·.bean?)).eraseDups := by
  refine ⟨fun acc hacc => traverse_of_list hlist hacc, ?_, ?_⟩
  · have hunique := (traverse_of_list hlist
      (byHandle_comap (Accumulator.uniqueNonNull fun _ => false))).1
    unfold unique
    rw [hunique]
    rcases beans with _ | ⟨bean, _ | ⟨other, rest⟩⟩ <;> rfl
  · obtain ⟨rows, rfl⟩ := rows_of_traverseFrom hlist
    exact ⟨rows, rfl, (RootInv.of_list hlist).beans_eq⟩

/-- Three persons are too many to be unique; one person is unique, on two rows with another friend
each and a row with none. -/
theorem traverse_eq_collect_latecomers :
    (person.list (latecomers.map .ok) {}).1 = .ok [0, 2, 1] ∧
      (person.unique (latecomers.map .ok) {}).1 = .error .nonUniqueResult ∧
      (let rows := [friendRow (.ofNat 1) (.ofNat 2), friendRow .null (.ofNat 1),
        friendRow (.ofNat 1) (.ofNat 3)]
      (person.unique (rows.map .ok) {}).1 = .ok (some 0) ∧
        (person.traverse lister (rows.map .ok) {}).2.heap.content? 0 = some (some 2)) := by
  have hmany : person.list (latecomers.map .ok) {} =
      (.ok [0, 2, 1], (person.list (latecomers.map .ok) {}).2) := rfl
  refine ⟨rfl, (traverse_eq_collect hmany).2.1, ?_⟩
  intro rows
  have hone : person.list (rows.map .ok) {} = (.ok [0], (person.list (rows.map .ok) {}).2) := rfl
  exact ⟨(traverse_eq_collect hone).2.1, rfl⟩

end Transformer

end Graph

end SqlGraph
