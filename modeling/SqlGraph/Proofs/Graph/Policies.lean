import SqlGraph.Proofs.Graph.Events
import SqlGraph.Proofs.Graph.Identity

/-!
# Assembly policies

A relation assembled on each row applies its fixer at every assembly; one assembled once per bean
applies it at the first assembly of each owner and at no other. `Marked` says so of any run in terms
of the marks that the context had before it, which is what makes runs compose; from an empty context
it is `Policed`.

The main statement is `fixes_policed`.
-/

namespace SqlGraph.Graph

variable {α : Type}

/-- Whether an assembly is one of a relation that is fixed once for an owner. -/
def Assembly.isOnce (relation : RelationId) (owner : BeanId) (a : Assembly α) : Bool :=
  decide (a.policy = .oncePerBean) && a.relation == relation && a.owner == owner

/-- Whether an assembly is one of a relation that is fixed on each row. -/
def Assembly.isEach (a : Assembly α) : Bool := decide (a.policy = .eachRow)

/-- Fixers are applied as the policies say. -/
structure Event.Policed (log : List (Event α)) : Prop where
  /-- on each row: at every assembly -/
  eachRow : (fixes log).filter Assembly.isEach = (assemblies log).filter Assembly.isEach
  /-- once per bean: at the first assembly of each owner, if there is one -/
  oncePerBean : ∀ relation owner, (fixes log).filter (Assembly.isOnce relation owner) =
    ((assemblies log).filter (Assembly.isOnce relation owner)).take 1

/-- What a run does after some owners were treated: these are left alone, the others are fixed at
their first assembly and treated from then on. -/
structure Marked (s : State α) (log : List (Event α)) (s' : State α) : Prop where
  eachRow : (Event.fixes log).filter Assembly.isEach =
    (Event.assemblies log).filter Assembly.isEach
  oncePerBean : ∀ relation owner, (Event.fixes log).filter (Assembly.isOnce relation owner) =
    if s.context.isTreated owner relation then []
    else ((Event.assemblies log).filter (Assembly.isOnce relation owner)).take 1
  treated : ∀ relation owner, s'.context.isTreated owner relation =
    (s.context.isTreated owner relation ||
      !((Event.assemblies log).filter (Assembly.isOnce relation owner)).isEmpty)

namespace Marked

variable {s s' s'' : State α} {log log' : List (Event α)}

/-- Nothing is assembled. -/
theorem of_treated_eq (htreated : s'.context.treated = s.context.treated)
    (hassemblies : Event.assemblies log = []) (hfixes : Event.fixes log = []) :
    Marked s log s' := by
  have hsame : ∀ relation owner,
      s'.context.isTreated owner relation = s.context.isTreated owner relation := by
    intro relation owner
    unfold Context.isTreated
    rw [htreated]
  constructor
  · rw [hassemblies, hfixes]
  · intro relation owner
    rw [hassemblies, hfixes]
    split <;> rfl
  · intro relation owner
    rw [hassemblies, hsame]
    exact (Bool.or_false _).symm

/-- A run goes on with the marks that the one before it left. -/
theorem trans (h : Marked s log s') (h' : Marked s' log' s'') : Marked s (log ++ log') s'' := by
  constructor
  · rw [Event.fixes_append, Event.assemblies_append, List.filter_append, List.filter_append,
      h.eachRow, h'.eachRow]
  · intro relation owner
    have hfixes := h.oncePerBean relation owner
    have hfixes' := h'.oncePerBean relation owner
    rw [h.treated relation owner] at hfixes'
    rw [Event.fixes_append, Event.assemblies_append, List.filter_append, List.filter_append,
      hfixes, hfixes']
    cases hbefore : s.context.isTreated owner relation with
    | true => simp
    | false =>
      -- the first assembly is in the first run, or the owner is as new to the second
      cases hfirst : (Event.assemblies log).filter (Assembly.isOnce relation owner) with
      | nil => simp
      | cons a rest => simp
  · intro relation owner
    rw [h'.treated, h.treated, Event.assemblies_append, List.filter_append, Bool.or_assoc]
    cases (Event.assemblies log).filter (Assembly.isOnce relation owner) with
    | nil => rfl
    | cons a rest => rfl

end Marked

/-- An assembly is marked when it fixes its owner once. -/
theorem Assembly.marked (a : Assembly α) (s : State α) : Marked s (a.events s) (a.apply s) := by
  rcases a.apply_cases s with ⟨hpolicy, hold, hstate, hevents⟩ | ⟨hpolicy, hnew, hstate, hevents⟩ |
    ⟨hpolicy, hstate, hevents⟩
  · -- treated before: the owner is left alone
    have hassemblies : Event.assemblies (a.events s) = [a] := by rw [hevents]; rfl
    have hfixes : Event.fixes (a.events s) = [] := by rw [hevents]; rfl
    have honce : ∀ relation owner, a.isOnce relation owner = true →
        s.context.isTreated owner relation = true := by
      intro relation owner hself
      have hid : (a.policy = .oncePerBean ∧ a.relation = relation) ∧ a.owner = owner := by
        simpa [isOnce] using hself
      rw [← hid.1.2, ← hid.2]
      exact hold
    constructor
    · rw [hassemblies, hfixes]
      simp [isEach, hpolicy]
    · intro relation owner
      rw [hassemblies, hfixes]
      cases hself : a.isOnce relation owner with
      | true => rw [honce relation owner hself]; rfl
      | false => simp [hself]
    · intro relation owner
      rw [hassemblies, hstate]
      cases hself : a.isOnce relation owner with
      | true => rw [honce relation owner hself]; rfl
      | false => simp [hself]
  · -- new: the owner is fixed, and treated from now on
    have hassemblies : Event.assemblies (a.events s) = [a] := by rw [hevents]; rfl
    have hfixes : Event.fixes (a.events s) = [a] := by rw [hevents]; rfl
    have hself : ∀ relation owner,
        a.isOnce relation owner = (a.relation == relation && a.owner == owner) := by
      intro relation owner
      unfold isOnce
      rw [hpolicy]
      rfl
    constructor
    · rw [hassemblies, hfixes]
    · intro relation owner
      rw [hassemblies, hfixes]
      cases honce : a.isOnce relation owner with
      | true =>
        have hid : a.relation = relation ∧ a.owner = owner := by simpa [hself] using honce
        have hleft : s.context.isTreated owner relation = false := by rw [← hid.1, ← hid.2, hnew]
        simp [honce, hleft]
      | false => simp [honce]
    · intro relation owner
      rw [hassemblies, hstate, Context.isTreated_treat, ← hself]
      cases honce : a.isOnce relation owner with
      | true => simp [honce]
      | false => simp [honce]
  · -- fixed on each row, and no owner is treated
    have hassemblies : Event.assemblies (a.events s) = [a] := by rw [hevents]; rfl
    have hfixes : Event.fixes (a.events s) = [a] := by rw [hevents]; rfl
    have hnone : ∀ relation owner, a.isOnce relation owner = false := by
      intro relation owner
      simp [isOnce, hpolicy]
    constructor
    · rw [hassemblies, hfixes]
    · intro relation owner
      rw [hassemblies, hfixes]
      simp [hnone]
    · intro relation owner
      rw [hassemblies, hstate]
      simp [hnone]

/-- Runs leave the marks of their assemblies. -/
theorem steps_marked : Steps (Marked (α := α)) where
  refl _ := .of_treated_eq rfl rfl rfl
  trans h h' := h.trans h'
  produce p := by
    rcases p.after_cases with ⟨hafter, hevents⟩ | ⟨content, -, hevents, htreated, -⟩
    · rw [hafter, hevents]
      exact .of_treated_eq rfl rfl rfl
    · rw [hevents]
      exact .of_treated_eq htreated rfl rfl
  fill c bean row s := by
    rcases c.fill_cases bean row s with ⟨hstate, hevents⟩ | ⟨content, hstate, hevents⟩ <;>
      rw [hstate, hevents] <;> exact .of_treated_eq rfl rfl rfl
  fix a s := a.marked s

/-- A run from an empty context follows the policies. -/
theorem Marked.policed {heap : Heap α} {log : List (Event α)} {s' : State α}
    (h : Marked { heap := heap } log s') : Event.Policed log where
  eachRow := h.eachRow
  oncePerBean relation owner := h.oncePerBean relation owner

/-- A traversal follows the policies, whatever beans were there before. -/
theorem policed_eventsOf {σ ω : Type} (t : Transformer α) (acc : Accumulator (Delivery α) σ ω)
    (feed : List (Except Error Row)) (heap : Heap α) :
    Event.Policed (t.eventsOf acc feed heap) := by
  have hmark : ∀ (s : State α) bean,
      Marked s [] { s with context := s.context.markRoot bean } := by
    intro s bean
    refine .of_treated_eq ?_ rfl rfl
    unfold Context.markRoot
    split <;> rfl
  exact (steps_marked.traverseFrom t acc hmark acc.supply feed { heap := heap }).policed

/-- The events of a run in one context give its beans when they are replayed, and among them fixers
are applied as the policies say: on each row at every assembly with a related bean, once per bean at
the first such assembly of the relation for the owner, and never otherwise. The run is a traversal
with any accumulator, also one that fails midway, or rows transformed one after the other by any
transformers. -/
theorem fixes_policed (heap : Heap α) :
    (∀ {σ ω : Type} (t : Transformer α) (acc : Accumulator (Delivery α) σ ω)
      (feed : List (Except Error Row)),
      (t.traverse acc feed heap).2.heap = Event.replayAll heap (t.eventsOf acc feed heap) ∧
      Event.Policed (t.eventsOf acc feed heap)) ∧
    (∀ calls : List (Transformer α × Row),
      (transformEach calls { heap := heap }).heap =
        Event.replayAll heap (eventsEach calls { heap := heap }) ∧
      Event.Policed (eventsEach calls { heap := heap })) := by
  refine ⟨fun t acc feed => ⟨?_, ?_⟩, fun calls => ⟨?_, ?_⟩⟩
  · exact steps_replay.traverseFrom t acc (fun _ _ => rfl) acc.supply feed { heap := heap }
  · exact policed_eventsOf t acc feed heap
  · exact steps_replay.transformEach calls { heap := heap }
  · exact (steps_marked.transformEach calls { heap := heap }).policed

/-- A person who keeps the first friend. -/
def loyal : Transformer (Option BeanId) :=
  .mk person.factory []
    [.mk 0 (.mk ⟨0, some ["friend"], fun _ => none⟩ [] []) (.one ⟨id, fun friend _ => friend⟩)
      .oncePerBean]

/-- A row without friend does not count as the first. -/
example :
    let log := eventsEach [(loyal, friendRow (.ofNat 1) .null),
      (loyal, friendRow (.ofNat 1) (.ofNat 2)), (loyal, friendRow (.ofNat 1) (.ofNat 3))] {}
    (Event.assemblies log).map (·.related) = [1, 2] ∧
      (Event.fixes log).map (·.related) = [1] := by decide

end SqlGraph.Graph
