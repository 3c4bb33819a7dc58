import SqlGraph.Graph.Traversal
import SqlGraph.Proofs.Graph.Productions

/-!
# Events

What happens to the beans while rows are transformed, as a list: beans constructed by factories,
beans filled by columns, relations assembled with a related bean, and fixers applied.

* `Transformer.events` lists the events of a row: it follows `transform` step by step, through the
  states that `transform` goes through; `eventsEach` and `Transformer.eventsOf` list those of many
  rows in one context, transformed one after the other or traversed;
* `Steps` packages the induction over transformers once: what holds of every step and of steps
  that follow each other holds of a row, of rows and of a traversal;
* `steps_replay`: the events are all that happens, as replaying them gives the beans.
-/

namespace SqlGraph.Graph

variable {α : Type}

/-! ## Events -/

/-- A relation with a related bean for an owner. -/
structure Assembly (α : Type) where
  relation : RelationId
  policy : Policy
  fixer : Fixer α
  owner : BeanId
  related : BeanId

/-- What a step does. -/
inductive Event (α : Type) where
  /-- a factory constructs a bean -/
  | constructed (kind : BeanKind) (content : α)
  /-- a column fills a bean -/
  | filled (bean : BeanId) (content : α)
  /-- a relation is assembled -/
  | assembled (assembly : Assembly α)
  /-- the fixer of a relation is applied -/
  | fixed (assembly : Assembly α)

namespace Event

/-- The beans after an event. -/
def replay (heap : Heap α) : Event α → Heap α
  | .constructed kind content => (heap.construct kind content).2
  | .filled bean content => heap.modify bean fun _ => content
  | .assembled _ => heap
  | .fixed a => a.fixer.fix a.owner a.related heap

/-- The beans after events. -/
def replayAll (heap : Heap α) (log : List (Event α)) : Heap α := log.foldl replay heap

/-- The relations assembled, in order. -/
def assemblies (log : List (Event α)) : List (Assembly α) :=
  log.filterMap fun
    | .assembled a => some a
    | _ => none

/-- The assemblies whose fixer was applied, in order. -/
def fixes (log : List (Event α)) : List (Assembly α) :=
  log.filterMap fun
    | .fixed a => some a
    | _ => none

variable (log log' : List (Event α))

theorem replayAll_append (heap : Heap α) :
    replayAll heap (log ++ log') = replayAll (replayAll heap log) log' := List.foldl_append

theorem assemblies_append : assemblies (log ++ log') = assemblies log ++ assemblies log' :=
  List.filterMap_append

theorem fixes_append : fixes (log ++ log') = fixes log ++ fixes log' := List.filterMap_append

end Event

/-! ## The events of steps -/

/-- The events after a step, unless it failed. -/
def Outcome.thenEvents {β : Type} (o : Outcome α β) (next : β → State α → List (Event α)) :
    List (Event α) :=
  match o with
  | (.error _, _) => []
  | (.ok b, s) => next b s

/-- A call of a factory constructs a bean or none. -/
def Production.events (p : Production α) : List (Event α) :=
  if p.constructs then
    [.constructed p.factory.kind (p.factory.construct (p.key?.getD ⟨[]⟩))]
  else []

/-- A column fills a bean, if it can be read. -/
def ColumnReader.events (c : ColumnReader α) (bean : BeanId) (row : Row) (s : State α) :
    List (Event α) :=
  match row c.label with
  | .error _ => []
  | .ok v =>
    match s.heap.content? bean with
    | none => []
    | some content =>
      match c.consume v content with
      | .error _ => []
      | .ok content => [.filled bean content]

/-- Columns fill a bean in order. -/
def fillEvents (bean : BeanId) (row : Row) : List (ColumnReader α) → State α → List (Event α)
  | [], _ => []
  | c :: rest, s =>
    c.events bean row s ++ (c.fill bean row s).thenEvents fun _ s => fillEvents bean row rest s

/-- A relation is assembled, and fixed as its policy says. -/
def Assembly.events (a : Assembly α) (s : State α) : List (Event α) :=
  .assembled a ::
    match a.policy with
    | .eachRow => [.fixed a]
    | .oncePerBean => if s.context.isTreated a.owner a.relation then [] else [.fixed a]

/-- Wires the related bean of an assembly into its owner. -/
def Assembly.apply (a : Assembly α) (s : State α) : State α :=
  applyFixer a.relation a.fixer a.policy a.owner a.related s

mutual

/-- The events while a row is transformed, in order. -/
def Transformer.events : Transformer α → Row → State α → List (Event α)
  | .mk factory columns relations, row, s =>
    (Production.mk factory row s).events ++
      (factory.produce row s).thenEvents fun produced s =>
        match produced with
        | none => []
        | some (bean, _) =>
          fillEvents bean row columns s ++
            (fillAll bean row columns s).thenEvents fun _ s => eventsAll relations bean row s

/-- The events while a relation is assembled. -/
def Relation.events : Relation α → BeanId → Row → State α → List (Event α)
  | .mk id target fixer policy, owner, row, s =>
    target.events row s ++
      (target.transform row s).thenEvents fun related s =>
        match related with
        | none => []
        | some related => (Assembly.mk id policy fixer owner related).events s

/-- The events while relations are assembled in order. -/
def eventsAll : List (Relation α) → BeanId → Row → State α → List (Event α)
  | [], _, _, _ => []
  | r :: rest, owner, row, s =>
    r.events owner row s ++
      (r.assemble owner row s).thenEvents fun _ s => eventsAll rest owner row s

end

/-- The events while rows are transformed one after the other. -/
def eventsEach : List (Transformer α × Row) → State α → List (Event α)
  | [], _ => []
  | (t, row) :: rest, s => t.events row s ++ eventsEach rest (t.transform row s).2

namespace Transformer

variable {σ ω : Type}

/-- The events while the rows ahead are traversed. -/
def eventsFrom (t : Transformer α) (acc : Accumulator (Delivery α) σ ω) (seed : σ) :
    List (Except Error Row) → State α → List (Event α)
  | [], _ => []
  | .error _ :: _, _ => []
  | .ok row :: rest, s =>
    t.events row s ++
      (t.transform row s).thenEvents fun root s =>
        match root with
        | none => eventsFrom t acc seed rest s
        | some bean =>
          (deliver acc seed bean s).thenEvents fun seed s => eventsFrom t acc seed rest s

/-- The events of a traversal. -/
def eventsOf (t : Transformer α) (acc : Accumulator (Delivery α) σ ω)
    (feed : List (Except Error Row)) (heap : Heap α) : List (Event α) :=
  t.eventsFrom acc acc.supply feed { heap := heap }

end Transformer

/-! ## What steps do -/

/-- A call of a factory changes nothing, or constructs one bean and leaves the marks. -/
theorem Production.after_cases (p : Production α) :
    p.after = p.before ∧ p.events = [] ∨
    ∃ content, p.after.heap = (p.before.heap.construct p.factory.kind content).2 ∧
      p.events = [.constructed p.factory.kind content] ∧
      p.after.context.treated = p.before.context.treated ∧
      p.after.context.roots = p.before.context.roots := by
  have hafter : p.after = p.before ∨
      p.after.heap = (p.before.heap.construct p.factory.kind
        (p.factory.construct (p.key?.getD ⟨[]⟩))).2 ∧
      p.after.context.treated = p.before.context.treated ∧
      p.after.context.roots = p.before.context.roots := by
    unfold after outcome Factory.produce key?
    cases p.factory.keyColumns with
    | none => exact .inr ⟨rfl, rfl, rfl⟩
    | some labels =>
      cases hvalues : readAll p.row labels with
      | error e => exact .inl (by simp only [hvalues])
      | ok values =>
        cases hnull : (Key.mk values).isNull with
        | true => exact .inl (by simp only [hvalues, hnull, if_true])
        | false =>
          simp only [hvalues, hnull, if_false, Bool.false_eq_true]
          cases p.before.context.cached? p.factory.kind ⟨values⟩ with
          | some bean => exact .inl rfl
          | none => exact .inr ⟨rfl, rfl, rfl⟩
  unfold events constructs
  rcases hafter with hsame | ⟨hheap, hmarks⟩
  · rw [hsame, if_neg (by simp)]
    exact .inl ⟨rfl, rfl⟩
  · rw [hheap, Heap.size_construct, if_pos (by simp)]
    exact .inr ⟨_, rfl, rfl, hmarks⟩

/-- A column changes nothing, or the content of one bean. -/
theorem ColumnReader.fill_cases (c : ColumnReader α) (bean : BeanId) (row : Row) (s : State α) :
    (c.fill bean row s).2 = s ∧ c.events bean row s = [] ∨
    ∃ content, (c.fill bean row s).2 = { s with heap := s.heap.modify bean fun _ => content } ∧
      c.events bean row s = [.filled bean content] := by
  unfold fill events
  cases row c.label with
  | error e => exact .inl ⟨rfl, rfl⟩
  | ok v =>
    cases s.heap.content? bean with
    | none => exact .inl ⟨rfl, rfl⟩
    | some content =>
      simp only
      cases c.consume v content with
      | error e => exact .inl ⟨rfl, rfl⟩
      | ok content => exact .inr ⟨content, rfl, rfl⟩

/-- What is treated after one more pair is. -/
theorem Context.isTreated_treat (c : Context) (bean : BeanId) (relation : RelationId)
    (owner : BeanId) (other : RelationId) :
    (c.treat bean relation).isTreated owner other =
      (c.isTreated owner other || (relation == other && bean == owner)) := by
  unfold treat
  cases hold : c.isTreated bean relation with
  | true =>
    -- the pair is among those treated already
    rw [if_pos rfl, Bool.eq_iff_iff, Bool.or_eq_true, Bool.and_eq_true, beq_iff_eq, beq_iff_eq]
    refine ⟨.inl, ?_⟩
    rintro (h | ⟨rfl, rfl⟩)
    · exact h
    · exact hold
  | false =>
    have hpair : ((owner, other) == (bean, relation)) = (relation == other && bean == owner) := by
      rw [Bool.eq_iff_iff, beq_iff_eq, Prod.mk.injEq, Bool.and_eq_true, beq_iff_eq, beq_iff_eq]
      constructor
      · rintro ⟨rfl, rfl⟩
        exact ⟨rfl, rfl⟩
      · rintro ⟨rfl, rfl⟩
        exact ⟨rfl, rfl⟩
    rw [if_neg Bool.false_ne_true]
    unfold isTreated
    rw [List.contains_cons, hpair, Bool.or_comm]

/-- An assembly applies its fixer, or was treated before and changes nothing. -/
theorem Assembly.apply_cases (a : Assembly α) (s : State α) :
    a.policy = .oncePerBean ∧ s.context.isTreated a.owner a.relation = true ∧ a.apply s = s ∧
      a.events s = [.assembled a] ∨
    a.policy = .oncePerBean ∧ s.context.isTreated a.owner a.relation = false ∧
      a.apply s = ⟨a.fixer.fix a.owner a.related s.heap, s.context.treat a.owner a.relation⟩ ∧
      a.events s = [.assembled a, .fixed a] ∨
    a.policy = .eachRow ∧
      a.apply s = { s with heap := a.fixer.fix a.owner a.related s.heap } ∧
      a.events s = [.assembled a, .fixed a] := by
  unfold apply events applyFixer
  cases a.policy with
  | eachRow => exact .inr (.inr ⟨rfl, rfl, rfl⟩)
  | oncePerBean =>
    cases htreated : s.context.isTreated a.owner a.relation with
    | true => exact .inl ⟨rfl, rfl, by simp only [if_true], by simp only [if_true]⟩
    | false => exact .inr (.inl ⟨rfl, rfl, by simp, by simp⟩)

/-! ## From steps to runs -/

/-- What is said of a state, the events after it and the state that they lead to, when it holds of
each step and of steps that follow each other. -/
structure Steps (R : State α → List (Event α) → State α → Prop) : Prop where
  refl : ∀ s, R s [] s
  trans : ∀ {s s' s'' log log'}, R s log s' → R s' log' s'' → R s (log ++ log') s''
  produce : ∀ p : Production α, R p.before p.events p.after
  fill : ∀ (c : ColumnReader α) bean row s, R s (c.events bean row s) (c.fill bean row s).2
  fix : ∀ (a : Assembly α) s, R s (a.events s) (a.apply s)

namespace Steps

variable {R : State α → List (Event α) → State α → Prop} (h : Steps R)
include h

/-- A step and what follows it. -/
theorem andThen {β γ : Type} {s : State α} {log : List (Event α)} {o : Outcome α β}
    {next : β → State α → Outcome α γ} {events : β → State α → List (Event α)}
    (hstep : R s log o.2) (hnext : ∀ b s', R s' (events b s') (next b s').2) :
    R s (log ++ o.thenEvents events) (o.andThen next).2 := by
  obtain ⟨e | b, s'⟩ := o
  · rw [Outcome.thenEvents, List.append_nil]
    exact hstep
  · exact h.trans hstep (hnext b s')

theorem fillAll (bean : BeanId) (row : Row) (columns : List (ColumnReader α)) (s : State α) :
    R s (fillEvents bean row columns s) (Graph.fillAll bean row columns s).2 := by
  induction columns generalizing s with
  | nil => exact h.refl s
  | cons c rest ih => exact h.andThen (h.fill c bean row s) fun _ s' => ih s'

mutual

/-- A row. -/
theorem transform (t : Transformer α) (row : Row) (s : State α) :
    R s (t.events row s) (t.transform row s).2 := by
  cases t with
  | mk factory columns relations =>
    unfold Transformer.events Transformer.transform
    refine h.andThen (h.produce ⟨factory, row, s⟩) fun produced s₁ => ?_
    cases produced with
    | none => exact h.refl s₁
    | some made =>
      refine h.andThen (h.fillAll made.1 row columns s₁) fun _ s₂ => ?_
      have hassembled := assembleAll relations made.1 row s₂
      -- the relations are the last to act: the bean is returned without further events
      have hnothing : (Graph.assembleAll relations made.1 row s₂).thenEvents (fun _ _ => []) =
          ([] : List (Event α)) := by
        unfold Outcome.thenEvents
        split <;> rfl
      rw [← List.append_nil (eventsAll relations made.1 row s₂), ← hnothing]
      exact h.andThen hassembled fun _ s₃ => h.refl s₃

/-- A relation. -/
theorem assemble (r : Relation α) (owner : BeanId) (row : Row) (s : State α) :
    R s (r.events owner row s) (r.assemble owner row s).2 := by
  cases r with
  | mk id target fixer policy =>
    unfold Relation.events Relation.assemble
    refine h.andThen (transform target row s) fun related s₁ => ?_
    cases related with
    | none => exact h.refl s₁
    | some related => exact h.fix ⟨id, policy, fixer, owner, related⟩ s₁

/-- Relations in order. -/
theorem assembleAll (relations : List (Relation α)) (owner : BeanId) (row : Row) (s : State α) :
    R s (eventsAll relations owner row s) (Graph.assembleAll relations owner row s).2 := by
  cases relations with
  | nil => exact h.refl s
  | cons r rest =>
    unfold eventsAll Graph.assembleAll
    exact h.andThen (assemble r owner row s) fun _ s₁ => assembleAll rest owner row s₁

end

/-- Rows one after the other. -/
theorem transformEach (calls : List (Transformer α × Row)) (s : State α) :
    R s (eventsEach calls s) (Graph.transformEach calls s) := by
  induction calls generalizing s with
  | nil => exact h.refl s
  | cons call rest ih => exact h.trans (h.transform call.1 call.2 s) (ih _)

section Traverse

variable {σ ω : Type} (t : Transformer α) (acc : Accumulator (Delivery α) σ ω)
  (hmark : ∀ (s : State α) bean, R s [] { s with context := s.context.markRoot bean })
include hmark

theorem deliver (seed : σ) (bean : BeanId) (s : State α) :
    R s [] (Transformer.deliver acc seed bean s).2 := by
  unfold Transformer.deliver
  split
  · exact h.refl s
  · exact hmark s bean

/-- A traversal, also one that fails midway. -/
theorem traverseFrom (seed : σ) (feed : List (Except Error Row)) (s : State α) :
    R s (t.eventsFrom acc seed feed s) (t.traverseFrom acc seed feed s).2 := by
  induction feed generalizing seed s with
  | nil => exact h.refl s
  | cons item rest ih =>
    cases item with
    | error e => exact h.refl s
    | ok row =>
      unfold Transformer.eventsFrom Transformer.traverseFrom
      refine h.andThen (h.transform t row s) fun root s₁ => ?_
      cases root with
      | none => exact ih seed s₁
      | some bean => exact h.andThen (h.deliver acc hmark seed bean s₁) fun seed s₂ => ih seed s₂

end Traverse

end Steps

/-- Replaying the events gives the beans: nothing else happens to them. -/
theorem steps_replay :
    Steps fun (s : State α) log s' => s'.heap = Event.replayAll s.heap log where
  refl _ := rfl
  trans hlog hlog' := by rw [Event.replayAll_append, ← hlog, hlog']
  produce p := by
    rcases p.after_cases with ⟨hafter, hevents⟩ | ⟨content, hheap, hevents, -, -⟩
    · rw [hafter, hevents]
      rfl
    · rw [hheap, hevents]
      rfl
  fill c bean row s := by
    rcases c.fill_cases bean row s with ⟨hstate, hevents⟩ | ⟨content, hstate, hevents⟩ <;>
      rw [hstate, hevents] <;> rfl
  fix a s := by
    rcases a.apply_cases s with ⟨-, -, hstate, hevents⟩ | ⟨-, -, hstate, hevents⟩ |
      ⟨-, hstate, hevents⟩ <;> rw [hstate, hevents] <;> rfl

/-- Steps mark no roots. -/
theorem steps_roots : Steps fun (s : State α) _ s' => s'.context.roots = s.context.roots where
  refl _ := rfl
  trans h h' := h'.trans h
  produce p := by
    rcases p.after_cases with ⟨hafter, -⟩ | ⟨_, -, -, -, hroots⟩
    · rw [hafter]
    · exact hroots
  fill c bean row s := by
    rcases c.fill_cases bean row s with ⟨hstate, -⟩ | ⟨content, hstate, -⟩ <;> rw [hstate]
  fix a s := by
    rcases a.apply_cases s with ⟨-, -, hstate, -⟩ | ⟨-, hnew, hstate, -⟩ | ⟨-, hstate, -⟩
    · rw [hstate]
    · rw [hstate, Context.treat, hnew]
      rfl
    · rw [hstate]

end SqlGraph.Graph
