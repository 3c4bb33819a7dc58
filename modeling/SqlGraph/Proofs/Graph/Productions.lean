import SqlGraph.Proofs.Graph.Beans

/-!
# Productions

While a row is transformed, a factory is called at every position of the transformer that is
reached, those of relations included. A `Production` is one such call.

* `Transformer.productions` lists the calls of a row: it follows `transform` step by step, through
  the states that `transform` goes through;
* `productionsEach` lists those of many rows, transformed one after the other in one context by
  `transformEach`;
* `Production.effect` says everything that a call can do.
-/

namespace SqlGraph.Graph

variable {α : Type}

/-! ## Calls of factories -/

/-- A call of a factory: the row that it reads, and the state that it finds. -/
structure Production (α : Type) where
  factory : Factory α
  row : Row
  before : State α

namespace Production

/-- What the call gives, and the state that it leaves. -/
def outcome (p : Production α) : Outcome α (Option (BeanId × Bool)) :=
  p.factory.produce p.row p.before

/-- The state that the call leaves. -/
def after (p : Production α) : State α := p.outcome.2

/-- The bean that the call returns. -/
def bean? (p : Production α) : Option BeanId :=
  match p.outcome.1 with
  | .ok made => made.map (·.1)
  | .error _ => none

/-- Whether the call constructs a bean. -/
def constructs (p : Production α) : Bool := p.before.heap.size < p.after.heap.size

/-- The key that a keyed factory reads. -/
def key? (p : Production α) : Option Key :=
  match p.factory.keyColumns with
  | none => none
  | some labels =>
    match readAll p.row labels with
    | .ok values => some ⟨values⟩
    | .error _ => none

/-- The kind and key of the bean that is asked for; a key with a null component asks for none. -/
def identity? (p : Production α) : Option (BeanKind × Key) :=
  (p.key?.filter fun key => !key.isNull).map fun key => (p.factory.kind, key)

end Production

mutual

/-- The calls of factories while a row is transformed, in order. -/
def Transformer.productions : Transformer α → Row → State α → List (Production α)
  | .mk factory columns relations, row, s =>
    { factory, row, before := s } ::
      match factory.produce row s with
      | (.ok (some (bean, _)), s) =>
        match fillAll bean row columns s with
        | (.ok _, s) => productionsAll relations bean row s
        | (.error _, _) => []
      | _ => []

/-- The calls of factories while a relation is assembled. -/
def Relation.productions : Relation α → Row → State α → List (Production α)
  | .mk _ target _ _, row, s => target.productions row s

/-- The calls of factories while relations are assembled in order. -/
def productionsAll : List (Relation α) → BeanId → Row → State α → List (Production α)
  | [], _, _, _ => []
  | r :: rest, owner, row, s =>
    r.productions row s ++
      match r.assemble owner row s with
      | (.ok _, s) => productionsAll rest owner row s
      | (.error _, _) => []

end

/-- Transforms rows one after the other; a row that fails leaves what was built before. -/
def transformEach : List (Transformer α × Row) → State α → State α
  | [], s => s
  | (t, row) :: rest, s => transformEach rest (t.transform row s).2

/-- The calls of factories while rows are transformed one after the other. -/
def productionsEach : List (Transformer α × Row) → State α → List (Production α)
  | [], _ => []
  | (t, row) :: rest, s => t.productions row s ++ productionsEach rest (t.transform row s).2

/-! ## What a call does -/

/-- All that a call can do. -/
inductive Production.Effect (p : Production α) : Prop where
  /-- a factory without key columns constructs a bean that no key leads to -/
  | unkeyed (hkey : p.key? = none) (hcache : p.after.context.cache = p.before.context.cache)
    (hsize : p.after.heap.size = p.before.heap.size + 1)
  /-- the key cannot be read, or has a null component -/
  | nothing (hidentity : p.identity? = none) (hbean : p.bean? = none) (hafter : p.after = p.before)
  /-- the bean is in the cache -/
  | found {id : BeanKind × Key} {bean : BeanId} (hidentity : p.identity? = some id)
    (hbean : p.bean? = some bean) (hcached : p.before.context.cached? id.1 id.2 = some bean)
    (hafter : p.after = p.before)
  /-- the bean is not in the cache: it is constructed, and remembered -/
  | built {id : BeanKind × Key} (hidentity : p.identity? = some id)
    (hbean : p.bean? = some p.before.heap.size)
    (hcached : p.before.context.cached? id.1 id.2 = none)
    (hcontext : p.after.context = p.before.context.remember id.1 id.2 p.before.heap.size)
    (hsize : p.after.heap.size = p.before.heap.size + 1)

namespace Heap

theorem size_construct (h : Heap α) (kind : BeanKind) (content : α) :
    (h.construct kind content).2.size = h.size + 1 := List.length_append

theorem size_modify (h : Heap α) (bean : BeanId) (f : α → α) : (h.modify bean f).size = h.size :=
  List.length_modify _ _ _

end Heap

namespace Production

variable {p : Production α}

/-- A call that reads a key asks for the bean of its kind, unless a component is null. -/
theorem identity?_of_key {key : Key} (hkey : p.key? = some key) :
    p.identity? = if key.isNull then none else some (p.factory.kind, key) := by
  unfold identity?
  rw [hkey]
  cases hnull : key.isNull <;> simp [hnull]

theorem identity?_of_no_key (hkey : p.key? = none) : p.identity? = none := by
  unfold identity?
  rw [hkey]
  rfl

theorem after_of_outcome {o : Outcome α (Option (BeanId × Bool))} (h : p.outcome = o) :
    p.after = o.2 := congrArg Prod.snd h

theorem bean?_of_outcome {made : Option (BeanId × Bool)} {s : State α}
    (h : p.outcome = (.ok made, s)) : p.bean? = made.map (·.1) := by
  unfold bean?
  rw [h]

/-- A call without key columns, one that reads no key, one that finds its bean and one that builds
it are all there are. -/
theorem effect (p : Production α) : p.Effect := by
  obtain ⟨factory, row, s⟩ := p
  cases hlabels : factory.keyColumns with
  | none =>
    have hkey : (Production.mk factory row s).key? = none := by
      unfold key?
      rw [hlabels]
    have houtcome : (Production.mk factory row s).outcome = (.ok (some (s.heap.size, true)),
        ⟨(s.heap.construct factory.kind (factory.construct ⟨[]⟩)).2,
          s.context.retain s.heap.size⟩) := by
      unfold outcome Factory.produce
      rw [hlabels]
      rfl
    have hafter := after_of_outcome houtcome
    refine .unkeyed hkey ?_ ?_
    · rw [hafter]
      rfl
    · rw [hafter]
      exact Heap.size_construct _ _ _
  | some labels =>
    cases hvalues : readAll row labels with
    | error e =>
      have hkey : (Production.mk factory row s).key? = none := by
        unfold key?
        simp only [hlabels, hvalues]
      have houtcome : (Production.mk factory row s).outcome = (.error e, s) := by
        unfold outcome Factory.produce
        simp only [hlabels, hvalues]
      have hbean : (Production.mk factory row s).bean? = none := by
        unfold bean?
        rw [houtcome]
      exact .nothing (identity?_of_no_key hkey) hbean (after_of_outcome houtcome)
    | ok values =>
      have hkey : (Production.mk factory row s).key? = some ⟨values⟩ := by
        unfold key?
        simp only [hlabels, hvalues]
      have hidentity := identity?_of_key hkey
      cases hnull : (Key.mk values).isNull with
      | true =>
        have houtcome : (Production.mk factory row s).outcome = (.ok none, s) := by
          unfold outcome Factory.produce
          simp only [hlabels, hvalues, hnull, if_true]
        rw [hnull, if_pos rfl] at hidentity
        exact .nothing hidentity (bean?_of_outcome houtcome) (after_of_outcome houtcome)
      | false =>
        rw [hnull, if_neg Bool.false_ne_true] at hidentity
        cases hcached : s.context.cached? factory.kind ⟨values⟩ with
        | some bean =>
          have houtcome :
              (Production.mk factory row s).outcome = (.ok (some (bean, false)), s) := by
            unfold outcome Factory.produce
            simp only [hlabels, hvalues, hnull, if_false, Bool.false_eq_true, hcached]
          exact .found hidentity (bean?_of_outcome houtcome) hcached (after_of_outcome houtcome)
        | none =>
          have houtcome : (Production.mk factory row s).outcome =
              (.ok (some (s.heap.size, true)),
                ⟨(s.heap.construct factory.kind (factory.construct ⟨values⟩)).2,
                  s.context.remember factory.kind ⟨values⟩ s.heap.size⟩) := by
            unfold outcome Factory.produce
            simp only [hlabels, hvalues, hnull, if_false, Bool.false_eq_true, hcached]
            rfl
          have hafter := after_of_outcome houtcome
          refine .built hidentity (bean?_of_outcome houtcome) hcached ?_ ?_
          · rw [hafter]
          · rw [hafter]
            exact Heap.size_construct _ _ _

end Production

/-! ## What fills and fixers leave -/

/-- Contents and marks may have changed, but the cache is the same, and so is the number of
beans. -/
structure State.SameBeans (s s' : State α) : Prop where
  cache_eq : s'.context.cache = s.context.cache
  size_eq : s'.heap.size = s.heap.size

namespace State.SameBeans

variable {s s' s'' : State α}

theorem refl (s : State α) : s.SameBeans s := ⟨rfl, rfl⟩

theorem trans (h : s.SameBeans s') (h' : s'.SameBeans s'') : s.SameBeans s'' :=
  ⟨h'.cache_eq.trans h.cache_eq, h'.size_eq.trans h.size_eq⟩

end State.SameBeans

section Steps

variable (bean owner related : BeanId) (row : Row) (s : State α)

theorem ColumnReader.sameBeans_fill (c : ColumnReader α) :
    s.SameBeans (c.fill bean row s).2 := by
  unfold ColumnReader.fill
  cases row c.label with
  | error e => exact .refl s
  | ok v =>
    cases s.heap.content? bean with
    | none => exact .refl s
    | some content =>
      cases hconsume : c.consume v content with
      | error e =>
        simp only [hconsume]
        exact .refl s
      | ok content =>
        simp only [hconsume]
        exact ⟨rfl, Heap.size_modify _ _ _⟩

theorem sameBeans_fillAll (columns : List (ColumnReader α)) :
    s.SameBeans (fillAll bean row columns s).2 := by
  induction columns generalizing s with
  | nil => exact .refl s
  | cons c rest ih =>
    have hfill := c.sameBeans_fill bean row s
    unfold fillAll
    rcases hc : c.fill bean row s with ⟨e | ⟨⟩, s₁⟩
    · rw [hc] at hfill
      exact hfill
    · rw [hc] at hfill
      exact hfill.trans (ih s₁)

theorem Fixer.size_fix (fixer : Fixer α) (heap : Heap α) :
    (fixer.fix owner related heap).size = heap.size := by
  induction fixer generalizing owner related heap with
  | wire link => exact Heap.size_modify _ _ _
  | withReverse forward reverse ihf ihr =>
    unfold fix
    rw [ihr, ihf]

theorem sameBeans_applyFixer (id : RelationId) (fixer : Fixer α) (policy : Policy) :
    s.SameBeans (applyFixer id fixer policy owner related s) := by
  have hsize := fixer.size_fix owner related s.heap
  unfold applyFixer
  cases policy with
  | eachRow => exact ⟨rfl, hsize⟩
  | oncePerBean =>
    by_cases htreated : s.context.isTreated owner id = true
    · simp only [htreated, if_true]
      exact .refl s
    · simp only [htreated]
      have hcache : (s.context.treat owner id).cache = s.context.cache := by
        unfold Context.treat
        rw [if_neg htreated]
      exact ⟨hcache, hsize⟩

end Steps

end SqlGraph.Graph
