import SqlGraph.Graph.Copy
import SqlGraph.Proofs.Graph.Events

/-!
# Renamed transformers

A renamed transformer reads its columns under other labels and has relations of its own. Apart from
that it does what the original does on rows that answer a label as the real rows answer the label
read in its place (`Row.renamed`).

The two runs go through the same beans, and through contexts that differ in the identities of the
relations treated only. `Pairing` says which identities correspond, `State.Alike` that a state is
the other one with these exchanged, and every step keeps that. The main statement is
`traverse_renamed`.
-/

namespace SqlGraph.Graph

variable {α : Type}

/-! ## Labels -/

/-- The row that answers a label as the row answers the label read in its place. -/
def Row.renamed (aliases : List (String × String)) (row : Row) : Row :=
  fun label => row (renamedLabel aliases label)

/-- The labels of the second list are read in place of those that the first one leads to. -/
def composedAliases (aliases aliases' : List (String × String)) : List (String × String) :=
  aliases.map (fun (label, other) => (label, renamedLabel aliases' other)) ++ aliases'

theorem renamedLabel_composed (aliases aliases' : List (String × String)) (label : String) :
    renamedLabel (composedAliases aliases aliases') label =
      renamedLabel aliases' (renamedLabel aliases label) := by
  unfold composedAliases
  induction aliases with
  | nil => rfl
  | cons entry rest ih =>
    obtain ⟨label', other⟩ := entry
    unfold renamedLabel at ih ⊢
    rw [List.map_cons, List.cons_append, List.lookup_cons, List.lookup_cons]
    cases label == label' with
    | true => rfl
    | false => exact ih

theorem readAll_renamed (aliases : List (String × String)) (row : Row) (labels : List String) :
    readAll row (labels.map (renamedLabel aliases)) = readAll (row.renamed aliases) labels := by
  induction labels with
  | nil => rfl
  | cons label rest ih =>
    rw [List.map_cons, readAll, readAll, ih]
    rfl

/-! ## Identities of relations -/

mutual

/-- The identities of the relations of a transformer, each before those of its target. -/
def Transformer.relationIds : Transformer α → List RelationId
  | .mk _ _ relations => Relation.allIds relations

/-- The identity of a relation, then those of its target. -/
def Relation.ids : Relation α → List RelationId
  | .mk id target _ _ => id :: target.relationIds

/-- The identities of relations, in order. -/
def Relation.allIds : List (Relation α) → List RelationId
  | [] => []
  | r :: rest => r.ids ++ Relation.allIds rest

end

/-- The factory reading its key under other labels. -/
def Factory.renamed (aliases : List (String × String)) (f : Factory α) : Factory α :=
  { f with keyColumns := f.keyColumns.map fun labels => labels.map (renamedLabel aliases) }

/-- The column read under another label; it fills as before, and its errors name the former one. -/
def ColumnReader.renamed (aliases : List (String × String)) (c : ColumnReader α) :
    ColumnReader α :=
  { c with label := renamedLabel aliases c.label }

section Numbers

variable (aliases : List (String × String))

theorem Transformer.renamed_mk (factory : Factory α) (columns : List (ColumnReader α))
    (relations : List (Relation α)) (next : RelationId) :
    (Transformer.mk factory columns relations).renamed aliases next =
      (.mk (factory.renamed aliases) (columns.map (ColumnReader.renamed aliases))
        (Relation.renamedAll aliases relations next).1,
        (Relation.renamedAll aliases relations next).2) := rfl

theorem Relation.renamed_mk (id : RelationId) (target : Transformer α) (fixer : Fixer α)
    (policy : Policy) (next : RelationId) :
    (Relation.mk id target fixer policy).renamed aliases next =
      (.mk next (target.renamed aliases (next + 1)).1 fixer policy,
        (target.renamed aliases (next + 1)).2) := rfl

theorem Relation.renamedAll_cons (r : Relation α) (rest : List (Relation α)) (next : RelationId) :
    Relation.renamedAll aliases (r :: rest) next =
      ((r.renamed aliases next).1 ::
          (Relation.renamedAll aliases rest (r.renamed aliases next).2).1,
        (Relation.renamedAll aliases rest (r.renamed aliases next).2).2) := rfl

mutual

/-- A copy takes one number for each relation. -/
theorem Transformer.renamed_next (t : Transformer α) (next : RelationId) :
    (t.renamed aliases next).2 = next + t.relationIds.length := by
  cases t with
  | mk factory columns relations => exact Relation.renamedAll_next relations next

theorem Relation.renamed_next (r : Relation α) (next : RelationId) :
    (r.renamed aliases next).2 = next + r.ids.length := by
  cases r with
  | mk id target fixer policy =>
    rw [Relation.renamed_mk, Relation.ids, List.length_cons, Transformer.renamed_next target]
    exact Nat.add_right_comm next 1 _

theorem Relation.renamedAll_next (relations : List (Relation α)) (next : RelationId) :
    (Relation.renamedAll aliases relations next).2 = next + (Relation.allIds relations).length := by
  cases relations with
  | nil => rfl
  | cons r rest =>
    rw [Relation.renamedAll_cons, Relation.allIds, List.length_append,
      Relation.renamedAll_next rest, Relation.renamed_next r, Nat.add_assoc]

end

mutual

/-- Renaming twice is renaming once. -/
theorem Transformer.renamed_renamed (aliases' : List (String × String)) (t : Transformer α)
    (next next' : RelationId) :
    (t.renamed aliases next).1.renamed aliases' next' =
      t.renamed (composedAliases aliases aliases') next' := by
  cases t with
  | mk factory columns relations =>
    have hlabels : renamedLabel aliases' ∘ renamedLabel aliases =
        renamedLabel (composedAliases aliases aliases') :=
      funext fun label => (renamedLabel_composed aliases aliases' label).symm
    have hfactory : (factory.renamed aliases).renamed aliases' =
        factory.renamed (composedAliases aliases aliases') := by
      unfold Factory.renamed
      cases factory.keyColumns with
      | none => rfl
      | some labels => simp only [Option.map_some, List.map_map, hlabels]
    have hcolumns : (columns.map (ColumnReader.renamed aliases)).map
        (ColumnReader.renamed aliases') =
          columns.map (ColumnReader.renamed (composedAliases aliases aliases')) := by
      rw [List.map_map]
      refine List.map_congr_left fun c _ => ?_
      unfold ColumnReader.renamed
      rw [renamedLabel_composed]
      rfl
    rw [Transformer.renamed_mk, Transformer.renamed_mk, Transformer.renamed_mk, hfactory, hcolumns,
      Relation.renamedAll_renamedAll aliases' relations next next']

theorem Relation.renamed_renamed (aliases' : List (String × String)) (r : Relation α)
    (next next' : RelationId) :
    (r.renamed aliases next).1.renamed aliases' next' =
      r.renamed (composedAliases aliases aliases') next' := by
  cases r with
  | mk id target fixer policy =>
    rw [Relation.renamed_mk, Relation.renamed_mk, Relation.renamed_mk,
      Transformer.renamed_renamed aliases' target (next + 1) (next' + 1)]

theorem Relation.renamedAll_renamedAll (aliases' : List (String × String))
    (relations : List (Relation α)) (next next' : RelationId) :
    Relation.renamedAll aliases' (Relation.renamedAll aliases relations next).1 next' =
      Relation.renamedAll (composedAliases aliases aliases') relations next' := by
  cases relations with
  | nil => rfl
  | cons r rest =>
    rw [Relation.renamedAll_cons, Relation.renamedAll_cons, Relation.renamedAll_cons,
      Relation.renamed_renamed aliases' r next next',
      Relation.renamedAll_renamedAll aliases' rest (r.renamed aliases next).2]

end

end Numbers

/-! ## States with other identities -/

/-- Which identities of relations correspond: each to one at most, on both sides. -/
structure Pairing where
  pairs : List (RelationId × RelationId)
  left_unique : ∀ {a a' b}, (a, b) ∈ pairs → (a', b) ∈ pairs → a = a'
  right_unique : ∀ {a b b'}, (a, b) ∈ pairs → (a, b') ∈ pairs → b = b'

/-- Different identities, numbered anew. -/
def Pairing.ofIds (ids : List RelationId) (hids : ids.Nodup) (next : RelationId) : Pairing where
  pairs := ids.zipIdx next
  left_unique := by
    intro a a' b ha ha'
    rw [List.mk_mem_zipIdx_iff_le_and_getElem?_sub] at ha ha'
    exact Option.some.inj (ha.2.symm.trans ha'.2)
  right_unique := by
    intro a b b' hb hb'
    rw [List.mk_mem_zipIdx_iff_le_and_getElem?_sub] at hb hb'
    obtain ⟨hlt, hget⟩ := List.getElem?_eq_some_iff.mp hb.2
    have hsub : b - next = b' - next :=
      (List.getElem?_inj hlt hids).mp (hb.2.trans hb'.2.symm)
    rw [← Nat.sub_add_cancel hb.1, hsub, Nat.sub_add_cancel hb'.1]

/-- The second context is the first one with the identities of relations exchanged. -/
structure Context.Alike (ids : Pairing) (c c' : Context) : Prop where
  cache : c'.cache = c.cache
  roots : c'.roots = c.roots
  retained : c'.retained = c.retained
  treated : ∀ {a b}, (a, b) ∈ ids.pairs → ∀ owner, c'.isTreated owner b = c.isTreated owner a

namespace Context.Alike

variable {ids : Pairing} {c c' : Context} (h : c.Alike ids c')
include h

theorem cached?_eq (kind : BeanKind) (key : Key) : c'.cached? kind key = c.cached? kind key := by
  unfold cached?
  rw [h.cache]

theorem remember (kind : BeanKind) (key : Key) (bean : BeanId) :
    (c.remember kind key bean).Alike ids (c'.remember kind key bean) where
  cache := by simp only [Context.remember, h.cache]
  roots := h.roots
  retained := h.retained
  treated := h.treated

theorem retain (bean : BeanId) : (c.retain bean).Alike ids (c'.retain bean) where
  cache := h.cache
  roots := h.roots
  retained := by simp only [Context.retain, h.retained]
  treated := h.treated

theorem isRoot_eq (bean : BeanId) : c'.isRoot bean = c.isRoot bean := by
  unfold isRoot
  rw [h.roots]

theorem markRoot (bean : BeanId) : (c.markRoot bean).Alike ids (c'.markRoot bean) := by
  unfold Context.markRoot
  rw [h.isRoot_eq]
  cases c.isRoot bean with
  | true => exact h
  | false => exact ⟨h.cache, congrArg (bean :: ·) h.roots, h.retained, h.treated⟩

/-- Corresponding relations are treated for one owner. -/
theorem treat {id id' : RelationId} (hid : (id, id') ∈ ids.pairs) (owner : BeanId) :
    (c.treat owner id).Alike ids (c'.treat owner id') := by
  have hrest : ∀ (c : Context) (relation : RelationId), (c.treat owner relation).cache = c.cache ∧
      (c.treat owner relation).roots = c.roots ∧
      (c.treat owner relation).retained = c.retained := by
    intro c relation
    unfold Context.treat
    split <;> exact ⟨rfl, rfl, rfl⟩
  obtain ⟨hcache, hroots, hretained⟩ := hrest c id
  obtain ⟨hcache', hroots', hretained'⟩ := hrest c' id'
  refine ⟨?_, ?_, ?_, fun {a b} hab other => ?_⟩
  · rw [hcache, hcache', h.cache]
  · rw [hroots, hroots', h.roots]
  · rw [hretained, hretained', h.retained]
  · have hsame : (id' == b) = (id == a) := by
      rw [Bool.eq_iff_iff, beq_iff_eq, beq_iff_eq]
      constructor
      · rintro rfl
        exact ids.left_unique hid hab
      · rintro rfl
        exact ids.right_unique hid hab
    rw [isTreated_treat, isTreated_treat, h.treated hab, hsame]

end Context.Alike

/-- The second state has the same beans, and a context with identities exchanged. -/
structure State.Alike (ids : Pairing) (s s' : State α) : Prop where
  heap : s'.heap = s.heap
  context : s.context.Alike ids s'.context

/-- Two steps with the same result that leave the same state, identities exchanged. -/
def Outcome.Alike {β : Type} (ids : Pairing) (o o' : Outcome α β) : Prop :=
  o'.1 = o.1 ∧ o.2.Alike ids o'.2

section Alike

variable {ids : Pairing} {s s' : State α}

theorem Outcome.Alike.andThen {β γ : Type} {o o' : Outcome α β}
    {next next' : β → State α → Outcome α γ} (h : Outcome.Alike ids o o')
    (hnext : ∀ b {s s' : State α}, s.Alike ids s' →
      Outcome.Alike ids (next b s) (next' b s')) :
    Outcome.Alike ids (o.andThen next) (o'.andThen next') := by
  obtain ⟨r, s⟩ := o
  obtain ⟨r', s'⟩ := o'
  obtain ⟨rfl, hstate⟩ : r' = r ∧ s.Alike ids s' := h
  cases r' with
  | error e => exact ⟨rfl, hstate⟩
  | ok b => exact hnext b hstate

/-! ## Steps -/

variable (aliases : List (String × String)) (row : Row)

theorem Factory.produce_renamed (f : Factory α) (h : s.Alike ids s') :
    Outcome.Alike ids (f.produce (row.renamed aliases) s)
      ((f.renamed aliases).produce row s') := by
  unfold Factory.produce Factory.renamed
  cases f.keyColumns with
  | none =>
    rw [h.heap]
    exact ⟨rfl, rfl, h.context.retain _⟩
  | some labels =>
    simp only [Option.map_some, readAll_renamed]
    cases readAll (row.renamed aliases) labels with
    | error e => exact ⟨rfl, h⟩
    | ok values =>
      cases hnull : (Key.mk values).isNull with
      | true =>
        simp only [hnull, if_true]
        exact ⟨rfl, h⟩
      | false =>
        simp only [hnull, Bool.false_eq_true, if_false, h.context.cached?_eq, h.heap]
        cases s.context.cached? f.kind ⟨values⟩ with
        | some bean => exact ⟨rfl, h⟩
        | none => exact ⟨rfl, rfl, h.context.remember _ _ _⟩

theorem ColumnReader.fill_renamed (c : ColumnReader α) (bean : BeanId) (h : s.Alike ids s') :
    Outcome.Alike ids (c.fill bean (row.renamed aliases) s)
      ((c.renamed aliases).fill bean row s') := by
  unfold ColumnReader.fill ColumnReader.renamed Row.renamed
  cases row (renamedLabel aliases c.label) with
  | error e => exact ⟨rfl, h⟩
  | ok v =>
    simp only [h.heap]
    cases s.heap.content? bean with
    | none => exact ⟨rfl, h⟩
    | some content =>
      simp only
      cases c.consume v content with
      | error e => exact ⟨rfl, h⟩
      | ok content => exact ⟨rfl, rfl, h.context⟩

theorem fillAll_renamed (bean : BeanId) (columns : List (ColumnReader α)) (h : s.Alike ids s') :
    Outcome.Alike ids (fillAll bean (row.renamed aliases) columns s)
      (fillAll bean row (columns.map (ColumnReader.renamed aliases)) s') := by
  induction columns generalizing s s' with
  | nil => exact ⟨rfl, h⟩
  | cons c rest ih =>
    exact (c.fill_renamed aliases row bean h).andThen fun _ _ _ h' => ih h'

/-- Corresponding relations have been treated for the same owners, so they fix the same ones. -/
theorem applyFixer_renamed {id id' : RelationId} (hid : (id, id') ∈ ids.pairs) (fixer : Fixer α)
    (policy : Policy) (owner related : BeanId) (h : s.Alike ids s') :
    (applyFixer id fixer policy owner related s).Alike ids
      (applyFixer id' fixer policy owner related s') := by
  unfold applyFixer
  rw [h.heap]
  cases policy with
  | eachRow => exact ⟨rfl, h.context⟩
  | oncePerBean =>
    simp only [h.context.treated hid]
    cases s.context.isTreated owner id with
    | true => exact h
    | false => exact ⟨rfl, h.context.treat hid owner⟩

/-! ## Rows -/

mutual

/-- A row, when the relations of the transformer correspond to those of its copy. -/
theorem Transformer.transform_renamed (t : Transformer α) (next : RelationId)
    (hpairs : t.relationIds.zipIdx next ⊆ ids.pairs) {s s' : State α} (h : s.Alike ids s') :
    Outcome.Alike ids (t.transform (row.renamed aliases) s)
      ((t.renamed aliases next).1.transform row s') := by
  cases t with
  | mk factory columns relations =>
    rw [Transformer.renamed_mk]
    unfold Transformer.transform
    refine (factory.produce_renamed aliases row h).andThen fun produced s₁ s₁' h₁ => ?_
    cases produced with
    | none => exact ⟨rfl, h₁⟩
    | some made =>
      refine (fillAll_renamed aliases row made.1 columns h₁).andThen fun _ s₂ s₂' h₂ => ?_
      have hassembled := assembleAll_renamed relations next hpairs made.1 h₂
      exact hassembled.andThen fun _ s₃ s₃' h₃ => ⟨rfl, h₃⟩

/-- A relation: its own identities correspond, and those of its target. -/
theorem Relation.assemble_renamed (r : Relation α) (next : RelationId)
    (hpairs : r.ids.zipIdx next ⊆ ids.pairs) (owner : BeanId) {s s' : State α}
    (h : s.Alike ids s') :
    Outcome.Alike ids (r.assemble owner (row.renamed aliases) s)
      ((r.renamed aliases next).1.assemble owner row s') := by
  cases r with
  | mk id target fixer policy =>
    rw [Relation.ids, List.zipIdx_cons, List.cons_subset] at hpairs
    rw [Relation.renamed_mk]
    unfold Relation.assemble
    refine (Transformer.transform_renamed target (next + 1) hpairs.2 h).andThen
      fun related s₁ s₁' h₁ => ?_
    cases related with
    | none => exact ⟨rfl, h₁⟩
    | some related => exact ⟨rfl, applyFixer_renamed hpairs.1 fixer policy owner related h₁⟩

/-- Relations in order, numbered one after the other. -/
theorem assembleAll_renamed (relations : List (Relation α)) (next : RelationId)
    (hpairs : (Relation.allIds relations).zipIdx next ⊆ ids.pairs) (owner : BeanId)
    {s s' : State α} (h : s.Alike ids s') :
    Outcome.Alike ids (assembleAll relations owner (row.renamed aliases) s)
      (assembleAll (Relation.renamedAll aliases relations next).1 owner row s') := by
  cases relations with
  | nil => exact ⟨rfl, h⟩
  | cons r rest =>
    rw [Relation.allIds, List.zipIdx_append, List.append_subset] at hpairs
    rw [Relation.renamedAll_cons, Relation.renamed_next]
    unfold assembleAll
    exact (Relation.assemble_renamed r next hpairs.1 owner h).andThen fun _ s₁ s₁' h₁ =>
      assembleAll_renamed rest (next + r.ids.length) hpairs.2 owner h₁

end

/-! ## Traversals -/

section Traverse

variable {σ ω : Type} (acc : Accumulator (Delivery α) σ ω)

/-- Roots are handed over alike: what is delivered is the same bean and the same heap. -/
theorem Transformer.deliver_renamed (seed : σ) (bean : BeanId) (h : s.Alike ids s') :
    Outcome.Alike ids (Transformer.deliver acc seed bean s)
      (Transformer.deliver acc seed bean s') := by
  unfold Transformer.deliver
  simp only [h.context.isRoot_eq, h.heap]
  cases s.context.isRoot bean with
  | true => exact ⟨rfl, h⟩
  | false => exact ⟨rfl, rfl, h.context.markRoot bean⟩

theorem Transformer.traverseFrom_renamed (t : Transformer α) (next : RelationId)
    (hpairs : t.relationIds.zipIdx next ⊆ ids.pairs) (feed : List (Except Error Row)) (seed : σ)
    {s s' : State α} (h : s.Alike ids s') :
    Outcome.Alike ids
      (t.traverseFrom acc seed (feed.map (Except.map (Row.renamed aliases))) s)
      ((t.renamed aliases next).1.traverseFrom acc seed feed s') := by
  induction feed generalizing seed s s' with
  | nil => exact ⟨rfl, h⟩
  | cons item rest ih =>
    cases item with
    | error e => exact ⟨rfl, h⟩
    | ok row =>
      refine (t.transform_renamed aliases row next hpairs h).andThen fun root s₁ s₁' h₁ => ?_
      cases root with
      | none => exact ih seed h₁
      | some bean =>
        exact (Transformer.deliver_renamed acc seed bean h₁).andThen
          fun seed s₂ s₂' h₂ => ih seed h₂

end Traverse

end Alike

/-- A renamed transformer does with rows what the original does with the rows that answer each label
as they answer the label read in its place: with any accumulator the same result, the error
included, and the same beans; and renaming twice is renaming once. -/
theorem traverse_renamed (t : Transformer α) (hids : t.relationIds.Nodup)
    (aliases : List (String × String)) (next : RelationId) :
    (∀ {σ ω : Type} (acc : Accumulator (Delivery α) σ ω) (feed : List (Except Error Row))
        (heap : Heap α),
      ((t.renamed aliases next).1.traverse acc feed heap).1 =
          (t.traverse acc (feed.map (Except.map (Row.renamed aliases))) heap).1 ∧
        ((t.renamed aliases next).1.traverse acc feed heap).2.heap =
          (t.traverse acc (feed.map (Except.map (Row.renamed aliases))) heap).2.heap) ∧
    ∀ aliases' next', (t.renamed aliases next).1.renamed aliases' next' =
      t.renamed (composedAliases aliases aliases') next' := by
  refine ⟨fun acc feed heap => ?_, fun aliases' next' => ?_⟩
  · have hstart : ({ heap := heap } : State α).Alike (.ofIds t.relationIds hids next)
        { heap := heap } := ⟨rfl, rfl, rfl, rfl, fun _ _ => rfl⟩
    have halike := t.traverseFrom_renamed aliases acc next (List.Subset.refl _) feed acc.supply
      hstart
    exact ⟨halike.1, halike.2.heap⟩
  · exact t.renamed_renamed aliases aliases' next next'

/-- A person with an age, who keeps the first friend; the friend takes each mate in turn. -/
private def aged : Transformer (Option BeanId) :=
  .mk ⟨0, some ["id"], fun _ => none⟩ [.typed "age" .int64 fun _ a => a]
    [.mk 7 (.mk ⟨0, some ["friend"], fun _ => none⟩ []
        [.mk 3 (.mk ⟨0, some ["mate"], fun _ => none⟩ [] [])
          (.one ⟨id, fun mate _ => mate⟩) .eachRow])
      (.one ⟨id, fun friend _ => friend⟩) .oncePerBean]

/-- The labels of a result that calls its columns otherwise. -/
private def otherLabels : List (String × String) :=
  [("id", "p_id"), ("age", "p_age"), ("friend", "f_id"), ("mate", "m_id")]

/-- Rows of that result: one person with these ages, with another friend and mate on each. -/
private def agedRows (ages : List Json) : List (Except Error Row) :=
  Source.feed ⟨{
    labels := ["p_id", "p_age", "f_id", "m_id"]
    rows := ages.mapIdx fun i age => [.ofNat 1, age, .ofNat (i + 2), .ofNat (i + 5)] }, none⟩

/-- The renamed copy reads one person on both rows, who keeps the first friend as with the original;
and an age that is no number is still told of under the label `age`. -/
theorem traverse_renamed_aged :
    aged.relationIds = [7, 3] ∧ aged.relationIds.Nodup ∧
      (let copy := (aged.renamed otherLabels 10).1
      let numbers := agedRows [.ofNat 30, .ofNat 31]
      let words := agedRows [.ofNat 30, .string "old"]
      copy.relationIds = [10, 11] ∧
        (copy.list numbers {}).1 = .ok [0] ∧
        (copy.list numbers {}).2.heap.content? 0 = some (some 1) ∧
        (copy.list numbers {}).2.heap =
          (aged.list (numbers.map (Except.map (Row.renamed otherLabels))) {}).2.heap ∧
        (copy.list words {}).1 = .error (.columnConversion "age") ∧
        (copy.list words {}).1 =
          (aged.list (words.map (Except.map (Row.renamed otherLabels))) {}).1) := by
  have hids : aged.relationIds.Nodup := by decide
  obtain ⟨hsame, -⟩ := traverse_renamed aged hids otherLabels 10
  refine ⟨rfl, hids, rfl, rfl, rfl, ?_, rfl, ?_⟩
  · exact (hsame (Accumulator.toList.comap (·.bean)) _ {}).2
  · exact (hsame (Accumulator.toList.comap (·.bean)) _ {}).1

end SqlGraph.Graph
