import SqlGraph.Proofs.Graph.Footprint
import SqlGraph.Proofs.Graph.Opaque

/-!
# Runs with other handles

When handles are opaque, a run that constructs its beans at other handles does the same, with the
handles renamed. A `Relocation` says how: by a permutation of handles that leaves the beans from
before the traversal as they are and moves all new ones by the same distance, up to a bound that the
run does not reach. Two states correspond on some kinds and keys when what is seen of these is the
same, renamed (`State.Moves`). Steps that touch nothing but these keep that and have the same
results, renamed: `Transformer.transform_moved`, `Transformer.traverseFrom_moved`.
-/

namespace SqlGraph.Graph

variable {α : Type} [SMul HandleMap α]

/-! ## States that correspond -/

/-- How the handles of one run become those of another. -/
structure Relocation where
  perm : HandleMap
  /-- how many beans were there before the traversal -/
  old : Nat
  /-- the first handle that need not be moved by the distance -/
  last : Nat
  distance : ℤ
  fixes : FixesBelow old perm

/-- The handle and those in the content are renamed, the marks are the same. -/
instance : SMul HandleMap (Seen α) :=
  ⟨fun π v => { v with bean := π v.bean, content := π • v.content }⟩

/-- What is seen of some kinds and keys is the same in both states but for the handles, and so is
what will be constructed. -/
structure State.Moves (m : Relocation) (I : Set (BeanKind × Key)) (s s' : State α) : Prop where
  tidy : s.Tidy m.old
  tidy_right : s'.Tidy m.old
  see : ∀ {id}, id ∈ I → s'.see id = m.perm • s.see id
  size : (s'.heap.size : ℤ) = s.heap.size + m.distance
  fresh : ∀ bean, s.heap.size ≤ bean → bean < m.last → (m.perm bean : ℤ) = bean + m.distance

namespace State.Moves

variable {m : Relocation} {I : Set (BeanKind × Key)} {s s' : State α} (h : s.Moves m I s')
include h

/-- The handles of a kind and key correspond. -/
theorem handle?_eq {id : BeanKind × Key} (hid : id ∈ I) :
    s'.handle? id = (s.handle? id).map m.perm := by
  rw [h.tidy_right.handle?_eq, h.tidy.handle?_eq, h.see hid]
  cases s.see id <;> rfl

section Bean

variable {id : BeanKind × Key} (hid : id ∈ I) {bean : BeanId} (hbean : s.handle? id = some bean)
include hid hbean

theorem handle?_right : s'.handle? id = some (m.perm bean) := by
  rw [h.handle?_eq hid, hbean, Option.map_some]

/-- Contents and marks of corresponding handles correspond. -/
theorem bean_eq : ∃ a, s.heap.content? bean = some a ∧
    s'.heap.content? (m.perm bean) = some (m.perm • a) ∧
    s'.context.isTreated (m.perm bean) = s.context.isTreated bean ∧
    s'.context.isRoot (m.perm bean) = s.context.isRoot bean := by
  obtain ⟨a, -, hsee⟩ := h.tidy.see_of_handle? hbean
  obtain ⟨a', -, hsee'⟩ := h.tidy_right.see_of_handle? (h.handle?_right hid hbean)
  have hcontent := (h.tidy.content?_of_see hsee).2
  have hcontent' := (h.tidy_right.content?_of_see hsee').2
  have hmoved := h.see hid
  rw [hsee, hsee'] at hmoved
  obtain ⟨-, rfl, htreated, hroot⟩ := Seen.mk.inj (Option.some.inj hmoved)
  exact ⟨a, hcontent, hcontent', htreated, hroot⟩

end Bean

/-- Corresponding edits of one kind and key. -/
theorem edit {id : BeanKind × Key} (hid : id ∈ I) {edit edit' : Option (Seen α) → Option (Seen α)}
    {s₁ s₁' : State α} (he : s.Edits m.old id edit s₁) (he' : s'.Edits m.old id edit' s₁')
    (hedit : edit' (m.perm • s.see id) = m.perm • edit (s.see id))
    (hgrown : s.heap.size ≤ s₁.heap.size)
    (hsize : (s₁'.heap.size : ℤ) = s₁.heap.size + m.distance) : s₁.Moves m I s₁' where
  tidy := he.tidy
  tidy_right := he'.tidy
  see {other} hother := by
    by_cases heq : other = id
    · rw [heq, he.see_self, he'.see_self, h.see hid, hedit]
    · rw [he.see_of_ne heq, he'.see_of_ne heq, h.see hother]
  size := hsize
  fresh bean hbean := h.fresh bean (hgrown.trans hbean)

/-- Corresponding changes of the contents of corresponding handles. -/
theorem modify {id : BeanKind × Key} (hid : id ∈ I) {bean : BeanId}
    (hbean : s.handle? id = some bean) {f f' : α → α}
    (hf : ∀ a, f' (m.perm • a) = m.perm • f a) :
    State.Moves m I { s with heap := s.heap.modify bean f }
      { s' with heap := s'.heap.modify (m.perm bean) f' } := by
  have hsize := Heap.size_modify s.heap bean f
  have hsize' := Heap.size_modify s'.heap (m.perm bean) f'
  refine h.edit hid (h.tidy.edits_modify hbean f)
    (h.tidy_right.edits_modify (h.handle?_right hid hbean) f') ?_ hsize.ge ?_
  · cases s.see id with
    | none => rfl
    | some v =>
      have hcontent := hf v.content
      show some (Seen.mk _ (f' (m.perm • v.content)) _ _) =
        some (Seen.mk _ (m.perm • f v.content) _ _)
      rw [hcontent]
      rfl
  · show ((s'.heap.modify (m.perm bean) f').size : ℤ) =
      (s.heap.modify bean f).size + m.distance
    rw [hsize, hsize']
    exact h.size

end State.Moves

/-! ## Steps -/

/-- The result of the second step is that of the first, renamed, and the states correspond. -/
def Outcome.Moved {β : Type} (m : Relocation) (I : Set (BeanKind × Key)) (rename : β → β)
    (o o' : Outcome α β) : Prop :=
  o'.1 = o.1.map rename ∧ o.2.Moves m I o'.2

section Steps

variable {m : Relocation} {I : Set (BeanKind × Key)} {s s' : State α}

/-- Steps that correspond, one after the other. -/
theorem Outcome.Moved.andThen {β γ : Type} {rename : β → β} {rename' : γ → γ}
    {o o' : Outcome α β} {next next' : β → State α → Outcome α γ}
    (h : Outcome.Moved m I rename o o')
    (hnext : ∀ b s₁ s₁', o = (.ok b, s₁) → s₁.Moves m I s₁' →
      Outcome.Moved m I rename' (next b s₁) (next' (rename b) s₁')) :
    Outcome.Moved m I rename' (o.andThen next) (o'.andThen next') := by
  obtain ⟨r, s₁⟩ := o
  obtain ⟨r', s₁'⟩ := o'
  obtain ⟨rfl, hstate⟩ : r' = r.map rename ∧ s₁.Moves m I s₁' := h
  cases r with
  | error e => exact ⟨rfl, hstate⟩
  | ok b => exact hnext b s₁ s₁' rfl hstate

/-- A new bean is constructed at the new handle of the other run. -/
theorem Factory.produce_moved {f : Factory α} (hkeyed : f.keyColumns.isSome = true)
    (hblind : f.Opaque m.old) {row : Row} (hI : ∀ key, f.key? row = some key → (f.kind, key) ∈ I)
    (h : s.Moves m I s') (hlast : (f.produce row s).2.heap.size ≤ m.last) :
    Outcome.Moved m I (Option.map (Prod.map m.perm id)) (f.produce row s) (f.produce row s') := by
  cases hkey : f.key? row with
  | none =>
    rcases Factory.produce_of_no_key? hkeyed hkey with hall | ⟨e, hall⟩
    · rw [hall, hall]
      exact ⟨rfl, h⟩
    · rw [hall, hall]
      exact ⟨rfl, h⟩
  | some key =>
    have hid := hI key hkey
    have hhandle := h.handle?_eq hid
    unfold State.handle? at hhandle
    rw [f.produce_of_key? hkey] at hlast ⊢
    rw [f.produce_of_key? hkey, hhandle]
    cases hcached : s.context.cached? f.kind key with
    | some bean => exact ⟨rfl, h⟩
    | none =>
      rw [hcached] at hlast
      have hgrown := Heap.size_construct s.heap f.kind (f.construct key)
      have hgrown' := Heap.size_construct s'.heap f.kind (f.construct key)
      have hsize := h.size
      have hnew : m.perm s.heap.size = s'.heap.size := by
        have hmoved := h.fresh s.heap.size (Nat.le_refl _)
          (Nat.lt_of_succ_le (hgrown.symm.trans_le hlast))
        exact Int.natCast_inj.mp (hmoved.trans hsize.symm)
      refine ⟨by rw [← hnew]; rfl, ?_⟩
      refine h.edit hid (h.tidy.edits_construct (f.kind, key) _)
        (h.tidy_right.edits_construct (f.kind, key) _) ?_ ?_ ?_
      · show some (Seen.mk s'.heap.size (f.construct key) _ _) =
          some (Seen.mk (m.perm s.heap.size) (m.perm • f.construct key) _ _)
        rw [hnew, hblind m.perm m.fixes]
      · exact (Nat.le_succ _).trans_eq hgrown.symm
      · show ((s'.heap.construct f.kind (f.construct key)).2.size : ℤ) =
          (s.heap.construct f.kind (f.construct key)).2.size + m.distance
        rw [hgrown, hgrown']
        omega

section Bean

variable {row : Row} {id : BeanKind × Key} (hid : id ∈ I) {bean : BeanId}
include hid

/-- A column fills the corresponding bean with the renamed content. -/
theorem ColumnReader.fill_moved {c : ColumnReader α} (hblind : c.Opaque m.old)
    (h : s.Moves m I s') (hbean : s.handle? id = some bean) :
    Outcome.Moved m I (fun done => done) (c.fill bean row s) (c.fill (m.perm bean) row s') := by
  obtain ⟨a, hcontent, hcontent', -⟩ := h.bean_eq hid hbean
  have hconsume := hblind m.perm m.fixes
  unfold ColumnReader.fill
  cases row c.label with
  | error e => exact ⟨rfl, h⟩
  | ok v =>
    simp only [hcontent, hcontent', hconsume]
    cases c.consume v a with
    | error e => exact ⟨rfl, h⟩
    | ok content => exact ⟨rfl, h.modify hid hbean fun _ => rfl⟩

theorem fillAll_moved {columns : List (ColumnReader α)}
    (hblind : ∀ c ∈ columns, c.Opaque m.old) (h : s.Moves m I s')
    (hbean : s.handle? id = some bean) :
    Outcome.Moved m I (fun done => done) (fillAll bean row columns s)
      (fillAll (m.perm bean) row columns s') := by
  induction columns generalizing s s' with
  | nil => exact ⟨rfl, h⟩
  | cons c rest ih =>
    obtain ⟨hc, hrest⟩ := List.forall_mem_cons.mp hblind
    have hkept := steps_handle?.fill c bean row s _ _ hbean
    refine (c.fill_moved hid hc h hbean).andThen fun _ s₁ s₁' hfill h₁ => ?_
    rw [hfill] at hkept
    exact ih hrest h₁ hkept

end Bean

/-- A fixer wires the corresponding beans. -/
theorem Fixer.fix_moved {fixer : Fixer α} (hblind : fixer.Opaque) {oid rid : BeanKind × Key}
    (hoid : oid ∈ I) (hrid : rid ∈ I) {owner related : BeanId} (h : s.Moves m I s')
    (howner : s.handle? oid = some owner) (hrelated : s.handle? rid = some related) :
    State.Moves m I { s with heap := fixer.fix owner related s.heap }
      { s' with heap := fixer.fix (m.perm owner) (m.perm related) s'.heap } := by
  induction fixer generalizing oid rid owner related s s' with
  | wire link => exact h.modify hoid howner (hblind m.perm related)
  | withReverse forward reverse ihf ihr =>
    exact ihr hblind.2 hrid hoid (ihf hblind.1 hoid hrid h howner hrelated) hrelated howner

theorem applyFixer_moved (id : RelationId) {fixer : Fixer α} (hblind : fixer.Opaque)
    (policy : Policy) {oid rid : BeanKind × Key} (hoid : oid ∈ I) (hrid : rid ∈ I)
    {owner related : BeanId} (h : s.Moves m I s') (howner : s.handle? oid = some owner)
    (hrelated : s.handle? rid = some related) :
    (applyFixer id fixer policy owner related s).Moves m I
      (applyFixer id fixer policy (m.perm owner) (m.perm related) s') := by
  obtain ⟨-, -, -, htreated, hroot⟩ := h.bean_eq hoid howner
  have hfix := Fixer.fix_moved hblind hoid hrid h howner hrelated
  unfold applyFixer
  cases policy with
  | eachRow => exact hfix
  | oncePerBean =>
    simp only [htreated]
    cases s.context.isTreated owner id with
    | true => exact h
    | false =>
      have hmarks : (s'.context.treat (m.perm owner) id).isTreated (m.perm owner) =
          (s.context.treat owner id).isTreated owner := by
        funext other
        rw [Context.isTreated_treat, Context.isTreated_treat, htreated, beq_self_eq_true,
          beq_self_eq_true]
      refine hfix.edit hoid (hfix.tidy.edits_treat howner id)
        (hfix.tidy_right.edits_treat (h.handle?_right hoid howner) id) ?_ (Nat.le_refl _) hfix.size
      rw [hmarks, Context.isRoot_treat, Context.isRoot_treat, hroot]
      cases State.see { s with heap := fixer.fix owner related s.heap } oid <;> rfl

/-! ## Rows -/

mutual

/-- A row. -/
theorem Transformer.transform_moved (t : Transformer α) (hkeyed : t.Keyed)
    (hblind : t.Opaque m.old) (row : Row) (hI : ∀ id ∈ t.identities row, id ∈ I) {s s' : State α}
    (h : s.Moves m I s') (hlast : (t.transform row s).2.heap.size ≤ m.last) :
    Outcome.Moved m I (Option.map m.perm) (t.transform row s) (t.transform row s') := by
  cases t with
  | mk factory columns relations =>
    rw [Transformer.identities] at hI
    obtain ⟨hfactory, hcolumns, hrelations⟩ := hblind
    unfold Transformer.transform at hlast ⊢
    have hproduced : Outcome.Moved m I (Option.map (Prod.map m.perm id))
        (factory.produce row s) (factory.produce row s') := by
      refine Factory.produce_moved hkeyed.1 hfactory (fun key hkey => ?_) h
        ((Outcome.size_andThen fun made s₁ => ?_).trans hlast)
      · rw [hkey] at hI
        exact hI _ List.mem_cons_self
      · cases made with
        | none => exact Nat.le_refl _
        | some made =>
          refine (steps_size.fillAll made.1 row columns s₁).trans
            (Outcome.size_andThen fun _ s₂ => ?_)
          exact (steps_size.assembleAll relations made.1 row s₂).trans
            (Outcome.size_andThen fun _ s₃ => Nat.le_refl _)
    refine hproduced.andThen fun made s₁ s₁' hproduce h₁ => ?_
    rw [hproduce] at hlast
    cases made with
    | none => exact ⟨rfl, h₁⟩
    | some made =>
      obtain ⟨key, hkey, hhandle⟩ := Factory.handle?_of_produce hkeyed.1 hproduce
      rw [hkey] at hI
      obtain ⟨hid, hrest⟩ := List.forall_mem_cons.mp hI
      have hkept := steps_handle?.fillAll made.1 row columns s₁ _ _ hhandle
      refine (fillAll_moved hid hcolumns h₁ hhandle).andThen fun _ s₂ s₂' hfill h₂ => ?_
      rw [hfill] at hkept
      have hlast₂ : ((fillAll made.1 row columns s₁).andThen fun _ s =>
          (assembleAll relations made.1 row s).andThen fun _ s =>
            ((.ok (some made.1), s) : Outcome α (Option BeanId))).2.heap.size ≤ m.last := hlast
      rw [hfill] at hlast₂
      have hassembled := Relation.assembleAll_moved relations hkeyed.2 hrelations row hrest hid h₂
        hkept ((Outcome.size_andThen fun _ s₃ => Nat.le_refl _).trans hlast₂)
      exact hassembled.andThen fun _ s₃ s₃' _ h₃ => ⟨rfl, h₃⟩

/-- A relation of corresponding owners. -/
theorem Relation.assemble_moved (r : Relation α) (hkeyed : r.Keyed) (hblind : r.Opaque m.old)
    (row : Row) (hI : ∀ id ∈ r.identities row, id ∈ I) {oid : BeanKind × Key} (hoid : oid ∈ I)
    {owner : BeanId} {s s' : State α} (h : s.Moves m I s') (howner : s.handle? oid = some owner)
    (hlast : (r.assemble owner row s).2.heap.size ≤ m.last) :
    Outcome.Moved m I (fun done => done) (r.assemble owner row s)
      (r.assemble (m.perm owner) row s') := by
  cases r with
  | mk id target fixer policy =>
    unfold Relation.assemble at hlast ⊢
    have hkept := steps_handle?.transform target row s _ _ howner
    have htransformed := Transformer.transform_moved target hkeyed hblind.1 row hI h
      ((Outcome.size_andThen fun related s₁ => by
        cases related with
        | none => exact Nat.le_refl _
        | some related => exact steps_size.fix ⟨id, policy, fixer, owner, related⟩ s₁).trans hlast)
    refine htransformed.andThen fun related s₁ s₁' htransform h₁ => ?_
    rw [htransform] at hkept
    cases related with
    | none => exact ⟨rfl, h₁⟩
    | some related =>
      obtain ⟨rid, hrid, hrelated⟩ := Transformer.handle?_of_transform hkeyed htransform
      exact ⟨rfl, applyFixer_moved id hblind.2.isOpaque policy hoid (hI rid hrid) h₁ hkept
        hrelated⟩

/-- Relations in order. -/
theorem Relation.assembleAll_moved (relations : List (Relation α))
    (hkeyed : Relation.AllKeyed relations) (hblind : Relation.AllOpaque m.old relations)
    (row : Row) (hI : ∀ id ∈ Relation.allIdentities relations row, id ∈ I)
    {oid : BeanKind × Key} (hoid : oid ∈ I) {owner : BeanId} {s s' : State α}
    (h : s.Moves m I s') (howner : s.handle? oid = some owner)
    (hlast : (assembleAll relations owner row s).2.heap.size ≤ m.last) :
    Outcome.Moved m I (fun done => done) (assembleAll relations owner row s)
      (assembleAll relations (m.perm owner) row s') := by
  cases relations with
  | nil => exact ⟨rfl, h⟩
  | cons r rest =>
    rw [Relation.allIdentities, List.forall_mem_append] at hI
    unfold assembleAll at hlast ⊢
    have hkept := steps_handle?.assemble r owner row s _ _ howner
    have hassembled := Relation.assemble_moved r hkeyed.1 hblind.1 row hI.1 hoid h howner
      ((Outcome.size_andThen fun _ s₁ => steps_size.assembleAll rest owner row s₁).trans hlast)
    refine hassembled.andThen fun _ s₁ s₁' hassemble h₁ => ?_
    rw [hassemble] at hkept hlast
    exact Relation.assembleAll_moved rest hkeyed.2 hblind.2 row hI.2 hoid h₁ hkept hlast

end

/-! ## Traversals -/

/-- Corresponding roots are handed over, or were before. -/
theorem Transformer.deliver_moved (seed : List BeanId) {id : BeanKind × Key} (hid : id ∈ I)
    {bean : BeanId} (h : s.Moves m I s') (hbean : s.handle? id = some bean) :
    Outcome.Moved m I (List.map m.perm) (Transformer.deliver Transformer.lister seed bean s)
      (Transformer.deliver Transformer.lister (seed.map m.perm) (m.perm bean) s') := by
  obtain ⟨-, -, -, htreated, hroot⟩ := h.bean_eq hid hbean
  unfold Transformer.deliver
  rw [hroot]
  cases s.context.isRoot bean with
  | true => exact ⟨rfl, h⟩
  | false =>
    have hlisted : (seed ++ [bean]).map m.perm = seed.map m.perm ++ [m.perm bean] := List.map_append
    refine ⟨congrArg Except.ok hlisted.symm, h.edit hid (h.tidy.edits_markRoot hbean)
      (h.tidy_right.edits_markRoot (h.handle?_right hid hbean)) ?_ (Nat.le_refl _) h.size⟩
    rw [Context.isTreated_markRoot, Context.isTreated_markRoot, htreated, Context.isRoot_markRoot,
      Context.isRoot_markRoot, hroot, beq_self_eq_true, beq_self_eq_true]
    cases s.see id <;> rfl

/-- Rows list corresponding roots. -/
theorem Transformer.traverseFrom_moved (t : Transformer α) (hkeyed : t.Keyed)
    (hblind : t.Opaque m.old) (seed : List BeanId) {rows : List Row}
    (hI : ∀ row ∈ rows, ∀ id ∈ t.identities row, id ∈ I) (h : s.Moves m I s')
    (hlast : (t.traverseFrom Transformer.lister seed (rows.map .ok) s).2.heap.size ≤ m.last) :
    Outcome.Moved m I (List.map m.perm)
      (t.traverseFrom Transformer.lister seed (rows.map .ok) s)
      (t.traverseFrom Transformer.lister (seed.map m.perm) (rows.map .ok) s') := by
  induction rows generalizing seed s s' with
  | nil => exact ⟨rfl, h⟩
  | cons row rest ih =>
    obtain ⟨hrow, hrest⟩ := List.forall_mem_cons.mp hI
    rw [List.map_cons, Transformer.traverseFrom] at hlast ⊢
    have hmark : ∀ (s : State α) (bean : BeanId),
        s.heap.size ≤ ({ s with context := s.context.markRoot bean } : State α).heap.size :=
      fun _ _ => Nat.le_refl _
    have hgrown := steps_size.traverseFrom t Transformer.lister hmark
    have htransformed := t.transform_moved hkeyed hblind row hrow h
      ((Outcome.size_andThen fun root s₁ => ?_).trans hlast)
    · refine htransformed.andThen fun root s₁ s₁' htransform h₁ => ?_
      rw [htransform] at hlast
      cases root with
      | none => exact ih seed hrest h₁ hlast
      | some bean =>
        obtain ⟨id, hid, hhandle⟩ := Transformer.handle?_of_transform hkeyed htransform
        refine (Transformer.deliver_moved seed (hrow id hid) h₁ hhandle).andThen
          fun seed' s₂ s₂' hdeliver h₂ => ih seed' hrest h₂ ?_
        have hlast₂ : ((Transformer.deliver Transformer.lister seed bean s₁).andThen fun seed s =>
            t.traverseFrom Transformer.lister seed (rest.map .ok) s).2.heap.size ≤ m.last := hlast
        rw [hdeliver] at hlast₂
        exact hlast₂
    · cases root with
      | none => exact hgrown seed _ s₁
      | some bean =>
        exact (steps_size.deliver Transformer.lister hmark seed bean s₁).trans
          (Outcome.size_andThen fun seed' s₂ => hgrown seed' _ s₂)

end Steps

end SqlGraph.Graph
