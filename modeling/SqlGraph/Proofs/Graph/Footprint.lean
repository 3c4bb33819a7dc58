import Mathlib.Data.Set.Basic
import SqlGraph.Proofs.Graph.Roots

/-!
# The beans that a row touches

The kinds and keys of the beans that a row is turned into can be read off the row
(`Transformer.identities`): they are those that its calls of factories ask for
(`Transformer.filterMap_productions`), whatever the state.

All that a traversal knows of the bean of a kind and key is what is *seen* of it: its handle and
content, the relations treated for it, and whether it was handed over as a root (`State.see`). Every
step edits what is seen of one bean, if anything (`State.Edits`), so a row changes nothing that is
seen of other beans than its own, and nothing at all about beans that were there before the
traversal: `State.Within` and `Transformer.within`.
-/

namespace SqlGraph.Graph

variable {α : Type}

/-! ## Kinds and keys of a row -/

mutual

/-- The factories find their beans by keys, at every level. -/
def Transformer.Keyed : Transformer α → Prop
  | .mk factory _ relations => factory.keyColumns.isSome = true ∧ Relation.AllKeyed relations

/-- The target is keyed. -/
def Relation.Keyed : Relation α → Prop
  | .mk _ target _ _ => target.Keyed

/-- All relations are keyed. -/
def Relation.AllKeyed : List (Relation α) → Prop
  | [] => True
  | r :: rest => r.Keyed ∧ Relation.AllKeyed rest

end

mutual

/-- The kinds and keys of the beans that a row is turned into; a key with a null component gives
no bean, and no related beans either. -/
def Transformer.identities : Transformer α → Row → List (BeanKind × Key)
  | .mk factory _ relations, row =>
    match factory.key? row with
    | none => []
    | some key => (factory.kind, key) :: Relation.allIdentities relations row

/-- The kinds and keys of the related beans of a relation. -/
def Relation.identities : Relation α → Row → List (BeanKind × Key)
  | .mk _ target _ _, row => target.identities row

/-- The kinds and keys of the related beans of relations. -/
def Relation.allIdentities : List (Relation α) → Row → List (BeanKind × Key)
  | [], _ => []
  | r :: rest, row => r.identities row ++ Relation.allIdentities rest row

end

section Produce

variable {f : Factory α} {row : Row} {key : Key}

/-- A row with a key finds its bean, or constructs and remembers it. -/
theorem Factory.produce_of_key? (hkey : f.key? row = some key) (s : State α) :
    f.produce row s =
      match s.context.cached? f.kind key with
      | some bean => (.ok (some (bean, false)), s)
      | none => (.ok (some (s.heap.size, true)),
          ⟨(s.heap.construct f.kind (f.construct key)).2,
            s.context.remember f.kind key s.heap.size⟩) := by
  unfold key? Production.key? at hkey
  unfold produce
  cases hcolumns : f.keyColumns with
  | none => simp [hcolumns] at hkey
  | some labels =>
    cases hvalues : readAll row labels with
    | error e => simp [hcolumns, hvalues] at hkey
    | ok values =>
      simp only [hcolumns, hvalues, Option.filter_some] at hkey
      obtain ⟨hnull, rfl⟩ : (Key.mk values).isNull = false ∧ Key.mk values = key := by
        simpa using hkey
      simp only [hvalues, hnull, Bool.false_eq_true, if_false]
      cases s.context.cached? f.kind ⟨values⟩ <;> rfl

/-- A row without key leaves every state as it is. -/
theorem Factory.produce_of_no_key? (hkeyed : f.keyColumns.isSome = true)
    (hkey : f.key? row = none) :
    (∀ s, f.produce row s = (.ok none, s)) ∨ ∃ e, ∀ s, f.produce row s = (.error e, s) := by
  obtain ⟨labels, hcolumns⟩ := Option.isSome_iff_exists.mp hkeyed
  unfold key? Production.key? at hkey
  unfold produce
  simp only [hcolumns] at hkey ⊢
  cases hvalues : readAll row labels with
  | error e => exact .inr ⟨e, fun s => by simp only⟩
  | ok values =>
    have hnull : (Key.mk values).isNull = true := by simpa [hvalues] using hkey
    exact .inl fun s => by simp only [hnull, if_true]

end Produce

mutual

/-- When a row is read without error, its calls of factories ask for the kinds and keys of the
row. -/
theorem Transformer.filterMap_productions (t : Transformer α) (hkeyed : t.Keyed) (row : Row)
    {s s' : State α} {root : Option BeanId} (h : t.transform row s = (.ok root, s')) :
    (t.productions row s).filterMap Production.identity? = t.identities row := by
  cases t with
  | mk factory columns relations =>
    obtain ⟨hcolumns, hrelations⟩ := hkeyed
    have hidentity := (Production.mk factory row s).identity?_eq
    rw [Transformer.transform] at h
    rw [Transformer.productions, Transformer.identities]
    obtain ⟨made, s₁, hproduce, h⟩ := Outcome.andThen_eq_ok h
    cases hkey : factory.key? row with
    | none =>
      rw [hkey] at hidentity
      have hnone : made = none := by
        rcases Factory.produce_of_no_key? hcolumns hkey with hall | ⟨e, hall⟩
        · rw [hall] at hproduce
          exact (Except.ok.inj (Prod.mk.inj hproduce).1).symm
        · rw [hall] at hproduce
          exact absurd (Prod.mk.inj hproduce).1 (by simp)
      rw [hproduce, hnone, List.filterMap_cons_none hidentity]
      rfl
    | some key =>
      rw [hkey] at hidentity
      obtain ⟨⟨bean, fresh⟩, rfl⟩ : ∃ pair, made = some pair := by
        rw [Factory.produce_of_key? hkey] at hproduce
        split at hproduce <;> exact ⟨_, (Except.ok.inj (Prod.mk.inj hproduce).1).symm⟩
      obtain ⟨⟨⟩, s₂, hfill, h⟩ := Outcome.andThen_eq_ok h
      obtain ⟨⟨⟩, s₃, hassemble, -⟩ := Outcome.andThen_eq_ok h
      have hrest := Relation.filterMap_productionsAll relations hrelations row hassemble
      simp only [hproduce, hfill]
      rw [List.filterMap_cons_some hidentity, hrest]

/-- The calls for the related bean of a relation. -/
theorem Relation.filterMap_productions (r : Relation α) (hkeyed : r.Keyed) (row : Row)
    {owner : BeanId} {s s' : State α} (h : r.assemble owner row s = (.ok (), s')) :
    (r.productions row s).filterMap Production.identity? = r.identities row := by
  cases r with
  | mk id target fixer policy =>
    rw [Relation.assemble] at h
    obtain ⟨related, s₁, htransform, -⟩ := Outcome.andThen_eq_ok h
    exact Transformer.filterMap_productions target hkeyed row htransform

/-- The calls for the related beans of relations. -/
theorem Relation.filterMap_productionsAll (relations : List (Relation α))
    (hkeyed : Relation.AllKeyed relations) (row : Row) {owner : BeanId} {s s' : State α}
    (h : assembleAll relations owner row s = (.ok (), s')) :
    (productionsAll relations owner row s).filterMap Production.identity? =
      Relation.allIdentities relations row := by
  cases relations with
  | nil => rfl
  | cons r rest =>
    rw [assembleAll] at h
    obtain ⟨⟨⟩, s₁, hassemble, h⟩ := Outcome.andThen_eq_ok h
    have hr := Relation.filterMap_productions r hkeyed.1 row hassemble
    have hrest := Relation.filterMap_productionsAll rest hkeyed.2 row h
    rw [productionsAll, Relation.allIdentities, List.filterMap_append, hr, hassemble]
    exact congrArg _ hrest

end

/-! ## Marks -/

namespace Context

variable (c : Context) (bean : BeanId) (relation : RelationId)

theorem cache_treat : (c.treat bean relation).cache = c.cache := by
  unfold treat
  split <;> rfl

theorem isRoot_treat : (c.treat bean relation).isRoot = c.isRoot := by
  unfold treat
  split <;> rfl

theorem cache_markRoot : (c.markRoot bean).cache = c.cache := by
  unfold markRoot
  split <;> rfl

theorem isTreated_markRoot : (c.markRoot bean).isTreated = c.isTreated := by
  unfold markRoot
  split <;> rfl

/-- What is a root after one more bean is. -/
theorem isRoot_markRoot (other : BeanId) :
    (c.markRoot bean).isRoot other = (c.isRoot other || other == bean) := by
  unfold markRoot
  cases hold : c.isRoot bean with
  | true =>
    -- the bean is among the roots already
    rw [if_pos rfl, Bool.eq_iff_iff, Bool.or_eq_true, beq_iff_eq]
    refine ⟨.inl, ?_⟩
    rintro (h | rfl)
    · exact h
    · exact hold
  | false =>
    rw [if_neg Bool.false_ne_true]
    unfold isRoot
    rw [List.contains_cons, Bool.or_comm]

end Context

/-! ## What is seen of a bean -/

/-- What a traversal knows of the bean of a kind and key. -/
structure Seen (α : Type) where
  bean : BeanId
  content : α
  /-- the relations that were assembled for the bean -/
  treated : RelationId → Bool
  /-- whether the bean was handed over -/
  root : Bool

namespace State

/-- The handle of the bean of a kind and key. -/
def handle? (s : State α) (id : BeanKind × Key) : Option BeanId := s.context.cached? id.1 id.2

/-- What is known of the bean of a kind and key. -/
def see (s : State α) (id : BeanKind × Key) : Option (Seen α) :=
  (s.look id.1 id.2).map fun found =>
    ⟨found.1, found.2, s.context.isTreated found.1, s.context.isRoot found.1⟩

/-- A sound state in which the traversal has built, treated and handed over nothing but beans that
exist, and no bean that was there before the traversal has a key. -/
structure Tidy (old : Nat) (s : State α) : Prop extends s.Sound where
  old_le_size : old ≤ s.heap.size
  old_le_of_handle? : ∀ {id bean}, s.handle? id = some bean → old ≤ bean
  lt_of_isTreated : ∀ {bean relation}, s.context.isTreated bean relation = true →
    bean < s.heap.size
  lt_of_isRoot : ∀ {bean}, s.context.isRoot bean = true → bean < s.heap.size

/-- A traversal starts tidy. -/
theorem tidy_start (heap : Heap α) : Tidy heap.size ({ heap := heap } : State α) where
  toSound := sound_of_empty heap
  old_le_size := Nat.le_refl _
  old_le_of_handle? h := by simp [handle?, Context.cached?] at h
  lt_of_isTreated h := by simp [Context.isTreated] at h
  lt_of_isRoot h := by simp [Context.isRoot] at h

namespace Tidy

variable {old : Nat} {s : State α} {id : BeanKind × Key} {bean : BeanId} (hs : s.Tidy old)
include hs

/-- The bean of a handle is seen. -/
theorem see_of_handle? (h : s.handle? id = some bean) :
    ∃ a, s.look id.1 id.2 = some (bean, a) ∧
      s.see id = some ⟨bean, a, s.context.isTreated bean, s.context.isRoot bean⟩ := by
  obtain ⟨a, ha⟩ := hs.bean?_of_cached h
  have hlook : s.look id.1 id.2 = some (bean, a) := hs.look_eq_some.mpr ⟨h, ha⟩
  exact ⟨a, hlook, congrArg (Option.map _) hlook⟩

/-- What is seen has the handle. -/
theorem handle?_eq : s.handle? id = (s.see id).map Seen.bean := by
  cases h : s.handle? id with
  | none =>
    have hlook : s.look id.1 id.2 = none := hs.look_eq_none.mpr h
    rw [see, hlook]
    rfl
  | some bean =>
    obtain ⟨a, -, hsee⟩ := hs.see_of_handle? h
    rw [hsee]
    rfl

/-- The content of a handle is the one seen. -/
theorem content?_of_see {v : Seen α} (h : s.see id = some v) :
    s.handle? id = some v.bean ∧ s.heap.content? v.bean = some v.content := by
  have hhandle : s.handle? id = some v.bean := by rw [hs.handle?_eq, h, Option.map_some]
  obtain ⟨a, hlook, hsee⟩ := hs.see_of_handle? hhandle
  have hcontent : v.content = a := congrArg Seen.content (Option.some.inj (h.symm.trans hsee))
  refine ⟨hhandle, ?_⟩
  rw [Heap.content?, (hs.look_eq_some.mp hlook).2, hcontent]
  rfl

end Tidy

/-! ## Edits -/

/-- What is seen of one bean is edited, and the state stays tidy. -/
structure Edits (old : Nat) (s : State α) (id : BeanKind × Key)
    (edit : Option (Seen α) → Option (Seen α)) (s' : State α) : Prop where
  tidy : s'.Tidy old
  see_self : s'.see id = edit (s.see id)
  see_of_ne : ∀ {other}, other ≠ id → s'.see other = s.see other
  bean?_old : ∀ bean < old, s'.heap.bean? bean = s.heap.bean? bean

namespace Tidy

variable {old : Nat} {s : State α} {id : BeanKind × Key} {bean : BeanId} (hs : s.Tidy old)
include hs

/-- A bean is constructed: nothing is treated for it, and it is no root yet. -/
theorem edits_construct (id : BeanKind × Key) (a : α) :
    s.Edits old id (fun _ => some ⟨s.heap.size, a, fun _ => false, false⟩)
      { heap := (s.heap.construct id.1 a).2,
        context := s.context.remember id.1 id.2 s.heap.size } := by
  have hputs := hs.puts_construct id.1 id.2 a
  have hsize := Heap.size_construct s.heap id.1 a
  have htreated : s.context.isTreated s.heap.size = fun _ => false := by
    funext relation
    rw [Bool.eq_false_iff]
    exact fun hmark => Nat.lt_irrefl _ (hs.lt_of_isTreated hmark)
  have hroot : s.context.isRoot s.heap.size = false := by
    rw [Bool.eq_false_iff]
    exact fun hmark => Nat.lt_irrefl _ (hs.lt_of_isRoot hmark)
  constructor
  · refine ⟨hputs.sound, ?_, fun {other bean} hother => ?_, fun hmark => ?_, fun hmark => ?_⟩
    · show old ≤ (s.heap.construct id.1 a).2.size
      rw [hsize]
      exact Nat.le_succ_of_le hs.old_le_size
    · unfold handle? at hother
      rw [Context.cached?_remember] at hother
      split at hother
      · rw [← Option.some.inj hother]
        exact hs.old_le_size
      · exact hs.old_le_of_handle? hother
    · exact Nat.lt_of_lt_of_eq (Nat.lt_succ_of_lt (hs.lt_of_isTreated hmark)) hsize.symm
    · exact Nat.lt_of_lt_of_eq (Nat.lt_succ_of_lt (hs.lt_of_isRoot hmark)) hsize.symm
  · rw [see, hputs.look_self, ← htreated, ← hroot]
    rfl
  · intro other hne
    rw [see, hputs.look_of_ne fun heq => hne (Prod.ext heq.1 heq.2)]
    rfl
  · intro bean hbean
    have hne : bean ≠ s.heap.size := Nat.ne_of_lt (Nat.lt_of_lt_of_le hbean hs.old_le_size)
    rw [Heap.bean?_construct, if_neg hne]

/-- The content of a bean is changed. -/
theorem edits_modify (h : s.handle? id = some bean) (f : α → α) :
    s.Edits old id (Option.map fun v => { v with content := f v.content })
      { s with heap := s.heap.modify bean f } := by
  obtain ⟨a, hlook, hsee⟩ := hs.see_of_handle? h
  have hputs := hs.puts_modify hlook f
  have hsize := Heap.size_modify s.heap bean f
  constructor
  · refine ⟨hputs.sound, ?_, hs.old_le_of_handle?, fun hmark => ?_, fun hmark => ?_⟩
    · exact hs.old_le_size.trans_eq hsize.symm
    · exact Nat.lt_of_lt_of_eq (hs.lt_of_isTreated hmark) hsize.symm
    · exact Nat.lt_of_lt_of_eq (hs.lt_of_isRoot hmark) hsize.symm
  · rw [see, hputs.look_self, hsee]
    rfl
  · intro other hne
    rw [see, hputs.look_of_ne fun heq => hne (Prod.ext heq.1 heq.2)]
    rfl
  · intro other hother
    have hne : other ≠ bean := Nat.ne_of_lt (Nat.lt_of_lt_of_le hother (hs.old_le_of_handle? h))
    rw [Heap.bean?_modify, if_neg hne]

/-- The marks of a bean are changed, those of the others stay. -/
theorem edits_marks (h : s.handle? id = some bean) {c : Context}
    (hcache : c.cache = s.context.cache)
    (hothers : ∀ other, other ≠ bean → c.isTreated other = s.context.isTreated other ∧
      c.isRoot other = s.context.isRoot other) :
    s.Edits old id
      (Option.map fun v => { v with treated := c.isTreated bean, root := c.isRoot bean })
      { s with context := c } := by
  obtain ⟨a, hlook, hsee⟩ := hs.see_of_handle? h
  have hcached : ∀ kind key, c.cached? kind key = s.context.cached? kind key := by
    intro kind key
    rw [Context.cached?, hcache]
    rfl
  have hlook' : ∀ kind key, State.look { s with context := c } kind key = s.look kind key := by
    intro kind key
    rw [look, hcached]
    rfl
  have hbean : bean < s.heap.size :=
    (List.getElem?_eq_some_iff.mp (hs.look_eq_some.mp hlook).2).1
  constructor
  · refine ⟨⟨fun hc => ?_, fun hc hc' => ?_⟩, hs.old_le_size, fun {other b} hother => ?_,
      fun {other relation} hmark => ?_, fun {other} hmark => ?_⟩
    · exact hs.bean?_of_cached ((hcached _ _).symm.trans hc)
    · exact hs.key_unique ((hcached _ _).symm.trans hc) ((hcached _ _).symm.trans hc')
    · exact hs.old_le_of_handle? ((hcached _ _).symm.trans hother)
    · by_cases heq : other = bean
      · exact heq ▸ hbean
      · change c.isTreated other relation = true at hmark
        rw [(hothers other heq).1] at hmark
        exact hs.lt_of_isTreated hmark
    · by_cases heq : other = bean
      · exact heq ▸ hbean
      · change c.isRoot other = true at hmark
        rw [(hothers other heq).2] at hmark
        exact hs.lt_of_isRoot hmark
  · rw [see, hlook', hlook, hsee]
    rfl
  · intro other hne
    rw [see, hlook', see]
    cases hfound : s.look other.1 other.2 with
    | none => rfl
    | some found =>
      -- the bean of another kind and key is another bean
      have hcachedFound := (hs.look_eq_some.mp hfound).1
      have hnot : found.1 ≠ bean := by
        intro heq
        have hid := hs.eq_of_cached hcachedFound (heq ▸ h)
        exact hne (Prod.ext hid.1 hid.2)
      obtain ⟨htreated, hroot⟩ := hothers found.1 hnot
      simp only [Option.map_some, htreated, hroot]
  · exact fun _ _ => rfl

/-- A relation is treated for a bean. -/
theorem edits_treat (h : s.handle? id = some bean) (relation : RelationId) :
    s.Edits old id
      (Option.map fun v => { v with
        treated := (s.context.treat bean relation).isTreated bean
        root := (s.context.treat bean relation).isRoot bean })
      { s with context := s.context.treat bean relation } := by
  refine hs.edits_marks h (s.context.cache_treat bean relation) fun other hne => ⟨?_, ?_⟩
  · funext otherRelation
    simp [Context.isTreated_treat, Ne.symm hne]
  · rw [Context.isRoot_treat]

/-- A bean is handed over. -/
theorem edits_markRoot (h : s.handle? id = some bean) :
    s.Edits old id
      (Option.map fun v => { v with
        treated := (s.context.markRoot bean).isTreated bean
        root := (s.context.markRoot bean).isRoot bean })
      { s with context := s.context.markRoot bean } := by
  refine hs.edits_marks h (s.context.cache_markRoot bean) fun other hne => ⟨?_, ?_⟩
  · rw [Context.isTreated_markRoot]
  · simp [Context.isRoot_markRoot, hne]

end Tidy

/-! ## Rows -/

/-- Nothing has changed but what is seen of some kinds and keys. -/
structure Within (old : Nat) (J : Set (BeanKind × Key)) (s s' : State α) : Prop where
  tidy : s'.Tidy old
  see_of_notMem : ∀ {id}, id ∉ J → s'.see id = s.see id
  bean?_old : ∀ bean < old, s'.heap.bean? bean = s.heap.bean? bean

namespace Within

variable {old : Nat} {J : Set (BeanKind × Key)} {s s' s'' : State α}

theorem refl (hs : s.Tidy old) : s.Within old J s := ⟨hs, fun _ => rfl, fun _ _ => rfl⟩

theorem trans (h : s.Within old J s') (h' : s'.Within old J s'') : s.Within old J s'' where
  tidy := h'.tidy
  see_of_notMem hid := (h'.see_of_notMem hid).trans (h.see_of_notMem hid)
  bean?_old bean hbean := (h'.bean?_old bean hbean).trans (h.bean?_old bean hbean)

theorem andThen {β γ : Type} {o : Outcome α β} {next : β → State α → Outcome α γ}
    (h : s.Within old J o.2)
    (hnext : ∀ b s₁, o = (.ok b, s₁) → s₁.Within old J (next b s₁).2) :
    s.Within old J (o.andThen next).2 := by
  obtain ⟨e | b, s₁⟩ := o
  · exact h
  · exact h.trans (hnext b s₁ rfl)

end Within

/-- An edit changes what is seen of one kind and key. -/
theorem Edits.within {old : Nat} {J : Set (BeanKind × Key)} {s s' : State α}
    {id : BeanKind × Key} {edit : Option (Seen α) → Option (Seen α)}
    (h : s.Edits old id edit s') (hid : id ∈ J) : s.Within old J s' where
  tidy := h.tidy
  see_of_notMem hother := h.see_of_ne fun heq => hother (heq ▸ hid)
  bean?_old := h.bean?_old

end State

/-- Beans keep their handles, whatever happens. -/
theorem steps_handle? :
    Steps fun (s : State α) _ s' => ∀ id bean, s.handle? id = some bean →
      s'.handle? id = some bean where
  refl _ _ _ h := h
  trans h h' id bean hbean := h' id bean (h id bean hbean)
  produce p id bean h := by
    unfold State.handle? at h ⊢
    rcases p.effect with ⟨-, hcache, -⟩ | ⟨-, -, hafter⟩ | ⟨-, -, -, hafter⟩ |
      ⟨-, -, hcached, hcontext, -⟩
    · rw [Context.cached?, hcache]
      exact h
    · rw [hafter]
      exact h
    · rw [hafter]
      exact h
    · rename_i built
      rw [hcontext, Context.cached?_remember]
      -- the bean that is built had no handle before
      have hne : ¬ (id.1 = built.1 ∧ id.2 = built.2) := by
        intro heq
        rw [heq.1, heq.2, hcached] at h
        exact Option.some_ne_none _ h.symm
      rw [if_neg hne]
      exact h
  fill c bean row s id other h := by
    rw [State.handle?, Context.cached?, (c.sameBeans_fill bean row s).cache_eq]
    exact h
  fix a s id other h := by
    have hsame := sameBeans_applyFixer a.owner a.related s a.relation a.fixer a.policy
    rw [State.handle?, Context.cached?, Assembly.apply, hsame.cache_eq]
    exact h

/-- Steps only construct beans. -/
theorem steps_size : Steps fun (s : State α) _ s' => s.heap.size ≤ s'.heap.size where
  refl _ := Nat.le_refl _
  trans h h' := h.trans h'
  produce p := by
    rcases p.after_cases with ⟨hafter, -⟩ | ⟨content, hheap, -⟩
    · rw [hafter]
    · rw [hheap, Heap.size_construct]
      exact Nat.le_succ _
  fill c bean row s := (c.sameBeans_fill bean row s).size_eq.ge
  fix a s := (sameBeans_applyFixer a.owner a.related s a.relation a.fixer a.policy).size_eq.ge

/-! ## Kinds -/

/-- Every bean is still there, and of its kind. -/
def Heap.KeepsKinds (h h' : Heap α) : Prop :=
  ∀ bean kind a, h.bean? bean = some ⟨kind, a⟩ → ∃ a', h'.bean? bean = some ⟨kind, a'⟩

namespace Heap

variable {h h' h'' : Heap α}

theorem KeepsKinds.refl (h : Heap α) : h.KeepsKinds h := fun _ _ a hbean => ⟨a, hbean⟩

theorem KeepsKinds.trans (hk : h.KeepsKinds h') (hk' : h'.KeepsKinds h'') : h.KeepsKinds h'' := by
  intro bean kind a hbean
  obtain ⟨a', hbean'⟩ := hk bean kind a hbean
  exact hk' bean kind a' hbean'

theorem keepsKinds_construct (h : Heap α) (kind : BeanKind) (content : α) :
    h.KeepsKinds (h.construct kind content).2 := by
  intro bean kind' a hbean
  have hne : bean ≠ h.size := by
    rintro rfl
    rw [bean?_size] at hbean
    cases hbean
  exact ⟨a, by rw [bean?_construct, if_neg hne, hbean]⟩

theorem keepsKinds_modify (h : Heap α) (bean : BeanId) (f : α → α) :
    h.KeepsKinds (h.modify bean f) := by
  intro other kind a hother
  by_cases heq : other = bean
  · exact ⟨f a, by rw [bean?_modify, if_pos heq, ← heq, hother]; rfl⟩
  · exact ⟨a, by rw [bean?_modify, if_neg heq, hother]⟩

end Heap

theorem Fixer.keepsKinds_fix (fixer : Fixer α) (owner related : BeanId) (heap : Heap α) :
    heap.KeepsKinds (fixer.fix owner related heap) := by
  induction fixer generalizing owner related heap with
  | wire link => exact heap.keepsKinds_modify owner _
  | withReverse forward reverse ihf ihr =>
    exact (ihf owner related heap).trans (ihr related owner _)

/-- Steps leave every bean of its kind. -/
theorem steps_kinds : Steps fun (s : State α) _ s' => s.heap.KeepsKinds s'.heap where
  refl s := .refl s.heap
  trans h h' := h.trans h'
  produce p := by
    rcases p.after_cases with ⟨hafter, -⟩ | ⟨content, hheap, -⟩
    · rw [hafter]
      exact .refl _
    · rw [hheap]
      exact Heap.keepsKinds_construct _ _ _
  fill c bean row s := by
    rcases c.fill_cases bean row s with ⟨hstate, -⟩ | ⟨content, hstate, -⟩ <;> rw [hstate]
    · exact .refl _
    · exact Heap.keepsKinds_modify _ _ _
  fix a s := by
    rcases a.apply_cases s with ⟨-, -, hstate, -⟩ | ⟨-, -, hstate, -⟩ | ⟨-, hstate, -⟩ <;>
      rw [hstate]
    · exact .refl _
    · exact a.fixer.keepsKinds_fix _ _ _
    · exact a.fixer.keepsKinds_fix _ _ _

/-- What leaves the cache and the kinds of beans keeps a state sound. -/
theorem State.Sound.of_cache_eq {s s' : State α} (hs : s.Sound)
    (hcache : s'.context.cache = s.context.cache) (hkinds : s.heap.KeepsKinds s'.heap) :
    s'.Sound := by
  have hcached : s'.context.cached? = s.context.cached? := by
    funext kind key
    rw [Context.cached?, Context.cached?, hcache]
  constructor
  · intro kind key bean h
    rw [hcached] at h
    obtain ⟨a, ha⟩ := hs.bean?_of_cached h
    exact hkinds bean kind a ha
  · intro kind key key' bean h h'
    rw [hcached] at h h'
    exact hs.key_unique h h'

/-- Steps keep a state sound. -/
theorem steps_sound : Steps fun (s : State α) _ s' => s.Sound → s'.Sound where
  refl _ h := h
  trans h h' hs := h' (h hs)
  produce p hs := by
    rcases p.effect with ⟨-, hcache, -⟩ | ⟨-, -, hafter⟩ | ⟨-, -, -, hafter⟩ |
      ⟨hidentity, -, hcached, hcontext, hsize⟩
    · exact hs.of_cache_eq hcache (steps_kinds.produce p)
    · exact hafter ▸ hs
    · exact hafter ▸ hs
    · rename_i id
      obtain ⟨content, hheap⟩ : ∃ content,
          p.after.heap = (p.before.heap.construct p.factory.kind content).2 := by
        rcases p.after_cases with ⟨hafter, -⟩ | ⟨content, hheap, -⟩
        · rw [hafter] at hsize
          exact absurd hsize.symm (Nat.succ_ne_self _)
        · exact ⟨content, hheap⟩
      have hkind : id.1 = p.factory.kind := by
        rw [Production.identity?_eq] at hidentity
        obtain ⟨key, -, rfl⟩ := Option.map_eq_some_iff.mp hidentity
        rfl
      have hbuilt := (hs.puts_construct id.1 id.2 content).sound
      rw [hkind] at hcontext hbuilt
      rw [← hheap, ← hcontext] at hbuilt
      exact hbuilt
  fill c bean row s hs :=
    hs.of_cache_eq (c.sameBeans_fill bean row s).cache_eq (steps_kinds.fill c bean row s)
  fix a s hs :=
    hs.of_cache_eq (sameBeans_applyFixer a.owner a.related s a.relation a.fixer a.policy).cache_eq
      (steps_kinds.fix a s)

/-- All that a factory can do with a row, with all that it leaves. -/
inductive Factory.Does (f : Factory α) (row : Row) (s : State α) :
    Outcome α (Option (BeanId × Bool)) → Prop where
  /-- the key cannot be read -/
  | failed (e : Error) : Does f row s (.error e, s)
  /-- the key has a null component -/
  | absent (hkey : f.key? row = none) : Does f row s (.ok none, s)
  /-- the bean of the key is in the cache -/
  | found {key : Key} {bean : BeanId} (hkey : f.key? row = some key)
    (hcached : s.context.cached? f.kind key = some bean) :
    Does f row s (.ok (some (bean, false)), s)
  /-- a bean is constructed and remembered -/
  | built {key : Key} (hkey : f.key? row = some key)
    (hcached : s.context.cached? f.kind key = none) :
    Does f row s (.ok (some (s.heap.size, true)),
      ⟨(s.heap.construct f.kind (f.construct key)).2,
        s.context.remember f.kind key s.heap.size⟩)
  /-- a bean without key is constructed -/
  | unkeyed (hcolumns : f.keyColumns = none) :
    Does f row s (.ok (some (s.heap.size, true)),
      ⟨(s.heap.construct f.kind (f.construct ⟨[]⟩)).2, s.context.retain s.heap.size⟩)

theorem Factory.does (f : Factory α) (row : Row) (s : State α) :
    f.Does row s (f.produce row s) := by
  cases hcolumns : f.keyColumns with
  | none =>
    have houtcome : f.produce row s = (.ok (some (s.heap.size, true)),
        ⟨(s.heap.construct f.kind (f.construct ⟨[]⟩)).2, s.context.retain s.heap.size⟩) := by
      unfold Factory.produce
      rw [hcolumns]
      rfl
    rw [houtcome]
    exact .unkeyed hcolumns
  | some labels =>
    cases hkey : f.key? row with
    | none =>
      rcases Factory.produce_of_no_key? (by rw [hcolumns]; rfl) hkey with hall | ⟨e, hall⟩
      · rw [hall]
        exact .absent hkey
      · rw [hall]
        exact .failed e
    | some key =>
      rw [f.produce_of_key? hkey]
      cases hcached : s.context.cached? f.kind key with
      | some bean => exact .found hkey hcached
      | none => exact .built hkey hcached

/-- A column leaves all as it is, or puts what it makes of a content in its place. -/
theorem ColumnReader.fill_eq_or_consume (c : ColumnReader α) (bean : BeanId) (row : Row)
    (s : State α) :
    (c.fill bean row s).2 = s ∨
    ∃ v a a', s.heap.content? bean = some a ∧ c.consume v a = .ok a' ∧
      (c.fill bean row s).2 = { s with heap := s.heap.modify bean fun _ => a' } := by
  unfold ColumnReader.fill
  cases row c.label with
  | error e => exact .inl rfl
  | ok v =>
    cases hcontent : s.heap.content? bean with
    | none => exact .inl rfl
    | some a =>
      simp only
      cases hconsume : c.consume v a with
      | error e => exact .inl rfl
      | ok a' => exact .inr ⟨v, a, a', rfl, hconsume, rfl⟩

/-- A relation leaves all as it is, or applies its fixer, and at most marks it. -/
theorem applyFixer_eq_or_fix (id : RelationId) (fixer : Fixer α) (policy : Policy)
    (owner related : BeanId) (s : State α) :
    applyFixer id fixer policy owner related s = s ∨
    ∃ c, c.cache = s.context.cache ∧
      applyFixer id fixer policy owner related s = ⟨fixer.fix owner related s.heap, c⟩ := by
  unfold applyFixer
  cases policy with
  | eachRow => exact .inr ⟨s.context, rfl, rfl⟩
  | oncePerBean =>
    simp only
    split
    · exact .inl rfl
    · exact .inr ⟨_, Context.cache_treat _ _ _, rfl⟩

/-- A factory returns beans of its kind. -/
theorem Factory.bean?_of_produce {f : Factory α} {row : Row} {s s' : State α} (hs : s.Sound)
    {bean : BeanId} {fresh : Bool} (h : f.produce row s = (.ok (some (bean, fresh)), s')) :
    ∃ a, s'.heap.bean? bean = some ⟨f.kind, a⟩ := by
  have hdoes := f.does row s
  rw [h] at hdoes
  cases hdoes with
  | found _ hcached => exact hs.bean?_of_cached hcached
  | built => exact ⟨_, by rw [Heap.bean?_construct, if_pos rfl]⟩
  | unkeyed => exact ⟨_, by rw [Heap.bean?_construct, if_pos rfl]⟩

/-- A bean is returned when it was constructed or found, filled, and its relations assembled. -/
theorem Transformer.of_transform_eq_some {t : Transformer α} {row : Row} {s s' : State α}
    {bean : BeanId} (h : t.transform row s = (.ok (some bean), s')) :
    ∃ fresh s₁ s₂, t.factory.produce row s = (.ok (some (bean, fresh)), s₁) ∧
      fillAll bean row t.columns s₁ = (.ok (), s₂) ∧
      assembleAll t.relations bean row s₂ = (.ok (), s') := by
  cases t with
  | mk factory columns relations =>
    rw [Transformer.transform] at h
    obtain ⟨made, s₁, hproduce, h⟩ := Outcome.andThen_eq_ok h
    cases made with
    | none => cases (Prod.mk.inj h).1
    | some made =>
      obtain ⟨⟨⟩, s₂, hfill, h⟩ := Outcome.andThen_eq_ok h
      obtain ⟨⟨⟩, s₃, hassemble, h⟩ := Outcome.andThen_eq_ok h
      obtain ⟨hbean, rfl⟩ := Prod.mk.inj h
      obtain rfl : made.1 = bean := Option.some.inj (Except.ok.inj hbean)
      exact ⟨made.2, s₁, s₂, hproduce, hfill, hassemble⟩

/-- No bean is returned when the row has no key; nothing is done then. -/
theorem Transformer.of_transform_eq_none {t : Transformer α} {row : Row} {s s' : State α}
    (h : t.transform row s = (.ok none, s')) : t.factory.key? row = none ∧ s' = s := by
  cases t with
  | mk factory columns relations =>
    rw [Transformer.transform] at h
    obtain ⟨made, s₁, hproduce, h⟩ := Outcome.andThen_eq_ok h
    cases made with
    | none =>
      have hdoes := factory.does row s
      rw [hproduce] at hdoes
      cases hdoes with
      | absent hkey => exact ⟨hkey, (Prod.mk.inj h).2.symm⟩
    | some made =>
      obtain ⟨⟨⟩, s₂, hfill, h⟩ := Outcome.andThen_eq_ok h
      obtain ⟨⟨⟩, s₃, hassemble, h⟩ := Outcome.andThen_eq_ok h
      cases (Prod.mk.inj h).1

/-- A row is turned into a bean of the kind of the root. -/
theorem Transformer.kind_of_transform {t : Transformer α} {row : Row} {s s' : State α}
    (hs : s.Sound) {bean : BeanId} (h : t.transform row s = (.ok (some bean), s')) :
    ∃ a, s'.heap.bean? bean = some ⟨t.factory.kind, a⟩ := by
  obtain ⟨fresh, s₁, s₂, hproduce, hfill, hassemble⟩ := Transformer.of_transform_eq_some h
  obtain ⟨a, ha⟩ := Factory.bean?_of_produce hs hproduce
  have hfilled := steps_kinds.fillAll bean row t.columns s₁
  have hassembled := steps_kinds.assembleAll t.relations bean row s₂
  rw [hfill] at hfilled
  rw [hassemble] at hassembled
  exact (hfilled.trans hassembled) bean _ a ha

/-- What follows a step only constructs beans. -/
theorem Outcome.size_andThen {β γ : Type} {o : Outcome α β} {next : β → State α → Outcome α γ}
    (hnext : ∀ b s, s.heap.size ≤ (next b s).2.heap.size) :
    o.2.heap.size ≤ (o.andThen next).2.heap.size := by
  obtain ⟨e | b, s₁⟩ := o
  · exact Nat.le_refl _
  · exact hnext b s₁

section Within

variable {old : Nat} {J : Set (BeanKind × Key)} {s s' : State α} {row : Row}

/-- A keyed factory builds the bean of its key, if any. -/
theorem Factory.within_produce {f : Factory α} (hkeyed : f.keyColumns.isSome = true)
    (hJ : ∀ key, f.key? row = some key → (f.kind, key) ∈ J) (hs : s.Tidy old) :
    s.Within old J (f.produce row s).2 := by
  cases hkey : f.key? row with
  | none =>
    rcases Factory.produce_of_no_key? hkeyed hkey with hall | ⟨e, hall⟩ <;>
      exact hall s ▸ .refl hs
  | some key =>
    rw [f.produce_of_key? hkey]
    cases s.context.cached? f.kind key with
    | some bean => exact .refl hs
    | none => exact (hs.edits_construct (f.kind, key) _).within (hJ key hkey)

/-- The bean that a keyed factory gives has the handle of the key. -/
theorem Factory.handle?_of_produce {f : Factory α} (hkeyed : f.keyColumns.isSome = true)
    {bean : BeanId} {fresh : Bool} (h : f.produce row s = (.ok (some (bean, fresh)), s')) :
    ∃ key, f.key? row = some key ∧ s'.handle? (f.kind, key) = some bean := by
  cases hkey : f.key? row with
  | none =>
    rcases Factory.produce_of_no_key? hkeyed hkey with hall | ⟨e, hall⟩
    · exact absurd (Prod.mk.inj ((hall s).symm.trans h)).1 (by simp)
    · exact absurd (Prod.mk.inj ((hall s).symm.trans h)).1 (by simp)
  | some key =>
    refine ⟨key, rfl, ?_⟩
    rw [f.produce_of_key? hkey] at h
    cases hcached : s.context.cached? f.kind key with
    | some other =>
      rw [hcached] at h
      obtain ⟨hmade, rfl⟩ := Prod.mk.inj h
      obtain rfl := (Prod.mk.inj (Option.some.inj (Except.ok.inj hmade))).1
      exact hcached
    | none =>
      rw [hcached] at h
      obtain ⟨hmade, rfl⟩ := Prod.mk.inj h
      obtain rfl := (Prod.mk.inj (Option.some.inj (Except.ok.inj hmade))).1
      rw [State.handle?, Context.cached?_remember, if_pos ⟨rfl, rfl⟩]

/-- Columns fill their bean. -/
theorem within_fillAll (row : Row) {id : BeanKind × Key} {bean : BeanId} (hid : id ∈ J)
    (columns : List (ColumnReader α)) (hs : s.Tidy old) (h : s.handle? id = some bean) :
    s.Within old J (fillAll bean row columns s).2 := by
  induction columns generalizing s with
  | nil => exact .refl hs
  | cons c rest ih =>
    have hfill : s.Within old J (c.fill bean row s).2 := by
      rcases c.fill_cases bean row s with ⟨hstate, -⟩ | ⟨content, hstate, -⟩
      · rw [hstate]
        exact .refl hs
      · rw [hstate]
        exact (hs.edits_modify h fun _ => content).within hid
    have hkept := steps_handle?.fill c bean row s id bean h
    refine hfill.andThen fun _ s₁ hc => ?_
    rw [hc] at hfill hkept
    exact ih hfill.tidy hkept

/-- A fixer wires the owner and the related bean. -/
theorem Fixer.within_fix (fixer : Fixer α) {oid rid : BeanKind × Key} {owner related : BeanId}
    (hoid : oid ∈ J) (hrid : rid ∈ J) (hs : s.Tidy old) (howner : s.handle? oid = some owner)
    (hrelated : s.handle? rid = some related) :
    s.Within old J { s with heap := fixer.fix owner related s.heap } := by
  induction fixer generalizing oid rid owner related s with
  | wire link => exact (hs.edits_modify howner (link related)).within hoid
  | withReverse forward reverse ihf ihr =>
    have hforward := ihf hoid hrid hs howner hrelated
    exact hforward.trans (ihr hrid hoid hforward.tidy hrelated howner)

theorem within_applyFixer (id : RelationId) (fixer : Fixer α) (policy : Policy)
    {oid rid : BeanKind × Key} {owner related : BeanId} (hoid : oid ∈ J) (hrid : rid ∈ J)
    (hs : s.Tidy old) (howner : s.handle? oid = some owner)
    (hrelated : s.handle? rid = some related) :
    s.Within old J (applyFixer id fixer policy owner related s) := by
  have hfix := fixer.within_fix hoid hrid hs howner hrelated
  unfold applyFixer
  cases policy with
  | eachRow => exact hfix
  | oncePerBean =>
    cases s.context.isTreated owner id with
    | true => exact .refl hs
    | false => exact hfix.trans ((hfix.tidy.edits_treat howner id).within hoid)

/-- The root of a row is the bean of the key of the row. -/
theorem Transformer.key_of_transform {t : Transformer α}
    (hkeyed : t.factory.keyColumns.isSome = true) {bean : BeanId}
    (h : t.transform row s = (.ok (some bean), s')) :
    ∃ key, t.factory.key? row = some key ∧ s'.handle? (t.factory.kind, key) = some bean := by
  obtain ⟨fresh, s₁, s₂, hproduce, hfill, hassemble⟩ := Transformer.of_transform_eq_some h
  obtain ⟨key, hkey, hhandle⟩ := Factory.handle?_of_produce hkeyed hproduce
  -- columns and relations leave the handle
  have hfilled := steps_handle?.fillAll bean row t.columns s₁ _ _ hhandle
  rw [hfill] at hfilled
  have hassembled := steps_handle?.assembleAll t.relations bean row s₂ _ _ hfilled
  rw [hassemble] at hassembled
  exact ⟨key, hkey, hassembled⟩

/-- It is among the beans that the row is turned into. -/
theorem Transformer.handle?_of_transform {t : Transformer α} (hkeyed : t.Keyed)
    {bean : BeanId} (h : t.transform row s = (.ok (some bean), s')) :
    ∃ id ∈ t.identities row, s'.handle? id = some bean := by
  cases t with
  | mk factory columns relations =>
    have hcolumns : (Transformer.mk factory columns relations).factory.keyColumns.isSome = true :=
      hkeyed.1
    obtain ⟨key, hkey, hhandle⟩ := Transformer.key_of_transform hcolumns h
    refine ⟨_, ?_, hhandle⟩
    rw [Transformer.identities, show factory.key? row = some key from hkey]
    exact List.mem_cons_self

mutual

/-- A row changes nothing but what is seen of its own kinds and keys. -/
theorem Transformer.within (t : Transformer α) (hkeyed : t.Keyed) (row : Row)
    (hJ : ∀ id ∈ t.identities row, id ∈ J) {s : State α} (hs : s.Tidy old) :
    s.Within old J (t.transform row s).2 := by
  cases t with
  | mk factory columns relations =>
    rw [Transformer.identities] at hJ
    unfold Transformer.transform
    have hproduced : s.Within old J (factory.produce row s).2 := by
      refine factory.within_produce hkeyed.1 (fun key hkey => ?_) hs
      rw [hkey] at hJ
      exact hJ _ List.mem_cons_self
    refine hproduced.andThen fun made s₁ hproduce => ?_
    rw [hproduce] at hproduced
    cases made with
    | none => exact .refl hproduced.tidy
    | some made =>
      obtain ⟨key, hkey, hhandle⟩ := Factory.handle?_of_produce hkeyed.1 hproduce
      rw [hkey] at hJ
      have hid := hJ _ List.mem_cons_self
      have hrest : ∀ id ∈ Relation.allIdentities relations row, id ∈ J :=
        fun id hmem => hJ id (List.mem_cons_of_mem _ hmem)
      have hfilled := within_fillAll row hid columns hproduced.tidy hhandle
      have hkept := steps_handle?.fillAll made.1 row columns s₁ _ _ hhandle
      refine hfilled.andThen fun _ s₂ hfill => ?_
      rw [hfill] at hfilled hkept
      have hassembled := Relation.withinAll relations hkeyed.2 row hrest hid hfilled.tidy hkept
      refine hassembled.andThen fun _ s₃ hassemble => ?_
      rw [hassemble] at hassembled
      exact .refl hassembled.tidy

/-- A relation wires its owner and changes nothing else but what the related row changes. -/
theorem Relation.within (r : Relation α) (hkeyed : r.Keyed) (row : Row)
    (hJ : ∀ id ∈ r.identities row, id ∈ J) {oid : BeanKind × Key} {owner : BeanId}
    (hoid : oid ∈ J) {s : State α} (hs : s.Tidy old) (howner : s.handle? oid = some owner) :
    s.Within old J (r.assemble owner row s).2 := by
  cases r with
  | mk id target fixer policy =>
    unfold Relation.assemble
    have htransformed := Transformer.within target hkeyed row hJ hs
    have hkept := steps_handle?.transform target row s _ _ howner
    refine htransformed.andThen fun related s₁ htransform => ?_
    rw [htransform] at htransformed hkept
    cases related with
    | none => exact .refl htransformed.tidy
    | some related =>
      obtain ⟨rid, hrid, hrelated⟩ := Transformer.handle?_of_transform hkeyed htransform
      exact within_applyFixer id fixer policy hoid (hJ rid hrid) htransformed.tidy hkept hrelated

/-- Relations in order. -/
theorem Relation.withinAll (relations : List (Relation α)) (hkeyed : Relation.AllKeyed relations)
    (row : Row) (hJ : ∀ id ∈ Relation.allIdentities relations row, id ∈ J)
    {oid : BeanKind × Key} {owner : BeanId} (hoid : oid ∈ J) {s : State α} (hs : s.Tidy old)
    (howner : s.handle? oid = some owner) :
    s.Within old J (assembleAll relations owner row s).2 := by
  cases relations with
  | nil => exact .refl hs
  | cons r rest =>
    rw [Relation.allIdentities, List.forall_mem_append] at hJ
    unfold assembleAll
    have hassembled := Relation.within r hkeyed.1 row hJ.1 hoid hs howner
    have hkept := steps_handle?.assemble r owner row s _ _ howner
    refine hassembled.andThen fun _ s₁ hassemble => ?_
    rw [hassemble] at hassembled hkept
    exact Relation.withinAll rest hkeyed.2 row hJ.2 hoid hassembled.tidy hkept

end

/-! ## Traversals -/

section Traverse

variable {σ ω : Type} (acc : Accumulator (Delivery α) σ ω)

/-- Handing a root over marks its bean. -/
theorem Transformer.within_deliver (seed : σ) {id : BeanKind × Key} (hid : id ∈ J)
    {bean : BeanId} (hs : s.Tidy old) (h : s.handle? id = some bean) :
    s.Within old J (Transformer.deliver acc seed bean s).2 := by
  unfold Transformer.deliver
  split
  · exact .refl hs
  · exact (hs.edits_markRoot h).within hid

/-- Rows that are traversed change nothing but what is seen of their kinds and keys. -/
theorem Transformer.within_traverseFrom (t : Transformer α) (hkeyed : t.Keyed) (seed : σ)
    {rows : List Row} (hJ : ∀ row ∈ rows, ∀ id ∈ t.identities row, id ∈ J) (hs : s.Tidy old) :
    s.Within old J (t.traverseFrom acc seed (rows.map .ok) s).2 := by
  induction rows generalizing seed s with
  | nil => exact .refl hs
  | cons row rest ih =>
    obtain ⟨hrow, hrest⟩ := List.forall_mem_cons.mp hJ
    rw [List.map_cons, Transformer.traverseFrom]
    have htransformed := t.within hkeyed row hrow hs
    refine htransformed.andThen fun root s₁ htransform => ?_
    rw [htransform] at htransformed
    cases root with
    | none => exact ih seed hrest htransformed.tidy
    | some bean =>
      obtain ⟨id, hid, hhandle⟩ := Transformer.handle?_of_transform hkeyed htransform
      have hdelivered := Transformer.within_deliver acc seed (hrow id hid) htransformed.tidy hhandle
      refine hdelivered.andThen fun seed' s₂ hdeliver => ?_
      rw [hdeliver] at hdelivered
      exact ih seed' hrest hdelivered.tidy

end Traverse

end Within

end SqlGraph.Graph
