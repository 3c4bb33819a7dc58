import SqlGraph.Proofs.Graph.Footprint
import SqlGraph.Proofs.Graph.Layout

/-!
# Replaying a row

What a row does to a state is to construct beans and then to edit beans: the constructed ones can
just as well all be put at the end of the heap first (`Made.heap_eq`). A second time the beans are
found by their keys, nothing is constructed, and the very same edits are made (`Made.again`). Where
fields are written over by columns and links and collections keep what is added, the edits of each
bean, taken together, are such that making them twice is making them once. So replaying a row
changes nothing: `Transformer.transform_replay`.
-/

namespace SqlGraph.Graph

variable {α β γ : Type} {l : Layout α}

/-! ## The steps of a row -/

/-- The bean of a row, new or not. -/
def Factory.find (f : Factory α) (row : Row) (s : State α) : Outcome α (Option BeanId) :=
  (f.produce row s).andThen fun made s => (.ok (made.map (·.1)), s)

/-- Fills and wires the bean that was found for a row, if there is one. -/
def furnish (columns : List (ColumnReader α)) (relations : List (Relation α)) (row : Row) :
    Option BeanId → State α → Outcome α (Option BeanId)
  | none, s => (.ok none, s)
  | some bean, s =>
    (fillAll bean row columns s).andThen fun _ s =>
      (assembleAll relations bean row s).andThen fun _ s => (.ok (some bean), s)

/-- Wires in the related bean that was found for a row, if there is one. -/
def wireIn (id : RelationId) (fixer : Fixer α) (policy : Policy) (owner : BeanId) :
    Option BeanId → State α → Outcome α Unit
  | none, s => (.ok (), s)
  | some related, s => (.ok (), applyFixer id fixer policy owner related s)

/-- A row is transformed by finding its bean and furnishing it. -/
theorem Transformer.transform_eq (factory : Factory α) (columns : List (ColumnReader α))
    (relations : List (Relation α)) (row : Row) :
    (Transformer.mk factory columns relations).transform row = fun s =>
      (factory.find row s).andThen (furnish columns relations row) := by
  funext s
  rw [transform, Factory.find]
  rcases factory.produce row s with ⟨e | _ | made, s₁⟩ <;> rfl

/-- A relation is assembled by transforming the row and wiring the related bean in. -/
theorem Relation.assemble_eq (id : RelationId) (target : Transformer α) (fixer : Fixer α)
    (policy : Policy) (owner : BeanId) (row : Row) :
    (Relation.mk id target fixer policy).assemble owner row = fun s =>
      (target.transform row s).andThen (wireIn id fixer policy owner) := by
  funext s
  rw [assemble]
  rcases target.transform row s with ⟨e | _ | related, s₁⟩ <;> rfl

theorem assembleAll_cons (r : Relation α) (rest : List (Relation α)) (owner : BeanId) (row : Row) :
    assembleAll (r :: rest) owner row = fun s =>
      (r.assemble owner row s).andThen fun _ s => assembleAll rest owner row s := by
  funext s
  rw [assembleAll]

/-! ## Steps that are made once more -/

namespace State

variable {s s' s'' u : State α}

/-- Every bean in the cache exists. -/
def Anchored (s : State α) : Prop := ∀ id bean, s.handle? id = some bean → bean < s.heap.size

/-- Every bean in the cache of the one state is found under the same kind and key in the other. -/
def Knows (u s : State α) : Prop := ∀ id bean, s.handle? id = some bean → u.handle? id = some bean

theorem Knows.refl (s : State α) : s.Knows s := fun _ _ h => h

theorem Knows.trans (h : s''.Knows s') (h' : s'.Knows s) : s''.Knows s :=
  fun id bean hbean => h id bean (h' id bean hbean)

/-- Beans may be added and changed. -/
theorem Anchored.of_size_le (h : s.Anchored) (hcache : s'.context.cache = s.context.cache)
    (hsize : s.heap.size ≤ s'.heap.size) : s'.Anchored := by
  intro id bean hbean
  rw [handle?, Context.cached?, hcache] at hbean
  exact (h id bean hbean).trans_le hsize

theorem Anchored.editEach (h : s.Anchored) (edits : BeanId → α → α) :
    Anchored { s with heap := s.heap.editEach edits } :=
  h.of_size_le rfl (Heap.size_editEach _ _).ge

theorem Anchored.construct (h : s.Anchored) (kind : BeanKind) (a : α) :
    Anchored { s with heap := (s.heap.construct kind a).2 } :=
  h.of_size_le rfl (Heap.size_construct _ _ _ ▸ Nat.le_succ _)

theorem Anchored.remember (h : s.Anchored) {bean : BeanId} (hbean : bean < s.heap.size)
    (kind : BeanKind) (key : Key) :
    Anchored { s with context := s.context.remember kind key bean } := by
  intro id other hother
  rw [handle?, Context.cached?_remember] at hother
  split at hother
  · obtain rfl := Option.some.inj hother
    exact hbean
  · exact h id other hother

/-- Nothing is forgotten when a bean is remembered under a new kind and key. -/
theorem knows_remember {kind : BeanKind} {key : Key} (hnone : s.handle? (kind, key) = none)
    (heap : Heap α) (bean : BeanId) :
    Knows ⟨heap, s.context.remember kind key bean⟩ s := by
  intro id other hother
  rw [handle?, Context.cached?_remember, if_neg]
  · exact hother
  · rintro ⟨hkind, hkey⟩
    rw [handle?, hkind, hkey] at hother
    exact Option.some_ne_none other (hother.symm.trans hnone)

end State

/-- A step has led from one state to another: it put the beans it made behind the others and made
tame edits, and in any state that knows the beans of the cache by then it only makes these edits,
with the same result. -/
structure Made (l : Layout α) (step : State α → Outcome α β) (s : State α) (b : β) (s' : State α)
    (made : List (Bean α)) (edits : BeanId → α → α) : Prop where
  anchored : s'.Anchored
  knows : s'.Knows s
  tame : l.TameBelow s'.heap.size edits
  heap_eq : s'.heap = (Heap.mk (s.heap.beans ++ made)).editEach edits
  again : ∀ u : State α, u.Anchored → u.Knows s' →
    step u = (.ok b, { u with heap := u.heap.editEach edits })

/-- A step can be made once more. -/
def Repeats (l : Layout α) (step : State α → Outcome α β) (s : State α) (b : β) (s' : State α) :
    Prop :=
  ∃ made edits, Made l step s b s' made edits

section Steps

variable {s s' : State α} {row : Row}

/-- A step that leaves each state as it is that knows the beans of the cache. -/
theorem repeats_same {step : State α → Outcome α β} {b : β} (hs : s.Anchored)
    (hstep : ∀ u : State α, u.Knows s → step u = (.ok b, u)) : Repeats l step s b s := by
  refine ⟨[], fun _ => id, hs, .refl s, l.tameBelow_id _, ?_, fun u _ hu => ?_⟩
  · rw [Heap.editEach_id, List.append_nil]
  · rw [Heap.editEach_id]
    exact hstep u hu

/-- Tame edits that are made in any state. -/
theorem repeats_edits {edits : BeanId → α → α} {step : State α → Outcome α β} {b : β}
    (hs : s.Anchored) (htame : l.TameBelow s.heap.size edits)
    (hstep : ∀ u : State α, u.Anchored → u.Knows s →
      step u = (.ok b, { u with heap := u.heap.editEach edits })) :
    Repeats l step s b { s with heap := s.heap.editEach edits } := by
  refine ⟨[], edits, hs.editEach edits, .refl s, ?_, ?_, hstep⟩
  · rw [Heap.size_editEach]
    exact htame
  · rw [List.append_nil]

theorem Repeats.size_le {step : State α → Outcome α β} {b : β} (h : Repeats l step s b s') :
    s.heap.size ≤ s'.heap.size := by
  obtain ⟨made, edits, h⟩ := h
  rw [h.heap_eq, Heap.size_editEach]
  simp [Heap.size]

theorem Repeats.anchored {step : State α → Outcome α β} {b : β} (h : Repeats l step s b s') :
    s'.Anchored := by
  obtain ⟨made, edits, h⟩ := h
  exact h.anchored

theorem Repeats.knows {step : State α → Outcome α β} {b : β} (h : Repeats l step s b s') :
    s'.Knows s := by
  obtain ⟨made, edits, h⟩ := h
  exact h.knows

/-- Steps that can be made once more, one after the other. -/
theorem Repeats.andThen {step : State α → Outcome α β} {next : β → State α → Outcome α γ}
    {b : β} {c : γ} {s'' : State α} (h : Repeats l step s b s')
    (h' : Repeats l (next b) s' c s'') : Repeats l (fun u => (step u).andThen next) s c s'' := by
  have hsize := h'.size_le
  obtain ⟨made, edits, h⟩ := h
  obtain ⟨made', edits', h'⟩ := h'
  have hedited : s'.heap.size = (s.heap.beans ++ made).length := by
    rw [h.heap_eq, Heap.size_editEach]
    rfl
  refine ⟨made ++ made', fun bean => edits' bean ∘ edits bean, h'.anchored,
    h'.knows.trans h.knows, h'.tame.comp h.tame hsize, ?_, fun u hu hknows => ?_⟩
  · -- the beans of the second step are not edited by the first
    rw [h'.heap_eq, ← Heap.editEach_editEach, ← List.append_assoc,
      Heap.editEach_append edits made' (hedited ▸ h.tame.eq_id), ← h.heap_eq]
  · have hfirst := h.again u hu (hknows.trans h'.knows)
    have hsecond := h'.again { u with heap := u.heap.editEach edits } (hu.editEach edits) hknows
    simp only [hfirst, Outcome.andThen, hsecond, Heap.editEach_editEach]

/-! ## Columns and fixers -/

/-- A column makes the same edit in every state that has the bean. -/
theorem ColumnReader.fill_eq {c : ColumnReader α} {v : Json} {edit : α → α} {bean : BeanId}
    (hread : row c.label = .ok v) (hedit : ∀ a, c.consume v a = .ok (edit a))
    (hbean : bean < s.heap.size) :
    c.fill bean row s =
      (.ok (), { s with heap := s.heap.editEach (Function.update (fun _ => id) bean edit) }) := by
  have hcontent := Heap.content?_of_lt hbean
  have hmodify : s.heap.modify bean (fun _ => edit s.heap.beans[bean].content) =
      s.heap.modify bean edit := by
    refine Heap.ext_bean? fun other => ?_
    rw [Heap.bean?_modify, Heap.bean?_modify, Heap.bean?, List.getElem?_eq_getElem hbean]
    rfl
  simp only [fill, hread, hcontent, hedit, hmodify, Heap.modify_eq_editEach]

/-- A column that fills a bean of the cache can be filled in once more. -/
theorem ColumnReader.Overwriting.repeats {c : ColumnReader α} (hc : c.Overwriting l)
    {id : BeanKind × Key} {bean : BeanId} (hs : s.Anchored) (hbean : s.handle? id = some bean)
    (h : c.fill bean row s = (.ok (), s')) : Repeats l (c.fill bean row) s () s' := by
  have hlt := hs id bean hbean
  cases hread : row c.label with
  | error e => simp [ColumnReader.fill, hread] at h
  | ok v =>
    rcases hc v with ⟨e, herror⟩ | ⟨edit, hedit, hfields⟩
    · simp [ColumnReader.fill, hread, Heap.content?_of_lt hlt, herror] at h
    · rw [ColumnReader.fill_eq hread hedit hlt] at h
      obtain rfl := (Prod.mk.inj h).2
      exact repeats_edits hs (Layout.tameBelow_update (fun n => (hfields n).sees) hlt)
        fun u hu hknows => ColumnReader.fill_eq hread hedit (hu id bean (hknows id bean hbean))

theorem repeats_fillAll {columns : List (ColumnReader α)}
    (hcolumns : ∀ c ∈ columns, c.Overwriting l) {id : BeanKind × Key} {bean : BeanId}
    (hs : s.Anchored) (hbean : s.handle? id = some bean)
    (h : fillAll bean row columns s = (.ok (), s')) :
    Repeats l (fillAll bean row columns) s () s' := by
  induction columns generalizing s with
  | nil =>
    obtain rfl := (Prod.mk.inj h).2
    exact repeats_same hs fun _ _ => rfl
  | cons c rest ih =>
    obtain ⟨⟨⟩, s₁, hfill, hrest⟩ := Outcome.andThen_eq_ok h
    have hfirst := (hcolumns c List.mem_cons_self).repeats hs hbean hfill
    have hothers := ih (fun d hd => hcolumns d (List.mem_cons_of_mem c hd)) hfirst.anchored
      (hfirst.knows id bean hbean) hrest
    exact hfirst.andThen hothers

/-- A wire edits the owner. -/
theorem Fixer.wire_edits {link : BeanId → α → α} {size : Nat} {owner related : BeanId}
    (htame : l.Tame (link related)) (howner : owner < size) :
    ∃ edits, l.TameBelow size edits ∧
      ∀ heap, (Fixer.wire link).fix owner related heap = heap.editEach edits :=
  ⟨_, Layout.tameBelow_update htame howner,
    fun heap => heap.modify_eq_editEach owner (link related)⟩

/-- A usual fixer makes the same edits of its owner and its related bean in every heap, also when
they are the same bean. -/
theorem Fixer.OnFields.fix_edits {fixer : Fixer α} (h : fixer.OnFields l) {size : Nat}
    {owner related : BeanId} (howner : owner < size) (hrelated : related < size) :
    ∃ edits, l.TameBelow size edits ∧
      ∀ heap, fixer.fix owner related heap = heap.editEach edits := by
  induction h generalizing owner related with
  | one hfield hslot => exact wire_edits (hslot.tame_set hfield _) howner
  | many hfield hslot => exact wire_edits (hslot.tame_add hfield related) howner
  | weak hfield hslot => exact wire_edits (hslot.tame_set hfield _) howner
  | withReverse hforward hreverse ihf ihr =>
    obtain ⟨edits, htame, hfix⟩ := ihf howner hrelated
    obtain ⟨edits', htame', hfix'⟩ := ihr hrelated howner
    refine ⟨_, htame'.comp htame (Nat.le_refl size), fun heap => ?_⟩
    rw [Fixer.fix, hfix, hfix', Heap.editEach_editEach]

/-! ## Factories -/

/-- The bean that a keyed factory finds is in the cache. -/
theorem Factory.handle?_of_find {f : Factory α} (hkeyed : f.keyColumns.isSome = true)
    {bean : BeanId} (h : f.find row s = (.ok (some bean), s')) :
    ∃ id, s'.handle? id = some bean := by
  obtain ⟨made, s₁, hproduce, h⟩ := Outcome.andThen_eq_ok h
  obtain ⟨hmade, rfl⟩ := Prod.mk.inj h
  obtain ⟨⟨found, fresh⟩, rfl, rfl⟩ := Option.map_eq_some_iff.mp (Except.ok.inj hmade)
  obtain ⟨key, -, hhandle⟩ := Factory.handle?_of_produce hkeyed hproduce
  exact ⟨_, hhandle⟩

/-- The bean of a key that is in the cache is found and nothing else happens. -/
theorem Factory.find_of_handle? {f : Factory α} {key : Key} (hkey : f.key? row = some key)
    {bean : BeanId} (h : s.handle? (f.kind, key) = some bean) :
    f.find row s = (.ok (some bean), s) := by
  have hcached : s.context.cached? f.kind key = some bean := h
  rw [find, produce_of_key? hkey, hcached]
  rfl

/-- A keyed factory finds its bean again. -/
theorem Factory.repeats_find {f : Factory α} (hkeyed : f.keyColumns.isSome = true)
    (hs : s.Anchored) {found : Option BeanId} (h : f.find row s = (.ok found, s')) :
    Repeats l (f.find row) s found s' := by
  cases hkey : f.key? row with
  | none =>
    rcases Factory.produce_of_no_key? hkeyed hkey with hall | ⟨e, hall⟩
    · have hfind : ∀ u : State α, f.find row u = (.ok none, u) := by
        intro u
        rw [find, hall]
        rfl
      obtain ⟨hfound, rfl⟩ := Prod.mk.inj (h.symm.trans (hfind s))
      obtain rfl := Except.ok.inj hfound
      exact repeats_same hs fun u _ => hfind u
    · rw [find, hall] at h
      exact absurd (Prod.mk.inj h).1 (by simp)
  | some key =>
    cases hcached : s.context.cached? f.kind key with
    | some bean =>
      obtain ⟨hfound, rfl⟩ := Prod.mk.inj (h.symm.trans (f.find_of_handle? hkey hcached))
      obtain rfl := Except.ok.inj hfound
      exact repeats_same hs fun u hu => f.find_of_handle? hkey (hu _ _ hcached)
    | none =>
      rw [find, produce_of_key? hkey, hcached] at h
      obtain ⟨hfound, rfl⟩ := Prod.mk.inj h
      obtain rfl := Except.ok.inj hfound
      have hsize : s.heap.size < (s.heap.construct f.kind (f.construct key)).2.size := by
        rw [Heap.size_construct]
        exact Nat.lt_succ_self _
      refine ⟨[⟨f.kind, f.construct key⟩], fun _ => id,
        (hs.construct f.kind (f.construct key)).remember hsize f.kind key,
        State.knows_remember hcached _ _, l.tameBelow_id _, ?_, fun u _ hu => ?_⟩
      · rw [Heap.editEach_id]
        rfl
      · rw [Heap.editEach_id]
        refine f.find_of_handle? hkey (hu _ _ ?_)
        rw [State.handle?, Context.cached?_remember, if_pos ⟨rfl, rfl⟩]

end Steps

/-! ## Rows -/

mutual

/-- Columns overwrite fields and relations wire by the usual fixers over fields, on every row, at
every level. -/
def Transformer.OnFields (l : Layout α) : Transformer α → Prop
  | .mk _ columns relations =>
    (∀ c ∈ columns, c.Overwriting l) ∧ Relation.AllOnFields l relations

/-- The relation wires a target that is on fields on every row. -/
def Relation.OnFields (l : Layout α) : Relation α → Prop
  | .mk _ target fixer policy => target.OnFields l ∧ fixer.OnFields l ∧ policy = .eachRow

/-- All relations are on fields. -/
def Relation.AllOnFields (l : Layout α) : List (Relation α) → Prop
  | [] => True
  | r :: rest => r.OnFields l ∧ Relation.AllOnFields l rest

end

mutual

/-- A row that is transformed can be transformed once more. -/
theorem Transformer.repeats (t : Transformer α) (hkeyed : t.Keyed) (ht : t.OnFields l) (row : Row)
    {s s' : State α} (hs : s.Anchored) {root : Option BeanId}
    (h : t.transform row s = (.ok root, s')) : Repeats l (t.transform row) s root s' := by
  cases t with
  | mk factory columns relations =>
    obtain ⟨hcolumns, hrelations⟩ := ht
    rw [Transformer.transform_eq] at h ⊢
    obtain ⟨found, s₁, hfind, h⟩ := Outcome.andThen_eq_ok h
    have hfound := Factory.repeats_find (l := l) hkeyed.1 hs hfind
    refine hfound.andThen ?_
    cases found with
    | none =>
      obtain ⟨hroot, rfl⟩ := Prod.mk.inj h
      obtain rfl := Except.ok.inj hroot
      exact repeats_same hfound.anchored fun _ _ => rfl
    | some bean =>
      obtain ⟨id, hbean⟩ := Factory.handle?_of_find hkeyed.1 hfind
      obtain ⟨⟨⟩, s₂, hfill, h⟩ := Outcome.andThen_eq_ok h
      obtain ⟨⟨⟩, s₃, hassemble, h⟩ := Outcome.andThen_eq_ok h
      obtain ⟨hroot, rfl⟩ := Prod.mk.inj h
      obtain rfl := Except.ok.inj hroot
      have hfilled := repeats_fillAll hcolumns hfound.anchored hbean hfill
      have howner := hfilled.anchored id bean (hfilled.knows id bean hbean)
      have hassembled := Relation.repeatsAll relations hkeyed.2 hrelations row hfilled.anchored
        howner hassemble
      exact hfilled.andThen
        (hassembled.andThen (repeats_same hassembled.anchored fun _ _ => rfl))

/-- A relation that is assembled can be assembled once more. -/
theorem Relation.repeats (r : Relation α) (hkeyed : r.Keyed) (hr : r.OnFields l) (row : Row)
    {s s' : State α} (hs : s.Anchored) {owner : BeanId} (howner : owner < s.heap.size)
    (h : r.assemble owner row s = (.ok (), s')) : Repeats l (r.assemble owner row) s () s' := by
  cases r with
  | mk relation target fixer policy =>
    obtain ⟨htarget, hfixer, rfl⟩ := hr
    rw [Relation.assemble_eq] at h ⊢
    obtain ⟨related, s₁, htransform, h⟩ := Outcome.andThen_eq_ok h
    have hrow := Transformer.repeats target hkeyed htarget row hs htransform
    refine hrow.andThen ?_
    cases related with
    | none =>
      obtain rfl := (Prod.mk.inj h).2
      exact repeats_same hrow.anchored fun _ _ => rfl
    | some related =>
      obtain ⟨id, -, hrelated⟩ := Transformer.handle?_of_transform hkeyed htransform
      obtain ⟨edits, htame, hfix⟩ := hfixer.fix_edits (howner.trans_le hrow.size_le)
        (hrow.anchored id related hrelated)
      have happly : ∀ u : State α, applyFixer relation fixer .eachRow owner related u =
          { u with heap := u.heap.editEach edits } := by
        intro u
        rw [applyFixer, hfix]
      obtain rfl := (Prod.mk.inj h).2
      rw [happly]
      exact repeats_edits hrow.anchored htame fun u _ _ => congrArg (Prod.mk _) (happly u)

/-- Relations in order. -/
theorem Relation.repeatsAll (relations : List (Relation α)) (hkeyed : Relation.AllKeyed relations)
    (hrelations : Relation.AllOnFields l relations) (row : Row) {s s' : State α} (hs : s.Anchored)
    {owner : BeanId} (howner : owner < s.heap.size)
    (h : assembleAll relations owner row s = (.ok (), s')) :
    Repeats l (assembleAll relations owner row) s () s' := by
  cases relations with
  | nil =>
    obtain rfl := (Prod.mk.inj h).2
    exact repeats_same hs fun _ _ => rfl
  | cons r rest =>
    rw [assembleAll_cons] at h ⊢
    obtain ⟨⟨⟩, s₁, hassemble, h⟩ := Outcome.andThen_eq_ok h
    have hfirst := Relation.repeats r hkeyed.1 hrelations.1 row hs howner hassemble
    exact hfirst.andThen (Relation.repeatsAll rest hkeyed.2 hrelations.2 row hfirst.anchored
      (howner.trans_le hfirst.size_le) h)

end

/-! ## Reachable states -/

/-- The states that can be reached from a new context over any beans: by transforming rows and
calling factories, whether or not that fails, by marking beans, and by whatever else makes beans,
puts them into the cache or changes their contents. -/
inductive State.Reached : State α → Prop where
  | start (heap : Heap α) : Reached { heap := heap }
  | transform {s : State α} (h : Reached s) (t : Transformer α) (row : Row) :
    Reached (t.transform row s).2
  | produce {s : State α} (h : Reached s) (f : Factory α) (row : Row) : Reached (f.produce row s).2
  | construct {s : State α} (h : Reached s) (kind : BeanKind) (a : α) :
    Reached { s with heap := (s.heap.construct kind a).2 }
  | modify {s : State α} (h : Reached s) (bean : BeanId) (f : α → α) :
    Reached { s with heap := s.heap.modify bean f }
  | remember {s : State α} (h : Reached s) (kind : BeanKind) (key : Key) {bean : BeanId}
    (hbean : bean < s.heap.size) : Reached { s with context := s.context.remember kind key bean }
  | treat {s : State α} (h : Reached s) (bean : BeanId) (relation : RelationId) :
    Reached { s with context := s.context.treat bean relation }
  | markRoot {s : State α} (h : Reached s) (bean : BeanId) :
    Reached { s with context := s.context.markRoot bean }

/-- Steps put only beans into the cache that exist. -/
theorem steps_anchored : Steps fun (s : State α) _ s' => s.Anchored → s'.Anchored where
  refl _ h := h
  trans h h' hs := h' (h hs)
  produce p hs := by
    rcases p.effect with ⟨-, hcache, hsize⟩ | ⟨-, -, hafter⟩ | ⟨-, -, -, hafter⟩ |
      ⟨-, -, -, hcontext, hsize⟩
    · exact hs.of_size_le hcache (hsize ▸ Nat.le_succ _)
    · exact hafter ▸ hs
    · exact hafter ▸ hs
    · rename_i built
      have hgrown : State.Anchored { p.after with context := p.before.context } :=
        hs.of_size_le rfl (hsize ▸ Nat.le_succ _)
      have hafter : p.after =
          ⟨p.after.heap, p.before.context.remember built.1 built.2 p.before.heap.size⟩ := by
        rw [← hcontext]
      rw [hafter]
      exact hgrown.remember (hsize ▸ Nat.lt_succ_self _) built.1 built.2
  fill c bean row s hs :=
    hs.of_size_le (c.sameBeans_fill bean row s).cache_eq (c.sameBeans_fill bean row s).size_eq.ge
  fix a s hs := by
    have hsame := sameBeans_applyFixer a.owner a.related s a.relation a.fixer a.policy
    exact hs.of_size_le hsame.cache_eq hsame.size_eq.ge

/-- The beans in the cache of a state that can be reached exist. -/
theorem State.Reached.anchored {s : State α} (h : s.Reached) : s.Anchored := by
  induction h with
  | start heap => exact fun id bean hbean => by simp [handle?, Context.cached?] at hbean
  | transform _ t row ih => exact steps_anchored.transform t row _ ih
  | produce _ f row ih => exact steps_anchored.produce ⟨f, row, _⟩ ih
  | construct _ kind a ih => exact ih.construct kind a
  | modify _ bean f ih => exact ih.of_size_le rfl (Heap.size_modify _ _ _).ge
  | remember _ kind key hbean ih => exact ih.remember hbean kind key
  | treat _ bean relation ih =>
    exact ih.of_size_le (Context.cache_treat _ bean relation) (Nat.le_refl _)
  | markRoot _ bean ih => exact ih.of_size_le (Context.cache_markRoot _ bean) (Nat.le_refl _)

/-- A row that is transformed without error and then once more gives the same bean, or none, and
leaves the whole state as it is: every content, the order of every collection, and the context. This
holds in every state that can be reached, whichever of the beans of the row are the same instance,
when beans are found by keys, columns overwrite fields and relations wire by the usual fixers over
fields on every row. -/
theorem Transformer.transform_replay {l : Layout α} {t : Transformer α} (hkeyed : t.Keyed)
    (ht : t.OnFields l) {s s' : State α} (hs : s.Reached) {row : Row} {root : Option BeanId}
    (h : t.transform row s = (.ok root, s')) : t.transform row s' = (.ok root, s') := by
  obtain ⟨made, edits, hmade⟩ := t.repeats hkeyed ht row hs.anchored h
  rw [hmade.again s' hmade.anchored (.refl s')]
  -- the edits have been made on all beans of this heap, new ones included
  have hheap : s'.heap.editEach edits = s'.heap := by
    rw [hmade.heap_eq]
    exact hmade.tame.idempotent _
  rw [hheap]

/-! ## An example -/

/-- A colleague: a name, those who were helped, in order, a boss, and who helped last. -/
structure Colleague where
  name : Json := .null
  helped : List BeanId := []
  boss : Option BeanId := none
  helper : WeakLink := {}

namespace Colleague

/-- The fields of a colleague. -/
inductive FieldName where
  | name
  | helped
  | boss
  | helper

/-- Those who were helped are a collection, the others are written over. -/
def layout : Layout Colleague where
  Name := FieldName
  field
    | .name => .plain name
    | .helped => .collection helped
    | .boss => .plain boss
    | .helper => .plain helper
  ext a b h := by
    obtain ⟨name, helped, boss, helper⟩ := a
    obtain rfl : name = b.name := h .name
    obtain rfl : helped = b.helped := h .helped
    obtain rfl : boss = b.boss := h .boss
    obtain rfl : helper = b.helper := h .helper
    rfl

/-- The colleague of a key and a name, without relations. -/
def named (key label : String) : Transformer Colleague :=
  .mk ⟨0, some [key], fun _ => {}⟩ [.typed label .string fun v c => { c with name := v }] []

/-- A colleague who helps others, and has a boss. -/
def helping : Transformer Colleague :=
  (((named "id" "name").addRelation <| .mk 0 (named "helped" "helped_name")
      (.withReverse (.many ⟨helped, fun beans c => { c with helped := beans }⟩)
        (.weak ⟨helper, fun link c => { c with helper := link }⟩)) .eachRow).addRelation <|
    .mk 1 (named "boss" "boss_name") (.one ⟨boss, fun bean c => { c with boss := bean }⟩) .eachRow)

private theorem onFields_named (key label : String) : (named key label).OnFields layout := by
  refine ⟨?_, trivial⟩
  intro c hc
  rw [List.mem_singleton.mp hc]
  refine ColumnReader.overwriting_typed ?_ label .string
  rintro v (_ | _ | _ | _)
  · exact .inr ⟨v, fun _ => rfl⟩
  all_goals exact .inl fun _ => rfl

private theorem onFields_helping : helping.OnFields layout := by
  obtain ⟨hcolumns, -⟩ := onFields_named "id" "name"
  refine ⟨hcolumns, ⟨onFields_named _ _, ?_, rfl⟩, ⟨onFields_named _ _, ?_, rfl⟩, trivial⟩
  · refine .withReverse (.many (n := .helped) rfl ⟨fun _ _ => rfl, ?_⟩)
      (.weak (n := .helper) rfl ⟨fun _ _ => rfl, ?_⟩)
    · rintro (_ | _ | _ | _) hne v a <;> first | rfl | exact absurd rfl hne
    · rintro (_ | _ | _ | _) hne v a <;> first | rfl | exact absurd rfl hne
  · refine .one (n := .boss) rfl ⟨fun _ _ => rfl, ?_⟩
    rintro (_ | _ | _ | _) hne v a <;> first | rfl | exact absurd rfl hne

/-- A row in which a colleague helps herself and has a boss; her name is read twice. -/
def alone : Row := fun label =>
  match label with
  | "id" => .ok (.ofNat 1)
  | "name" => .ok (.string "Ann")
  | "helped" => .ok (.ofNat 1)
  | "helped_name" => .ok (.string "Anna")
  | "boss" => .ok (.ofNat 2)
  | "boss_name" => .ok (.string "Bea")
  | _ => .error (.columnNotFound label)

/-- The first colleague is owner and related bean at once, and her second name stays. -/
theorem transform_replay_alone :
    helping.Keyed ∧ helping.OnFields layout ∧ State.Reached ({} : State Colleague) ∧
      ∃ s', helping.transform alone {} = (.ok (some 0), s') ∧
        helping.transform alone s' = (.ok (some 0), s') ∧
        s'.heap.content? 0 = some ⟨.string "Anna", [0], some 1, ⟨some 0⟩⟩ := by
  have hkeyed : helping.Keyed := ⟨rfl, ⟨rfl, trivial⟩, ⟨rfl, trivial⟩, trivial⟩
  have hstart : State.Reached ({} : State Colleague) := .start {}
  have hfirst : helping.transform alone {} = (.ok (some 0), (helping.transform alone {}).2) := rfl
  exact ⟨hkeyed, onFields_helping, hstart, _, hfirst,
    Transformer.transform_replay hkeyed onFields_helping hstart hfirst, rfl⟩

end Colleague

end SqlGraph.Graph
