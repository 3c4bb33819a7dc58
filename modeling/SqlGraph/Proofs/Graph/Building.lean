import SqlGraph.Proofs.Graph.Laws

/-!
# Building one bean

A row with a key finds the bean of the key or constructs it, and fills it; the state is otherwise
the same (`Entity.build`). A row without key builds nothing.
-/

namespace SqlGraph.Graph

variable {α : Type}

/-! ## Building one bean -/

section Build

variable {s : State α} {row : Row}

open State

/-- A column that can be read fills its field. -/
theorem FieldColumn.fill_ok (hs : s.Sound) {kind : BeanKind} {key : Key} {bean : BeanId} {a : α}
    (hlook : s.look kind key = some (bean, a)) {c : FieldColumn α}
    (hcell : (c.cell row).isOk = true) :
    ∃ s', c.reader.fill bean row s = (.ok (), s') ∧ s.Puts kind key bean (c.write row a) s' := by
  have hcontent : s.heap.content? bean = some a := by
    rw [Heap.content?, (hs.look_eq_some.mp hlook).2]
    rfl
  obtain ⟨w, hw⟩ := exists_of_isOk hcell
  obtain ⟨v, hv, hread⟩ : ∃ v, row c.label = .ok v ∧ c.read v = .ok w := by
    cases hv : row c.label with
    | error e => simp [cell, hv, Except.bind] at hw
    | ok v => exact ⟨v, rfl, by simpa [cell, hv, Except.bind] using hw⟩
  have hwrite : c.write row a = c.fill w a := by
    unfold write
    rw [hw]
  rw [hwrite]
  refine ⟨_, ?_, hs.puts_modify hlook fun _ => c.fill w a⟩
  simp [ColumnReader.fill, reader, hv, hread, hcontent, Except.map]

/-- Columns that can be read fill their fields in order. -/
theorem fillAll_ok (hs : s.Sound) {kind : BeanKind} {key : Key} {bean : BeanId} {a : α}
    (hlook : s.look kind key = some (bean, a)) (columns : List (FieldColumn α))
    (hcells : ∀ c ∈ columns, (c.cell row).isOk = true) :
    ∃ s', fillAll bean row (columns.map (·.reader)) s = (.ok (), s') ∧
      s.Puts kind key bean (columns.foldl (fun a c => c.write row a) a) s' := by
  induction columns generalizing s a with
  | nil => exact ⟨s, rfl, .refl hs hlook⟩
  | cons c rest ih =>
    obtain ⟨s₁, hfill, hputs⟩ := FieldColumn.fill_ok hs hlook (hcells c List.mem_cons_self)
    obtain ⟨s₂, hrest, hputs'⟩ := ih hputs.sound hputs.look_self
      fun d hd => hcells d (List.mem_cons_of_mem c hd)
    refine ⟨s₂, ?_, hputs.trans hputs'⟩
    rw [List.map_cons, fillAll, hfill]
    exact hrest

/-- The handles and contents of a state stay, as far as handles go. -/
def State.Extends (s s' : State α) : Prop :=
  ∀ {kind key bean a}, s.look kind key = some (bean, a) → ∃ a', s'.look kind key = some (bean, a')

theorem State.Extends.trans {s s' s'' : State α} (h : s.Extends s') (h' : s'.Extends s'') :
    s.Extends s'' := by
  intro kind key bean a hlook
  obtain ⟨a', hlook'⟩ := h hlook
  exact h' hlook'

/-- Putting a content behind a known handle, or a new one, keeps all handles. -/
theorem State.Puts.extends {s' : State α} {kind : BeanKind} {key : Key} {bean : BeanId} {a : α}
    (h : s.Puts kind key bean a s')
    (hbean : ∀ b c, s.look kind key = some (b, c) → b = bean) : s.Extends s' := by
  intro kind' key' bean' a' hlook
  by_cases heq : kind' = kind ∧ key' = key
  · obtain ⟨rfl, rfl⟩ := heq
    rw [hbean bean' a' hlook]
    exact ⟨a, h.look_self⟩
  · exact ⟨a', (h.look_of_ne heq).trans hlook⟩

/-- A content put behind a known handle keeps all handles. -/
theorem State.Puts.extends_of_look {s' : State α} {kind : BeanKind} {key : Key} {bean : BeanId}
    {a b : α} (h : s.Puts kind key bean a s') (hlook : s.look kind key = some (bean, b)) :
    s.Extends s' := by
  refine h.extends fun bean' b' hlook' => ?_
  rw [hlook] at hlook'
  exact (Prod.mk.inj (Option.some.inj hlook')).1.symm

namespace Entity

variable {e : Entity α}

/-- A row without key builds nothing. -/
theorem produce_of_none (hreads : e.Reads row) (hkey : e.key? row = none) :
    e.factory.produce row s = (.ok none, s) := by
  obtain ⟨values, hvalues⟩ := exists_of_isOk hreads.key
  have hnull : (Key.mk values).isNull = true := by simpa [key?, hvalues] using hkey
  simp [Factory.produce, factory, hvalues, hnull]

/-- A row with a key finds its bean or constructs it. -/
theorem produce_of_some (hs : s.Sound) {key : Key} (hkey : e.key? row = some key) :
    ∃ bean fresh a s', e.factory.produce row s = (.ok (some (bean, fresh)), s') ∧
      s.Puts e.kind key bean a s' ∧ s.Extends s' ∧
      (s.look e.kind key = some (bean, a) ∨ s.look e.kind key = none ∧ a = e.construct key) := by
  cases hvalues : readAll row e.keyLabels with
  | error err => simp [key?, hvalues] at hkey
  | ok values =>
    obtain ⟨hnull, rfl⟩ : (Key.mk values).isNull = false ∧ Key.mk values = key := by
      simpa [key?, hvalues] using hkey
    cases hcached : s.context.cached? e.kind ⟨values⟩ with
    | some bean =>
      obtain ⟨a, hbean⟩ := hs.bean?_of_cached hcached
      have hlook := hs.look_eq_some.mpr ⟨hcached, hbean⟩
      refine ⟨bean, false, a, s, ?_, .refl hs hlook, fun h => ⟨_, h⟩, .inl hlook⟩
      simp [Factory.produce, factory, hvalues, hnull, hcached]
    | none =>
      -- the key is new: the bean constructed for it is remembered
      have hlook := hs.look_eq_none.mpr hcached
      have hputs := hs.puts_construct e.kind ⟨values⟩ (e.construct ⟨values⟩)
      refine ⟨s.heap.size, true, e.construct ⟨values⟩, _, ?_, hputs, ?_, .inr ⟨hlook, rfl⟩⟩
      · simp only [Factory.produce, factory, hvalues, hnull, hcached]
        rfl
      · exact hputs.extends fun b c h => by simp [hlook] at h

/-- A row with a key builds its bean: found or constructed, then filled. -/
theorem build (hs : s.Sound) (hreads : e.Reads row) {key : Key} (hkey : e.key? row = some key) :
    ∃ bean fresh a s₁ s₂, e.factory.produce row s = (.ok (some (bean, fresh)), s₁) ∧
      fillAll bean row e.readers s₁ = (.ok (), s₂) ∧
      s.Puts e.kind key bean (e.fill row a) s₂ ∧ s.Extends s₂ ∧
      (s.look e.kind key = some (bean, a) ∨ s.look e.kind key = none ∧ a = e.construct key) := by
  obtain ⟨bean, fresh, a, s₁, hproduce, hputs, hextends, hold⟩ := produce_of_some hs hkey
  have hcells := hreads.cells (Option.isSome_of_eq_some hkey)
  obtain ⟨s₂, hfill, hputs'⟩ := fillAll_ok hputs.sound hputs.look_self e.columns hcells
  exact ⟨bean, fresh, a, s₁, s₂, hproduce, hfill, hputs.trans hputs',
    hextends.trans (hputs'.extends_of_look hputs.look_self), hold⟩

end Entity

end Build

end SqlGraph.Graph
