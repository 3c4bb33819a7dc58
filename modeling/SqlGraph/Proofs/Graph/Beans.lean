import Mathlib.Data.List.Basic
import SqlGraph.Graph.Transformer
import SqlGraph.Proofs.Graph.Keys

/-!
# Beans by kind and key

A traversal finds its beans through the cache: `State.look` is the handle and the content that a
kind and a key lead to. In a sound state every entry of the cache leads to a bean of its kind, and
different keys to different beans. Then constructing, filling and wiring a bean put a content at
one kind and key and leave all others as they are (`State.Puts`).
-/

namespace SqlGraph.Graph

variable {α : Type}

/-! ## The heap -/

namespace Heap

theorem bean?_size (h : Heap α) : h.bean? h.size = none := List.getElem?_eq_none (Nat.le_refl _)

/-- A constructed bean stands behind the others. -/
theorem bean?_construct (h : Heap α) (kind : BeanKind) (content : α) (id : BeanId) :
    (h.construct kind content).2.bean? id =
      if id = h.size then some ⟨kind, content⟩ else h.bean? id := by
  show (h.beans ++ [⟨kind, content⟩])[id]? = _
  by_cases hid : id = h.size
  · rw [if_pos hid, hid]
    exact List.getElem?_concat_length
  · rw [if_neg hid]
    by_cases hlt : id < h.beans.length
    · exact List.getElem?_append_left hlt
    · have hgt : h.beans.length < id := Nat.lt_of_le_of_ne (Nat.le_of_not_lt hlt) (Ne.symm hid)
      rw [List.getElem?_eq_none (by simpa using Nat.succ_le_of_lt hgt)]
      exact (List.getElem?_eq_none (Nat.le_of_lt hgt)).symm

/-- Only the content of one bean changes. -/
theorem bean?_modify (h : Heap α) (id other : BeanId) (f : α → α) :
    (h.modify id f).bean? other =
      if other = id then (h.bean? id).map fun b => { b with content := f b.content }
      else h.bean? other := by
  show (h.beans.modify id _)[other]? = _
  rw [List.getElem?_modify]
  by_cases hid : other = id
  · rw [if_pos hid, hid]
    simp [bean?]
  · rw [if_neg hid]
    simp [bean?, Ne.symm hid]

end Heap

/-! ## The cache -/

namespace Context

/-- The entry of a kind and key is the one listed under both. -/
theorem isEntry_iff {kind : BeanKind} {key : Key} {entry : (BeanKind × Key) × BeanId} :
    isEntry kind key entry = true ↔ entry.1 = (kind, key) := by
  obtain ⟨⟨kind', key'⟩, bean⟩ := entry
  simp [isEntry, Key.sameEntry_iff]

/-- A remembered bean is found under its kind and key, all others as before. -/
theorem cached?_remember (c : Context) (kind : BeanKind) (key : Key) (bean : BeanId)
    (kind' : BeanKind) (key' : Key) :
    (c.remember kind key bean).cached? kind' key' =
      if kind' = kind ∧ key' = key then some bean else c.cached? kind' key' := by
  unfold cached? remember
  by_cases heq : kind' = kind ∧ key' = key
  · obtain ⟨rfl, rfl⟩ := heq
    have hentry : isEntry kind' key' ((kind', key'), bean) = true := isEntry_iff.mpr rfl
    simp [hentry]
  · have hentry : isEntry kind' key' ((kind, key), bean) = false := by
      rw [Bool.eq_false_iff]
      intro h
      have hpair := isEntry_iff.mp h
      exact heq ⟨(Prod.mk.inj hpair).1.symm, (Prod.mk.inj hpair).2.symm⟩
    -- what is filtered out is not what is looked for
    have hfilter : (fun e => !isEntry kind key e && isEntry kind' key' e) = isEntry kind' key' := by
      funext e
      cases hother : isEntry kind' key' e with
      | false => simp
      | true =>
        have hnot : isEntry kind key e = false := by
          rw [Bool.eq_false_iff]
          intro h
          have hpair := (isEntry_iff.mp hother).symm.trans (isEntry_iff.mp h)
          exact heq ⟨(Prod.mk.inj hpair).1, (Prod.mk.inj hpair).2⟩
        simp [hnot]
    rw [if_neg heq]
    simp [hentry, List.find?_filter, hfilter]

end Context

/-! ## States -/

namespace State

/-- The handle and content of the bean of a kind and key. -/
def look (s : State α) (kind : BeanKind) (key : Key) : Option (BeanId × α) :=
  (s.context.cached? kind key).bind fun bean => (s.heap.content? bean).map fun a => (bean, a)

/-- Every cached bean exists and is of its kind, and different keys have different beans. -/
structure Sound (s : State α) : Prop where
  bean?_of_cached : ∀ {kind key bean}, s.context.cached? kind key = some bean →
    ∃ a, s.heap.bean? bean = some ⟨kind, a⟩
  key_unique : ∀ {kind key key' bean}, s.context.cached? kind key = some bean →
    s.context.cached? kind key' = some bean → key = key'

namespace Sound

variable {s : State α} {kind kind' : BeanKind} {key key' : Key} {bean : BeanId} {a : α}

theorem look_eq_none (hs : s.Sound) :
    s.look kind key = none ↔ s.context.cached? kind key = none := by
  unfold look
  cases hc : s.context.cached? kind key with
  | none => simp
  | some b =>
    obtain ⟨c, hb⟩ := hs.bean?_of_cached hc
    simp [Heap.content?, hb]

theorem look_eq_some (hs : s.Sound) :
    s.look kind key = some (bean, a) ↔
      s.context.cached? kind key = some bean ∧ s.heap.bean? bean = some ⟨kind, a⟩ := by
  unfold look
  cases hc : s.context.cached? kind key with
  | none => simp
  | some b =>
    obtain ⟨c, hb⟩ := hs.bean?_of_cached hc
    simp only [Option.bind_some, Heap.content?, hb, Option.map_some, Option.some.injEq,
      Prod.mk.injEq]
    constructor
    · rintro ⟨rfl, rfl⟩
      exact ⟨rfl, hb⟩
    · rintro ⟨rfl, hbean⟩
      rw [hb] at hbean
      exact ⟨rfl, congrArg Bean.content (Option.some.inj hbean)⟩

/-- A bean is found under one kind and key only. -/
theorem eq_of_cached (hs : s.Sound) (h : s.context.cached? kind key = some bean)
    (h' : s.context.cached? kind' key' = some bean) : kind = kind' ∧ key = key' := by
  obtain ⟨a, ha⟩ := hs.bean?_of_cached h
  obtain ⟨a', ha'⟩ := hs.bean?_of_cached h'
  rw [ha] at ha'
  obtain rfl : kind = kind' := congrArg Bean.kind (Option.some.inj ha')
  exact ⟨rfl, hs.key_unique h h'⟩

end Sound

/-- A sound state in which one kind and key leads to the given bean and content, and all others to
what they led to before. -/
structure Puts (s : State α) (kind : BeanKind) (key : Key) (bean : BeanId) (a : α)
    (s' : State α) : Prop where
  sound : s'.Sound
  look_self : s'.look kind key = some (bean, a)
  look_of_ne : ∀ {kind' key'}, ¬ (kind' = kind ∧ key' = key) →
    s'.look kind' key' = s.look kind' key'
  roots_eq : s'.context.roots = s.context.roots

namespace Puts

variable {s s' s'' : State α} {kind kind' : BeanKind} {key key' : Key} {bean : BeanId} {a a' : α}

theorem refl (hs : s.Sound) (h : s.look kind key = some (bean, a)) :
    s.Puts kind key bean a s :=
  ⟨hs, h, fun _ => rfl, rfl⟩

/-- The content put last stays. -/
theorem trans (h : s.Puts kind key bean a s') (h' : s'.Puts kind key bean a' s'') :
    s.Puts kind key bean a' s'' where
  sound := h'.sound
  look_self := h'.look_self
  look_of_ne hne := (h'.look_of_ne hne).trans (h.look_of_ne hne)
  roots_eq := h'.roots_eq.trans h.roots_eq

/-- Nothing changes for other kinds. -/
theorem look_of_kind_ne (h : s.Puts kind key bean a s') (hne : kind' ≠ kind) (key' : Key) :
    s'.look kind' key' = s.look kind' key' := h.look_of_ne fun heq => hne heq.1

/-- Nothing changes for other keys. -/
theorem look_of_key_ne (h : s.Puts kind key bean a s') (hne : key' ≠ key) :
    s'.look kind key' = s.look kind key' := h.look_of_ne fun heq => hne heq.2

end Puts

/-- A constructed bean is remembered under its kind and key. -/
theorem Sound.puts_construct {s : State α} (hs : s.Sound) (kind : BeanKind) (key : Key) (a : α) :
    s.Puts kind key s.heap.size a
      { heap := (s.heap.construct kind a).2,
        context := s.context.remember kind key s.heap.size } := by
  -- no entry of the cache leads to the new handle, as there is no bean at it yet
  have hnew : ∀ {kind' key' bean}, s.context.cached? kind' key' = some bean →
      bean ≠ s.heap.size := by
    intro kind' key' bean hc heq
    obtain ⟨c, hb⟩ := hs.bean?_of_cached hc
    rw [heq, Heap.bean?_size] at hb
    simp at hb
  have hsound : Sound
      { heap := (s.heap.construct kind a).2,
        context := s.context.remember kind key s.heap.size } := by
    constructor
    · intro kind' key' bean hc
      rw [Context.cached?_remember] at hc
      by_cases heq : kind' = kind ∧ key' = key
      · rw [if_pos heq] at hc
        obtain rfl := Option.some.inj hc
        exact ⟨a, by rw [Heap.bean?_construct, if_pos rfl, heq.1]⟩
      · rw [if_neg heq] at hc
        obtain ⟨c, hb⟩ := hs.bean?_of_cached hc
        exact ⟨c, by rw [Heap.bean?_construct, if_neg (hnew hc), hb]⟩
    · intro kind' key' key'' bean hc hc'
      rw [Context.cached?_remember] at hc hc'
      by_cases heq : kind' = kind ∧ key' = key <;> by_cases heq' : kind' = kind ∧ key'' = key
      · exact heq.2.trans heq'.2.symm
      · rw [if_pos heq] at hc
        rw [if_neg heq'] at hc'
        exact absurd (Option.some.inj hc).symm (hnew hc')
      · rw [if_neg heq] at hc
        rw [if_pos heq'] at hc'
        exact absurd (Option.some.inj hc').symm (hnew hc)
      · rw [if_neg heq] at hc
        rw [if_neg heq'] at hc'
        exact hs.key_unique hc hc'
  refine ⟨hsound, ?_, ?_, rfl⟩
  · rw [hsound.look_eq_some, Context.cached?_remember, Heap.bean?_construct]
    simp
  · intro kind' key' hne
    unfold look
    rw [Context.cached?_remember, if_neg hne]
    cases hc : s.context.cached? kind' key' with
    | none => rfl
    | some bean =>
      show Option.map _ (Heap.content? _ bean) = Option.map _ (s.heap.content? bean)
      unfold Heap.content?
      rw [Heap.bean?_construct, if_neg (hnew hc)]

/-- The content of a cached bean is changed in its place. -/
theorem Sound.puts_modify {s : State α} (hs : s.Sound) {kind : BeanKind} {key : Key}
    {bean : BeanId} {a : α} (h : s.look kind key = some (bean, a)) (f : α → α) :
    s.Puts kind key bean (f a) { s with heap := s.heap.modify bean f } := by
  obtain ⟨hcached, hbean⟩ := hs.look_eq_some.mp h
  have hsound : Sound { s with heap := s.heap.modify bean f } := by
    constructor
    · intro kind' key' bean' hc
      obtain ⟨c, hb⟩ := hs.bean?_of_cached hc
      by_cases heq : bean' = bean
      · exact ⟨f c, by rw [Heap.bean?_modify, if_pos heq, ← heq, hb]; rfl⟩
      · exact ⟨c, by rw [Heap.bean?_modify, if_neg heq, hb]⟩
    · intro kind' key' key'' bean' hc hc'
      exact hs.key_unique hc hc'
  refine ⟨hsound, ?_, ?_, rfl⟩
  · rw [hsound.look_eq_some, Heap.bean?_modify, if_pos rfl, hbean]
    exact ⟨hcached, rfl⟩
  · intro kind' key' hne
    unfold look
    cases hc : s.context.cached? kind' key' with
    | none => rfl
    | some bean' =>
      -- the changed bean has one kind and key, and these are others
      have hother : bean' ≠ bean := by
        intro heq
        exact hne (hs.eq_of_cached hc (heq ▸ hcached))
      show Option.map _ (Heap.content? _ bean') = Option.map _ (s.heap.content? bean')
      unfold Heap.content?
      rw [Heap.bean?_modify, if_neg hother]

/-- The empty context is sound over any heap. -/
theorem sound_of_empty (heap : Heap α) : Sound { heap := heap } where
  bean?_of_cached h := by simp [Context.cached?] at h
  key_unique h := by simp [Context.cached?] at h

end State

end SqlGraph.Graph
