import SqlGraph.Proofs.Graph.Building

/-!
# What a traversal keeps

The invariant `Plan.Inv` says what the state holds when each kind has seen some rows: the beans of
a kind are those of the keys in its rows, filled from the last one. A row is seen by the root
first and then by one link after the other (`Inv.seeRoot`, `Inv.seeLinks`), so the rows seen
differ between kinds while a row is transformed.
-/

namespace SqlGraph.Graph

variable {α : Type}

/-! ## Handles -/

namespace State

variable {s s' : State α} {kind : BeanKind} {key : Key} {bean : BeanId} {a : α}

/-- The handle of the bean of a kind and key. -/
def naming (s : State α) (kind : BeanKind) (key : Key) : BeanId :=
  ((s.look kind key).map (·.1)).getD 0

theorem naming_eq (h : s.look kind key = some (bean, a)) : s.naming kind key = bean := by
  unfold naming
  rw [h]
  rfl

/-- Keys of one kind with the same handle are the same. -/
theorem Sound.key_eq_of_naming (hs : s.Sound) {key' : Key} {entry entry' : BeanId × α}
    (hlook : s.look kind key = some entry) (hlook' : s.look kind key' = some entry')
    (h : s.naming kind key = s.naming kind key') : key = key' := by
  obtain ⟨bean, a⟩ := entry
  obtain ⟨bean', a'⟩ := entry'
  rw [State.naming_eq hlook, State.naming_eq hlook'] at h
  exact hs.key_unique (hs.look_eq_some.mp hlook).1 (h ▸ (hs.look_eq_some.mp hlook').1)

/-- A handle once given stays. -/
theorem Extends.naming_eq (h : s.Extends s') (hlook : s.look kind key = some (bean, a)) :
    s'.naming kind key = s.naming kind key := by
  obtain ⟨a', hlook'⟩ := h hlook
  rw [State.naming_eq hlook, State.naming_eq hlook']

end State

/-! ## Beans of an entity -/

/-- The keys with one more row. -/
theorem Entity.mem_keys_concat {e : Entity α} {row : Row} {key : Key} (hkey : e.key? row = some key)
    (rows : List Row) (key' : Key) : key' ∈ (rows ++ [row]).filterMap e.key? ↔
      key' ∈ rows.filterMap e.key? ∨ key' = key := by
  simp [List.filterMap_append, hkey]

/-- The beans of an entity are those of the keys in the rows, and their contents are as told. -/
structure Entity.Stored (e : Entity α) (rows : List Row) (s : State α)
    (holds : Key → α → Prop) : Prop where
  absent : ∀ key, key ∉ rows.filterMap e.key? → s.look e.kind key = none
  present : ∀ key ∈ rows.filterMap e.key?, ∃ bean a,
    s.look e.kind key = some (bean, a) ∧ holds key a

namespace Entity.Stored

variable {e : Entity α} {rows : List Row} {row : Row} {s s' : State α}
  {holds holds' : Key → α → Prop}

/-- The beans stay as they are, and more is told of them. -/
theorem of_look (h : e.Stored rows s holds)
    (hlook : ∀ key, s'.look e.kind key = s.look e.kind key)
    (himp : ∀ key ∈ rows.filterMap e.key?, ∀ a, holds key a → holds' key a) :
    e.Stored rows s' holds' where
  absent key hkey := (hlook key).trans (h.absent key hkey)
  present key hkey := by
    obtain ⟨bean, a, ha, hholds⟩ := h.present key hkey
    exact ⟨bean, a, (hlook key).trans ha, himp key hkey a hholds⟩

/-- A row without key brings no bean. -/
theorem skip (h : e.Stored rows s holds) (hkey : e.key? row = none) :
    e.Stored (rows ++ [row]) s holds := by
  have hkeys : (rows ++ [row]).filterMap e.key? = rows.filterMap e.key? := by
    simp [List.filterMap_append, hkey]
  exact ⟨fun key hmem => h.absent key (hkeys ▸ hmem), fun key hmem => h.present key (hkeys ▸ hmem)⟩

/-- The bean of one key is put, and the others are left. -/
theorem put_key (h : e.Stored rows s holds) {rows' : List Row} {key : Key}
    (hkeys : ∀ key', key' ∈ rows'.filterMap e.key? ↔ key' ∈ rows.filterMap e.key? ∨ key' = key)
    {bean : BeanId} {a : α} (hputs : s.Puts e.kind key bean a s') (hself : holds' key a)
    (himp : ∀ key' ∈ rows.filterMap e.key?, key' ≠ key → ∀ a, holds key' a → holds' key' a) :
    e.Stored rows' s' holds' := by
  constructor
  · intro key' hmem
    rw [hkeys, not_or] at hmem
    exact (hputs.look_of_key_ne hmem.2).trans (h.absent key' hmem.1)
  · intro key' hmem
    by_cases heq : key' = key
    · subst heq
      exact ⟨bean, a, hputs.look_self, hself⟩
    · rw [hkeys] at hmem
      have hold : key' ∈ rows.filterMap e.key? := hmem.resolve_right heq
      obtain ⟨bean', a', hlook, hholds⟩ := h.present key' hold
      exact ⟨bean', a', (hputs.look_of_key_ne heq).trans hlook, himp key' hold heq a' hholds⟩

/-- A bean that is there belongs to a key in the rows. -/
theorem mem_of_look (h : e.Stored rows s holds) {key : Key} {bean : BeanId} {a : α}
    (hlook : s.look e.kind key = some (bean, a)) : key ∈ rows.filterMap e.key? := by
  by_contra hmem
  rw [h.absent key hmem] at hlook
  simp at hlook

/-- What is told of the bean that is there. -/
theorem holds_of_look (h : e.Stored rows s holds) {key : Key} {bean : BeanId} {a : α}
    (hlook : s.look e.kind key = some (bean, a)) : holds key a := by
  obtain ⟨bean', a', hlook', hholds⟩ := h.present key (h.mem_of_look hlook)
  rw [hlook] at hlook'
  obtain rfl : a = a' := congrArg Prod.snd (Option.some.inj hlook')
  exact hholds

end Entity.Stored

/-! ## The invariant -/

/-- The rows seen when one kind sees one more. -/
def pushRow (rowsAt : BeanKind → List Row) (kind : BeanKind) (row : Row) : BeanKind → List Row :=
  fun other => if other = kind then rowsAt other ++ [row] else rowsAt other

@[simp] theorem pushRow_self (rowsAt : BeanKind → List Row) (kind : BeanKind) (row : Row) :
    pushRow rowsAt kind row kind = rowsAt kind ++ [row] := if_pos rfl

theorem pushRow_of_ne (rowsAt : BeanKind → List Row) {kind other : BeanKind} (row : Row)
    (h : other ≠ kind) : pushRow rowsAt kind row other = rowsAt other := if_neg h

namespace Plan

variable {p : Plan α} {rowsAt : BeanKind → List Row} {s s' : State α} {row : Row} {key : Key}

/-- What is told of a root: its fields are those of the last row, and its collections hold the
related beans. -/
def HoldsGroup (p : Plan α) (rowsAt : BeanKind → List Row) (bean : BeanKind → Key → BeanId)
    (key : Key) (a : α) : Prop :=
  p.emptied a = p.root.content (rowsAt p.root.kind) key ∧
    ∀ l ∈ p.links, l.collection.get a =
      (p.relatedKeys l (rowsAt l.target.kind) key).map (bean l.target.kind)

/-- Every row seen has a root and can be read, and the root has seen all of them. -/
structure Seen (p : Plan α) (rowsAt : BeanKind → List Row) : Prop where
  reads : ∀ kind, ∀ row ∈ rowsAt kind, p.Reads row
  rooted : ∀ kind, ∀ row ∈ rowsAt kind, (p.root.key? row).isSome = true
  mem_root : ∀ kind, ∀ row ∈ rowsAt kind, row ∈ rowsAt p.root.kind

/-- The state after each kind has seen its rows. -/
structure Inv (p : Plan α) (rowsAt : BeanKind → List Row) (s : State α) : Prop where
  seen : p.Seen rowsAt
  sound : s.Sound
  root : p.root.Stored (rowsAt p.root.kind) s (p.HoldsGroup rowsAt s.naming)
  target : ∀ l ∈ p.links, l.target.Stored (rowsAt l.target.kind) s fun key a =>
    a = l.target.content (rowsAt l.target.kind) key

namespace Seen

/-- One more row is seen, by the root before the others. -/
theorem push (h : p.Seen rowsAt) (hrow : p.Reads row) (hkey : p.root.key? row = some key)
    {kind : BeanKind} (hkind : kind = p.root.kind ∨ row ∈ rowsAt p.root.kind) :
    p.Seen (pushRow rowsAt kind row) := by
  have hmem : ∀ other, ∀ r ∈ pushRow rowsAt kind row other, r ∈ rowsAt other ∨ r = row := by
    intro other r hr
    by_cases heq : other = kind
    · rw [heq, pushRow_self, List.mem_append, List.mem_singleton] at hr
      exact heq ▸ hr
    · rw [pushRow_of_ne rowsAt row heq] at hr
      exact .inl hr
  -- when another kind sees the row, the root has seen it
  have hroot : ∀ r, r ∈ rowsAt p.root.kind ∨ r = row →
      r ∈ pushRow rowsAt kind row p.root.kind := by
    intro r hr
    by_cases heq : p.root.kind = kind
    · rw [← heq, pushRow_self, List.mem_append, List.mem_singleton]
      exact hr
    · rw [pushRow_of_ne rowsAt row heq]
      rcases hr with hold | rfl
      · exact hold
      · exact hkind.resolve_left (Ne.symm heq)
  constructor
  · intro other r hr
    rcases hmem other r hr with hold | rfl
    · exact h.reads other r hold
    · exact hrow
  · intro other r hr
    rcases hmem other r hr with hold | rfl
    · exact h.rooted other r hold
    · exact Option.isSome_of_eq_some hkey
  · intro other r hr
    rcases hmem other r hr with hold | rfl
    · exact hroot r (.inl (h.mem_root other r hold))
    · exact hroot r (.inr rfl)

/-- No root key seen has the float `-0.0`. -/
theorem root_zeroFree (h : p.Seen rowsAt) (kind : BeanKind)
    (hmem : key ∈ (rowsAt kind).filterMap p.root.key?) : key.zeroFree = true := by
  obtain ⟨r, hr, hkey⟩ := List.mem_filterMap.mp hmem
  exact (h.reads kind r hr).root_zeroFree key hkey

/-- No related key seen has the float `-0.0`. -/
theorem target_zeroFree (h : p.Seen rowsAt) {l : Link α} (hl : l ∈ p.links) (kind : BeanKind)
    (hmem : key ∈ (rowsAt kind).filterMap l.target.key?) : key.zeroFree = true := by
  obtain ⟨r, hr, hkey⟩ := List.mem_filterMap.mp hmem
  exact (h.reads kind r hr).target_zeroFree (h.rooted kind r hr) l hl key hkey

end Seen

/-- The related keys of one root are among those of all rows. -/
theorem mem_of_mem_relatedKeys {l : Link α} {rows : List Row} {related : Key}
    (h : related ∈ p.relatedKeys l rows key) : related ∈ rows.filterMap l.target.key? := by
  obtain ⟨r, hr, hkey⟩ := List.mem_filterMap.mp (mem_of_mem_distinctKeys h)
  exact List.mem_filterMap.mpr ⟨r, (List.mem_filter.mp hr).1, hkey⟩

/-- A row without related key adds none. -/
theorem relatedKeys_concat_of_none {l : Link α} (h : l.target.key? row = none) (rows : List Row) :
    p.relatedKeys l (rows ++ [row]) key = p.relatedKeys l rows key := by
  unfold relatedKeys Entity.rowsOf
  rw [List.filter_append, List.filterMap_append]
  cases hrow : (p.root.key? row == some key) <;> simp [hrow, h]

/-- A row of another root adds no related key. -/
theorem relatedKeys_concat_of_ne {l : Link α} {root : Key} (hrow : p.Reads row)
    (hroot : p.root.key? row = some root) (hne : key ≠ root) (hkey : key.zeroFree = true)
    (rows : List Row) : p.relatedKeys l (rows ++ [row]) key = p.relatedKeys l rows key := by
  unfold relatedKeys
  rw [Entity.rowsOf_concat_of_ne (Entity.key?_ne hroot hne) hrow.root_zeroFree hkey]

/-- A row of the root adds its related key. -/
theorem relatedKeys_concat_self {l : Link α} {related : Key} (hroot : p.root.key? row = some key)
    (hrelated : l.target.key? row = some related) (rows : List Row) :
    p.relatedKeys l (rows ++ [row]) key =
      Accumulator.insertDistinct (p.relatedKeys l rows key) related := by
  unfold relatedKeys
  rw [Entity.rowsOf_concat_self hroot, List.filterMap_append, ← distinctKeys_concat]
  simp [hrelated]

namespace Inv

/-- The related beans of a root keep their handles. -/
theorem map_naming (h : p.Inv rowsAt s) (hext : s.Extends s') {l : Link α} (hl : l ∈ p.links)
    (key : Key) :
    (p.relatedKeys l (rowsAt l.target.kind) key).map (s'.naming l.target.kind) =
      (p.relatedKeys l (rowsAt l.target.kind) key).map (s.naming l.target.kind) := by
  refine List.map_congr_left fun related hrelated => ?_
  obtain ⟨bean, a, hlook, -⟩ := (h.target l hl).present related (mem_of_mem_relatedKeys hrelated)
  exact hext.naming_eq hlook

/-- A root that is built has no related beans yet when its key is new. -/
theorem relatedKeys_eq_nil (h : p.Inv rowsAt s) (hlook : s.look p.root.kind key = none)
    (hkey : key.zeroFree = true) (l : Link α) :
    p.relatedKeys l (rowsAt l.target.kind) key = [] := by
  have hnew : key ∉ (rowsAt l.target.kind).filterMap p.root.key? := by
    intro hmem
    obtain ⟨r, hr, hr'⟩ := List.mem_filterMap.mp hmem
    have hroot : key ∈ (rowsAt p.root.kind).filterMap p.root.key? :=
      List.mem_filterMap.mpr ⟨r, h.seen.mem_root _ r hr, hr'⟩
    obtain ⟨bean, a, hsome, -⟩ := h.root.present key hroot
    rw [hlook] at hsome
    simp at hsome
  unfold Plan.relatedKeys
  rw [Entity.rowsOf_eq_nil (fun r hr => (h.seen.reads _ r hr).root_zeroFree) hkey hnew]
  rfl

/-- The root sees a row: its bean is found or constructed, and filled. -/
theorem seeRoot (hp : p.Lawful) (h : p.Inv rowsAt s) (hrow : p.Reads row)
    (hkey : p.root.key? row = some key) :
    ∃ bean fresh a s₁ s₂, p.root.factory.produce row s = (.ok (some (bean, fresh)), s₁) ∧
      fillAll bean row p.root.readers s₁ = (.ok (), s₂) ∧
      p.Inv (pushRow rowsAt p.root.kind row) s₂ ∧ s₂.look p.root.kind key = some (bean, a) ∧
      s.Extends s₂ ∧ s₂.context.roots = s.context.roots := by
  obtain ⟨bean, fresh, a, s₁, s₂, hproduce, hfill, hputs, hext, hold⟩ :=
    Entity.build h.sound hrow.root hkey
  have hcells := hrow.root.cells (Option.isSome_of_eq_some hkey)
  have hzero := hrow.root_zeroFree key hkey
  have htarget : ∀ l ∈ p.links,
      pushRow rowsAt p.root.kind row l.target.kind = rowsAt l.target.kind :=
    fun l hl => pushRow_of_ne rowsAt row (hp.kind_ne_root hl)
  -- what the bean was before: a root of earlier rows, or a new one
  have hbefore : p.root.fill row (p.emptied a) = p.root.fill row (p.root.construct key) ∧
      ∀ l ∈ p.links, l.collection.get a =
        (p.relatedKeys l (rowsAt l.target.kind) key).map (s₂.naming l.target.kind) := by
    rcases hold with hlook | ⟨hlook, rfl⟩
    · obtain ⟨hfields, hcollections⟩ := h.root.holds_of_look hlook
      refine ⟨?_, fun l hl => ?_⟩
      · rw [hfields, Entity.fill_content hp.root_overwriting hcells]
      · rw [hcollections l hl, h.map_naming hext hl]
    · refine ⟨?_, fun l hl => ?_⟩
      · rw [hp.emptied_construct]
      · rw [h.relatedKeys_eq_nil hlook hzero l, hp.get_construct l hl]
        rfl
  -- the fill overwrites the fields, whatever they were, and leaves the collections
  have hself : p.HoldsGroup (pushRow rowsAt p.root.kind row) s₂.naming key
      (p.root.fill row a) := by
    refine ⟨?_, fun l hl => ?_⟩
    · rw [hp.emptied_fill, hbefore.1, pushRow_self, Entity.content_concat_self hkey]
    · rw [hp.get_fill hl, hbefore.2 l hl, htarget l hl]
  have hother : ∀ key' ∈ (rowsAt p.root.kind).filterMap p.root.key?, key' ≠ key → ∀ a,
      p.HoldsGroup rowsAt s.naming key' a →
      p.HoldsGroup (pushRow rowsAt p.root.kind row) s₂.naming key' a := by
    intro key' hmem hne a' ⟨hfields, hcollections⟩
    have hzero' := h.seen.root_zeroFree _ hmem
    refine ⟨?_, fun l hl => ?_⟩
    · rw [hfields, pushRow_self,
        Entity.content_concat_of_ne (Entity.key?_ne hkey hne) hrow.root_zeroFree hzero']
    · rw [hcollections l hl, htarget l hl, h.map_naming hext hl]
  refine ⟨bean, fresh, _, s₁, s₂, hproduce, hfill, ?_, hputs.look_self, hext, hputs.roots_eq⟩
  constructor
  · exact h.seen.push hrow hkey (.inl rfl)
  · exact hputs.sound
  · rw [pushRow_self]
    exact h.root.put_key (Entity.mem_keys_concat hkey _) hputs hself hother
  · intro l hl
    rw [htarget l hl]
    exact (h.target l hl).of_look (hputs.look_of_kind_ne (hp.kind_ne_root hl))
      fun _ _ _ ha => ha

/-- A link sees a row without related key: nothing changes. -/
theorem seeLink_of_none (h : p.Inv rowsAt s) {l : Link α} (hl : l ∈ p.links) (hp : p.Lawful)
    (hrow : p.Reads row) (hkey : p.root.key? row = some key) (hmem : row ∈ rowsAt p.root.kind)
    (hnone : l.target.key? row = none) : p.Inv (pushRow rowsAt l.target.kind row) s := by
  have hroot := pushRow_of_ne rowsAt row (hp.kind_ne_root hl).symm
  constructor
  · exact h.seen.push hrow hkey (.inr hmem)
  · exact h.sound
  · rw [hroot]
    refine h.root.of_look (fun _ => rfl) fun key' _ a ⟨hfields, hcollections⟩ => ?_
    refine ⟨hroot ▸ hfields, fun m hm => ?_⟩
    by_cases hkind : m.target.kind = l.target.kind
    · obtain rfl := hp.eq_of_kind_eq hm hl hkind
      rw [pushRow_self, relatedKeys_concat_of_none hnone, hcollections m hm]
    · rw [pushRow_of_ne rowsAt row hkind, hcollections m hm]
  · intro m hm
    by_cases hkind : m.target.kind = l.target.kind
    · obtain rfl := hp.eq_of_kind_eq hm hl hkind
      rw [pushRow_self]
      refine ((h.target m hm).skip hnone).of_look (fun _ => rfl) fun key' hmem' a ha => ?_
      have hold : key' ∈ (rowsAt m.target.kind).filterMap m.target.key? := by
        simpa [List.filterMap_append, hnone] using hmem'
      rw [ha, Entity.content_concat_of_ne (by simp [hnone]) (by simp [hnone])
        (h.seen.target_zeroFree hm _ hold)]
    · rw [pushRow_of_ne rowsAt row hkind]
      exact h.target m hm

section SeeLink

variable {l : Link α} {related : Key} {bean other : BeanId} {a : α}

/-- The collection of a root with the related bean of one more of its rows. -/
theorem holdsGroup_add (hp : p.Lawful) (h : p.Inv rowsAt s) (hl : l ∈ p.links)
    (hrow : p.Reads row) (hkey : p.root.key? row = some key)
    (hrelated : l.target.key? row = some related)
    (hlook : s.look p.root.kind key = some (bean, a)) (hext : s.Extends s') (hsound : s'.Sound)
    {b : α} (hother : s'.look l.target.kind related = some (other, b)) :
    p.HoldsGroup (pushRow rowsAt l.target.kind row) s'.naming key (l.collection.add other a) := by
  obtain ⟨hfields, hcollections⟩ := h.root.holds_of_look hlook
  have hrooted := Option.isSome_of_eq_some hkey
  have hzero := hrow.target_zeroFree hrooted l hl related hrelated
  unfold Collection.add
  refine ⟨?_, fun m hm => ?_⟩
  · rw [hp.emptied_set hl, pushRow_of_ne rowsAt row (hp.kind_ne_root hl).symm]
    exact hfields
  · by_cases hkind : m.target.kind = l.target.kind
    · obtain rfl := hp.eq_of_kind_eq hm hl hkind
      -- handles tell keys apart, so adding the bean is adding its key
      have hold : ∀ k ∈ p.relatedKeys m (rowsAt m.target.kind) key,
          k.zeroFree = true ∧
          (s'.naming m.target.kind k = s'.naming m.target.kind related → k = related) := by
        intro k hk
        have hmem := mem_of_mem_relatedKeys hk
        refine ⟨h.seen.target_zeroFree hm _ hmem, fun heq => ?_⟩
        obtain ⟨bean', c, hk', -⟩ := (h.target m hm).present k hmem
        obtain ⟨c', hk''⟩ := hext hk'
        exact hsound.key_eq_of_naming hk'' hother heq
      rw [(hp.collection_lawful m hm).get_set, hcollections m hm, pushRow_self,
        relatedKeys_concat_self hkey hrelated,
        map_insertDistinct (fun k hk => (hold k hk).1) hzero fun k hk => (hold k hk).2,
        h.map_naming hext hm, State.naming_eq hother]
    · rw [(hp.independent_of_kind_ne hm hl hkind).get_set, hcollections m hm,
        pushRow_of_ne rowsAt row hkind, h.map_naming hext hm]

/-- The collections of another root stay. -/
theorem holdsGroup_of_ne (hp : p.Lawful) (h : p.Inv rowsAt s) (hl : l ∈ p.links)
    (hrow : p.Reads row) (hkey : p.root.key? row = some key) (hext : s.Extends s') {key' : Key}
    (hmem : key' ∈ (rowsAt p.root.kind).filterMap p.root.key?) (hne : key' ≠ key)
    (hold : p.HoldsGroup rowsAt s.naming key' a) :
    p.HoldsGroup (pushRow rowsAt l.target.kind row) s'.naming key' a := by
  obtain ⟨hfields, hcollections⟩ := hold
  refine ⟨?_, fun m hm => ?_⟩
  · rw [pushRow_of_ne rowsAt row (hp.kind_ne_root hl).symm]
    exact hfields
  · by_cases hkind : m.target.kind = l.target.kind
    · obtain rfl := hp.eq_of_kind_eq hm hl hkind
      rw [pushRow_self, relatedKeys_concat_of_ne hrow hkey hne (h.seen.root_zeroFree _ hmem),
        hcollections m hm, h.map_naming hext hm]
    · rw [pushRow_of_ne rowsAt row hkind, hcollections m hm, h.map_naming hext hm]

/-- The related beans after one more row with a related key. -/
theorem stored_target (hp : p.Lawful) (h : p.Inv rowsAt s) (hl : l ∈ p.links)
    (hrow : p.Reads row) (hrooted : (p.root.key? row).isSome = true)
    (hrelated : l.target.key? row = some related) {b : α}
    (hold : s.look l.target.kind related = some (other, b) ∨
      s.look l.target.kind related = none ∧ b = l.target.construct related)
    (hputs : s.Puts l.target.kind related other (l.target.fill row b) s') :
    l.target.Stored (rowsAt l.target.kind ++ [row]) s' fun key a =>
      a = l.target.content (rowsAt l.target.kind ++ [row]) key := by
  have hcells := (hrow.target hrooted l hl).cells (Option.isSome_of_eq_some hrelated)
  have hself : l.target.fill row b =
      l.target.content (rowsAt l.target.kind ++ [row]) related := by
    rw [Entity.content_concat_self hrelated]
    rcases hold with hsome | ⟨-, rfl⟩
    · rw [(h.target l hl).holds_of_look hsome,
        Entity.fill_content (hp.target_overwriting l hl) hcells]
    · rfl
  refine (h.target l hl).put_key (Entity.mem_keys_concat hrelated _) hputs hself ?_
  intro key' hmem hne a' ha'
  rw [ha', Entity.content_concat_of_ne (Entity.key?_ne hrelated hne)
    (hrow.target_zeroFree hrooted l hl) (h.seen.target_zeroFree hl _ hmem)]

/-- The state after a link has seen a row with a related key: first the related bean is put, then
the root. -/
theorem seeLink_of_some (hp : p.Lawful) (h : p.Inv rowsAt s) (hl : l ∈ p.links)
    (hrow : p.Reads row) (hkey : p.root.key? row = some key) (hmem : row ∈ rowsAt p.root.kind)
    (hrelated : l.target.key? row = some related)
    (hlook : s.look p.root.kind key = some (bean, a)) {b : α}
    (hold : s.look l.target.kind related = some (other, b) ∨
      s.look l.target.kind related = none ∧ b = l.target.construct related)
    (hputs : s.Puts l.target.kind related other (l.target.fill row b) s')
    {s'' : State α} (hadd : s'.Puts p.root.kind key bean (l.collection.add other a) s'')
    (hext : s.Extends s'') : p.Inv (pushRow rowsAt l.target.kind row) s'' := by
  have hrooted := Option.isSome_of_eq_some hkey
  have hne := hp.kind_ne_root hl
  have hother : s''.look l.target.kind related = some (other, l.target.fill row b) :=
    (hadd.look_of_kind_ne hne related).trans hputs.look_self
  constructor
  · exact h.seen.push hrow hkey (.inr hmem)
  · exact hadd.sound
  · rw [pushRow_of_ne rowsAt row hne.symm]
    have hkept := h.root.of_look (hputs.look_of_kind_ne hne.symm) fun _ _ _ ha => ha
    -- the root has seen the row before, so its keys are the same
    have hkeys : ∀ key', key' ∈ (rowsAt p.root.kind).filterMap p.root.key? ↔
        key' ∈ (rowsAt p.root.kind).filterMap p.root.key? ∨ key' = key := by
      intro key'
      constructor
      · exact .inl
      · rintro (hold | rfl)
        · exact hold
        · exact h.root.mem_of_look hlook
    exact hkept.put_key hkeys hadd
      (h.holdsGroup_add hp hl hrow hkey hrelated hlook hext hadd.sound hother)
      fun key' hmem' hne' a' hold' => h.holdsGroup_of_ne hp hl hrow hkey hext hmem' hne' hold'
  · intro m hm
    by_cases hkind : m.target.kind = l.target.kind
    · obtain rfl := hp.eq_of_kind_eq hm hl hkind
      rw [pushRow_self]
      exact (h.stored_target hp hm hrow hrooted hrelated hold hputs).of_look
        (hadd.look_of_kind_ne hne) fun _ _ _ ha => ha
    · rw [pushRow_of_ne rowsAt row hkind]
      refine (h.target m hm).of_look (fun key' => ?_) fun _ _ _ ha => ha
      rw [hadd.look_of_kind_ne (hp.kind_ne_root hm), hputs.look_of_kind_ne hkind]

end SeeLink

/-- A link sees a row: the related bean is found or constructed, filled, and added to the
collection of the root. -/
theorem seeLink (hp : p.Lawful) (h : p.Inv rowsAt s) {l : Link α} (hl : l ∈ p.links)
    (hrow : p.Reads row) (hkey : p.root.key? row = some key) (hmem : row ∈ rowsAt p.root.kind)
    {bean : BeanId} {a : α} (hlook : s.look p.root.kind key = some (bean, a)) :
    ∃ a' s', l.relation.assemble bean row s = (.ok (), s') ∧
      p.Inv (pushRow rowsAt l.target.kind row) s' ∧
      s'.look p.root.kind key = some (bean, a') ∧ s.Extends s' ∧
      s'.context.roots = s.context.roots := by
  have hrooted := Option.isSome_of_eq_some hkey
  have hreads := hrow.target hrooted l hl
  cases hrelated : l.target.key? row with
  | none =>
    refine ⟨a, s, ?_, h.seeLink_of_none hl hp hrow hkey hmem hrelated, hlook, fun h => ⟨_, h⟩, rfl⟩
    simp [Link.relation, Relation.assemble, Transformer.transform, Outcome.andThen,
      Entity.produce_of_none hreads hrelated]
  | some related =>
    obtain ⟨other, fresh, b, s₁, s₂, hproduce, hfill, hputs, hext, hold⟩ :=
      Entity.build h.sound hreads hrelated
    have hlook₂ : s₂.look p.root.kind key = some (bean, a) :=
      (hputs.look_of_kind_ne (hp.kind_ne_root hl).symm key).trans hlook
    have hadd := hputs.sound.puts_modify hlook₂ (l.collection.add other)
    have hext₃ : s.Extends _ := hext.trans (hadd.extends_of_look hlook₂)
    refine ⟨_, _, ?_, ?_, hadd.look_self, hext₃, hadd.roots_eq.trans hputs.roots_eq⟩
    · simp [Link.relation, Relation.assemble, Transformer.transform, Outcome.andThen, hproduce,
        hfill, assembleAll, applyFixer, Collection.fix_fixer]
    · exact h.seeLink_of_some hp hl hrow hkey hmem hrelated hlook hold hputs hadd hext₃

/-- Links see a row in order. -/
theorem seeLinks (hp : p.Lawful) {links : List (Link α)} (hlinks : links ⊆ p.links)
    (h : p.Inv rowsAt s) (hrow : p.Reads row) (hkey : p.root.key? row = some key)
    (hmem : row ∈ rowsAt p.root.kind) {bean : BeanId} {a : α}
    (hlook : s.look p.root.kind key = some (bean, a)) :
    ∃ a' s', assembleAll (links.map (·.relation)) bean row s = (.ok (), s') ∧
      p.Inv ((links.map (·.target.kind)).foldl (pushRow · · row) rowsAt) s' ∧
      s'.look p.root.kind key = some (bean, a') ∧ s.Extends s' ∧
      s'.context.roots = s.context.roots := by
  induction links generalizing rowsAt s a with
  | nil => exact ⟨a, s, rfl, h, hlook, fun h => ⟨_, h⟩, rfl⟩
  | cons l rest ih =>
    have hl : l ∈ p.links := hlinks List.mem_cons_self
    obtain ⟨a₁, s₁, hassemble, hinv, hlook₁, hext, hroots⟩ :=
      h.seeLink hp hl hrow hkey hmem hlook
    have hmem₁ : row ∈ pushRow rowsAt l.target.kind row p.root.kind := by
      rw [pushRow_of_ne rowsAt row (hp.kind_ne_root hl).symm]
      exact hmem
    obtain ⟨a₂, s₂, hrest, hinv₂, hlook₂, hext₂, hroots₂⟩ :=
      ih (fun m hm => hlinks (List.mem_cons_of_mem l hm)) hinv hmem₁ hlook₁
    refine ⟨a₂, s₂, ?_, hinv₂, hlook₂, hext.trans hext₂, hroots₂.trans hroots⟩
    rw [List.map_cons, assembleAll, hassemble]
    exact hrest

/-- Only the rows at the kinds of the plan matter. -/
theorem congr (h : p.Inv rowsAt s) {rowsAt' : BeanKind → List Row} (hseen : p.Seen rowsAt')
    (hroot : rowsAt' p.root.kind = rowsAt p.root.kind)
    (htarget : ∀ l ∈ p.links, rowsAt' l.target.kind = rowsAt l.target.kind) :
    p.Inv rowsAt' s := by
  constructor
  · exact hseen
  · exact h.sound
  · rw [hroot]
    refine h.root.of_look (fun _ => rfl) fun key' _ a ⟨hfields, hcollections⟩ => ?_
    refine ⟨hroot ▸ hfields, fun l hl => ?_⟩
    rw [hcollections l hl, htarget l hl]
  · intro l hl
    rw [htarget l hl]
    exact h.target l hl

end Inv

end Plan

end SqlGraph.Graph
