import SqlGraph.Proofs.Graph.Invariant

/-!
# Traversals group rows

A traversal by a lawful plan gives the grouping of its rows. The invariant is kept by every row
(`Plan.Inv.transform_of_some`), and so by all of them, while each root is listed on its first row
(`Plan.RowInv.traverseFrom_ok`). At the end of the result it says what is claimed:
`Plan.list_eq_rootKeys`.
-/

namespace SqlGraph.Graph

variable {α : Type}

namespace Plan

variable {p : Plan α} {rowsAt : BeanKind → List Row} {s s' : State α} {row : Row} {key : Key}

/-! ## A row -/

/-- Every kind of a list sees the row once. -/
theorem foldl_pushRow {kinds : List BeanKind} (hnodup : kinds.Nodup)
    (rowsAt : BeanKind → List Row) (row : Row) (kind : BeanKind) :
    kinds.foldl (pushRow · · row) rowsAt kind =
      if kind ∈ kinds then rowsAt kind ++ [row] else rowsAt kind := by
  induction kinds generalizing rowsAt with
  | nil => rfl
  | cons first rest ih =>
    obtain ⟨hfirst, hrest⟩ := List.nodup_cons.mp hnodup
    rw [List.foldl_cons, ih hrest]
    by_cases heq : kind = first
    · subst heq
      rw [if_neg hfirst, if_pos List.mem_cons_self, pushRow_self]
    · have hmem : kind ∈ first :: rest ↔ kind ∈ rest := by simp [heq]
      rw [pushRow_of_ne rowsAt row heq]
      simp only [hmem]

/-- A row without root changes nothing. -/
theorem transform_of_none (hrow : p.Reads row) (hkey : p.root.key? row = none) :
    p.transformer.transform row s = (.ok none, s) := by
  simp [transformer, Transformer.transform, Outcome.andThen,
    Entity.produce_of_none hrow.root hkey]

/-- A row with a root is seen by every kind. -/
theorem Inv.transform_of_some (hp : p.Lawful) {rows : List Row} (h : p.Inv (fun _ => rows) s)
    (hrow : p.Reads row) (hkey : p.root.key? row = some key) :
    ∃ bean a s', p.transformer.transform row s = (.ok (some bean), s') ∧
      p.Inv (fun _ => rows ++ [row]) s' ∧ s'.look p.root.kind key = some (bean, a) ∧
      s.Extends s' ∧ s'.context.roots = s.context.roots := by
  obtain ⟨bean, fresh, a, s₁, s₂, hproduce, hfill, hinv, hlook, hext, hroots⟩ :=
    h.seeRoot hp hrow hkey
  have hmem : row ∈ pushRow (fun _ => rows) p.root.kind row p.root.kind := by simp
  obtain ⟨a₃, s₃, hassemble, hinv₃, hlook₃, hext₃, hroots₃⟩ :=
    hinv.seeLinks hp (List.Subset.refl _) hrow hkey hmem hlook
  -- the root and every link have seen the row, so at the kinds of the plan all rows are the same
  have hseen : p.Seen fun _ => rows ++ [row] := by
    constructor
    · intro _ r hr
      rcases List.mem_append.mp hr with hold | hnew
      · exact h.seen.reads p.root.kind r hold
      · exact List.mem_singleton.mp hnew ▸ hrow
    · intro _ r hr
      rcases List.mem_append.mp hr with hold | hnew
      · exact h.seen.rooted p.root.kind r hold
      · exact List.mem_singleton.mp hnew ▸ Option.isSome_of_eq_some hkey
    · exact fun _ _ hr => hr
  have hnodup := List.nodup_cons.mp hp.kinds_nodup
  refine ⟨bean, a₃, s₃, ?_, hinv₃.congr hseen ?_ fun l hl => ?_, hlook₃, hext.trans hext₃,
    hroots₃.trans hroots⟩
  · simp [transformer, Transformer.transform, Outcome.andThen, hproduce, hfill, hassemble]
  · rw [foldl_pushRow hnodup.2, if_neg hnodup.1, pushRow_self]
  · rw [foldl_pushRow hnodup.2, if_pos (List.mem_map_of_mem hl),
      pushRow_of_ne _ row (hp.kind_ne_root hl)]

/-! ## A result -/

section Deliver

variable (seed : List BeanId) (bean : BeanId)

/-- Handing a root over leaves the cache. -/
theorem cached?_markRoot (c : Context) (kind : BeanKind) (key : Key) :
    (c.markRoot bean).cached? kind key = c.cached? kind key := by
  unfold Context.markRoot
  split <;> rfl

theorem look_markRoot (s : State α) (kind : BeanKind) (key : Key) :
    State.look { s with context := s.context.markRoot bean } kind key = s.look kind key := by
  unfold State.look
  rw [cached?_markRoot]

theorem naming_markRoot (s : State α) :
    State.naming { s with context := s.context.markRoot bean } = s.naming := by
  funext kind key
  unfold State.naming
  rw [look_markRoot]

theorem Inv.markRoot (h : p.Inv rowsAt s) :
    p.Inv rowsAt { s with context := s.context.markRoot bean } := by
  constructor
  · exact h.seen
  · exact ⟨fun hc => h.sound.bean?_of_cached ((cached?_markRoot bean _ _ _).symm.trans hc),
      fun hc hc' => h.sound.key_unique ((cached?_markRoot bean _ _ _).symm.trans hc)
        ((cached?_markRoot bean _ _ _).symm.trans hc')⟩
  · rw [naming_markRoot]
    exact h.root.of_look (look_markRoot bean s p.root.kind) fun _ _ _ ha => ha
  · intro l hl
    exact (h.target l hl).of_look (look_markRoot bean s l.target.kind) fun _ _ _ ha => ha

/-- A root is listed when it is handed over first. -/
theorem deliver_toList (h : ∀ b, b ∈ s.context.roots ↔ b ∈ seed) :
    Transformer.deliver (Accumulator.toList.comap (·.bean)) seed bean s =
      (.ok (Accumulator.insertDistinct seed bean),
        { s with context := s.context.markRoot bean }) ∧
    ∀ b, b ∈ (s.context.markRoot bean).roots ↔ b ∈ Accumulator.insertDistinct seed bean := by
  unfold Transformer.deliver Context.markRoot Accumulator.insertDistinct
  by_cases hroot : bean ∈ s.context.roots
  · have hisRoot : s.context.isRoot bean = true := by simpa [Context.isRoot] using hroot
    have hany : (seed.any fun other => other == bean) = true := by simpa using (h bean).mp hroot
    rw [if_pos hisRoot, if_pos hisRoot, if_pos hany]
    exact ⟨rfl, h⟩
  · have hisRoot : ¬ s.context.isRoot bean = true := by simpa [Context.isRoot] using hroot
    have hany : ¬ (seed.any fun other => other == bean) = true := by
      simpa using fun hmem => hroot ((h bean).mpr hmem)
    rw [if_neg hisRoot, if_neg hisRoot, if_neg hany]
    refine ⟨rfl, fun b => ?_⟩
    rw [List.mem_cons, List.mem_append, List.mem_singleton, h b]
    exact Or.comm

end Deliver

section Rooted

variable (p) (rows : List Row)

theorem rooted_concat_of_none (h : p.root.key? row = none) :
    p.rooted (rows ++ [row]) = p.rooted rows := by
  simp [rooted, List.filter_append, h]

theorem rooted_concat_of_some (h : p.root.key? row = some key) :
    p.rooted (rows ++ [row]) = p.rooted rows ++ [row] := by
  simp [rooted, List.filter_append, h]

theorem rootKeys_concat_of_none (h : p.root.key? row = none) :
    p.rootKeys (rows ++ [row]) = p.rootKeys rows := by
  simp [rootKeys, List.filterMap_append, h]

theorem rootKeys_concat_of_some (h : p.root.key? row = some key) :
    p.rootKeys (rows ++ [row]) = Accumulator.insertDistinct (p.rootKeys rows) key := by
  unfold rootKeys
  rw [List.filterMap_append, ← distinctKeys_concat]
  simp [h]

/-- Rows with a root have all the root keys. -/
theorem filterMap_rooted : (p.rooted rows).filterMap p.root.key? = rows.filterMap p.root.key? := by
  unfold rooted
  induction rows with
  | nil => rfl
  | cons r rest ih => cases hkey : p.root.key? r <;> simp [hkey, ih]

/-- The rows of a root have one. -/
theorem rowsOf_rooted (key : Key) : p.root.rowsOf (p.rooted rows) key = p.root.rowsOf rows key := by
  unfold rooted Entity.rowsOf
  rw [List.filter_filter]
  congr 1
  funext r
  cases p.root.key? r with
  | none => rfl
  | some k => simp

end Rooted

/-- The handles of the roots of rows. -/
def listed (p : Plan α) (rows : List Row) (s : State α) : List BeanId :=
  (p.rootKeys rows).map (s.naming p.root.kind)

/-- The state between rows: every kind has seen the rows with a root, and the roots handed over
are those of the rows. -/
structure RowInv (p : Plan α) (rows : List Row) (s : State α) : Prop where
  inv : p.Inv (fun _ => p.rooted rows) s
  roots : ∀ b, b ∈ s.context.roots ↔ b ∈ p.listed rows s

namespace RowInv

variable {rows : List Row}

/-- Every root key has a bean. -/
theorem look_rootKey (h : p.RowInv rows s) {k : Key} (hk : k ∈ p.rootKeys rows) :
    k.zeroFree = true ∧ ∃ bean a, s.look p.root.kind k = some (bean, a) := by
  have hmem : k ∈ (p.rooted rows).filterMap p.root.key? := by
    rw [filterMap_rooted]
    exact mem_of_mem_distinctKeys hk
  obtain ⟨bean, a, hlook, -⟩ := h.inv.root.present k hmem
  exact ⟨h.inv.seen.root_zeroFree p.root.kind hmem, bean, a, hlook⟩

/-- Listed roots keep their handles. -/
theorem listed_extends (h : p.RowInv rows s) (hext : s.Extends s') :
    p.listed rows s' = p.listed rows s := by
  refine List.map_congr_left fun k hk => ?_
  obtain ⟨-, bean, a, hlook⟩ := h.look_rootKey hk
  exact hext.naming_eq hlook

/-- The root of one more row is listed unless it was before. -/
theorem insertDistinct_listed (h : p.RowInv rows s) (hext : s.Extends s') (hsound : s'.Sound)
    (hrow : p.Reads row) (hkey : p.root.key? row = some key) {bean : BeanId} {a : α}
    (hlook : s'.look p.root.kind key = some (bean, a)) :
    Accumulator.insertDistinct (p.listed rows s) bean = p.listed (rows ++ [row]) s' := by
  -- the handle of the new root is listed already only when its key is
  have hinj : ∀ k ∈ p.rootKeys rows,
      s'.naming p.root.kind k = s'.naming p.root.kind key → k = key := by
    intro k hk heq
    obtain ⟨-, b, c, hb⟩ := h.look_rootKey hk
    obtain ⟨c', hb'⟩ := hext hb
    exact hsound.key_eq_of_naming hb' hlook heq
  have hmap := map_insertDistinct (fun k hk => (h.look_rootKey hk).1)
    (hrow.root_zeroFree key hkey) hinj
  rw [← h.listed_extends hext, ← State.naming_eq hlook]
  unfold listed
  rw [rootKeys_concat_of_some p rows hkey, hmap]

/-- A row without root is skipped. -/
theorem skip (h : p.RowInv rows s) (hkey : p.root.key? row = none) :
    p.RowInv (rows ++ [row]) s := by
  have hlisted : p.listed (rows ++ [row]) s = p.listed rows s := by
    unfold listed
    rw [rootKeys_concat_of_none p rows hkey]
  constructor
  · rw [rooted_concat_of_none p rows hkey]
    exact h.inv
  · rw [hlisted]
    exact h.roots

/-- A row with a root is transformed, and its root handed over. -/
theorem transform_deliver (hp : p.Lawful) (h : p.RowInv rows s) (hrow : p.Reads row)
    (hkey : p.root.key? row = some key) :
    ∃ bean s₁ s₂, p.transformer.transform row s = (.ok (some bean), s₁) ∧
      Transformer.deliver (Accumulator.toList.comap (·.bean)) (p.listed rows s) bean s₁ =
        (.ok (p.listed (rows ++ [row]) s₂), s₂) ∧
      p.RowInv (rows ++ [row]) s₂ := by
  obtain ⟨bean, a, s₁, htransform, hinv, hlook, hext, hkept⟩ :=
    h.inv.transform_of_some hp hrow hkey
  rw [← rooted_concat_of_some p rows hkey] at hinv
  have hroots : ∀ b, b ∈ s₁.context.roots ↔ b ∈ p.listed rows s := by
    rw [hkept]
    exact h.roots
  obtain ⟨hdeliver, hmarked⟩ := deliver_toList _ bean hroots
  have hlisted : Accumulator.insertDistinct (p.listed rows s) bean =
      p.listed (rows ++ [row]) { s₁ with context := s₁.context.markRoot bean } := by
    rw [h.insertDistinct_listed hext hinv.sound hrow hkey hlook]
    unfold listed
    rw [naming_markRoot]
  rw [hlisted] at hdeliver hmarked
  exact ⟨bean, s₁, _, htransform, hdeliver, hinv.markRoot bean, hmarked⟩

/-- The rest of the rows: in the end the roots of all rows are listed. -/
theorem traverseFrom_ok (hp : p.Lawful) (h : p.RowInv rows s) {rest : List Row}
    (hrest : ∀ row ∈ rest, p.Reads row) :
    ∃ s', p.transformer.traverseFrom (Accumulator.toList.comap (·.bean)) (p.listed rows s)
        (rest.map .ok) s = (.ok (p.listed (rows ++ rest) s'), s') ∧
      p.RowInv (rows ++ rest) s' := by
  induction rest generalizing rows s with
  | nil =>
    rw [List.append_nil]
    exact ⟨s, rfl, h⟩
  | cons row rest ih =>
    have hrow := hrest row List.mem_cons_self
    have htail : ∀ r ∈ rest, p.Reads r := fun r hr => hrest r (List.mem_cons_of_mem row hr)
    rw [List.append_cons, List.map_cons, Transformer.traverseFrom]
    cases hkey : p.root.key? row with
    | none =>
      have hlisted : p.listed rows s = p.listed (rows ++ [row]) s := by
        unfold listed
        rw [rootKeys_concat_of_none p rows hkey]
      rw [transform_of_none hrow hkey, hlisted]
      exact ih (h.skip hkey) htail
    | some key =>
      obtain ⟨bean, s₁, s₂, htransform, hdeliver, hnext⟩ := h.transform_deliver hp hrow hkey
      rw [htransform]
      simp only [Outcome.andThen, hdeliver]
      exact ih hnext htail

end RowInv

/-- The beans that the cache names are the grouping of the rows. -/
theorem Inv.grouped (rows : List Row) (h : p.Inv (fun _ => p.rooted rows) s) :
    p.Grouped rows s.naming s.heap := by
  have hroot : ∀ key ∈ rows.filterMap p.root.key?, key.zeroFree = true ∧ ∃ bean a,
      s.look p.root.kind key = some (bean, a) ∧
      p.HoldsGroup (fun _ => p.rooted rows) s.naming key a := by
    intro key hkey
    rw [← filterMap_rooted p rows] at hkey
    exact ⟨h.seen.root_zeroFree p.root.kind hkey, h.root.present key hkey⟩
  have hunique : ∀ l ∈ p.links, ∀ key ∈ (p.rooted rows).filterMap l.target.key?,
      ∀ key' ∈ (p.rooted rows).filterMap l.target.key?,
      s.naming l.target.kind key = s.naming l.target.kind key' → key = key' := by
    intro l hl key hkey key' hkey' heq
    obtain ⟨bean, a, hlook, -⟩ := (h.target l hl).present key hkey
    obtain ⟨bean', a', hlook', -⟩ := (h.target l hl).present key' hkey'
    exact h.sound.key_eq_of_naming hlook hlook' heq
  constructor
  · intro key hkey
    obtain ⟨-, bean, a, hlook, hfields, hcollections⟩ := hroot key (mem_of_mem_distinctKeys hkey)
    refine ⟨a, ?_, ?_, fun l hl => ?_⟩
    · rw [State.naming_eq hlook]
      exact (h.sound.look_eq_some.mp hlook).2
    · rw [hfields]
      unfold Entity.content
      rw [rowsOf_rooted]
    · have hmem : ∀ k ∈ p.relatedKeys l (p.rooted rows) key,
          k ∈ (p.rooted rows).filterMap l.target.key? := fun k hk => mem_of_mem_relatedKeys hk
      have hnodup : (p.relatedKeys l (p.rooted rows) key).Nodup := by
        refine nodup_distinctKeys fun k hk => ?_
        obtain ⟨r, hr, hr'⟩ := List.mem_filterMap.mp hk
        exact h.seen.target_zeroFree hl l.target.kind
          (List.mem_filterMap.mpr ⟨r, (List.mem_filter.mp hr).1, hr'⟩)
      have hrows : p.relatedKeys l rows key = p.relatedKeys l (p.rooted rows) key := by
        unfold relatedKeys
        rw [rowsOf_rooted]
      rw [hrows, hcollections l hl]
      refine ⟨rfl, hnodup.map_on fun k hk k' hk' heq => ?_⟩
      exact hunique l hl k (hmem k hk) k' (hmem k' hk') heq
  · intro l hl key hkey
    obtain ⟨bean, a, hlook, rfl⟩ := (h.target l hl).present key hkey
    rw [State.naming_eq hlook]
    exact (h.sound.look_eq_some.mp hlook).2
  · have hnodup : (p.rootKeys rows).Nodup := nodup_distinctKeys fun k hk => (hroot k hk).1
    refine hnodup.map_on fun key hkey key' hkey' heq => ?_
    obtain ⟨-, bean, a, hlook, -⟩ := hroot key (mem_of_mem_distinctKeys hkey)
    obtain ⟨-, bean', a', hlook', -⟩ := hroot key' (mem_of_mem_distinctKeys hkey')
    exact h.sound.key_eq_of_naming hlook hlook' heq
  · exact hunique

/-- Nothing is seen yet. -/
theorem rowInv_init (p : Plan α) (heap : Heap α) : p.RowInv [] { heap := heap } := by
  have hlook : ∀ kind key, State.look { heap := heap } kind key = none := fun _ _ => rfl
  constructor
  · constructor
    · constructor <;> intro _ r hr <;> simp [rooted] at hr
    · exact State.sound_of_empty heap
    · exact ⟨fun key _ => hlook p.root.kind key, fun key hkey => by simp [rooted] at hkey⟩
    · intro l _
      exact ⟨fun key _ => hlook l.target.kind key, fun key hkey => by simp [rooted] at hkey⟩
  · intro b
    simp [listed, rootKeys, distinctKeys]

/-- Listing a result gives the beans of its root keys in order of first appearance, and the beans
are the grouping of the rows, whatever beans there were before. -/
theorem list_eq_rootKeys (hp : p.Lawful) {rows : List Row} (hrows : ∀ row ∈ rows, p.Reads row)
    (heap : Heap α) :
    ∃ (bean : BeanKind → Key → BeanId) (s' : State α),
      p.transformer.list (rows.map .ok) heap =
        (.ok ((p.rootKeys rows).map (bean p.root.kind)), s') ∧
      p.Grouped rows bean s'.heap := by
  obtain ⟨s', hlist, hend⟩ := (p.rowInv_init heap).traverseFrom_ok hp hrows
  exact ⟨s'.naming, s', hlist, hend.inv.grouped rows⟩

/-! ## Customers -/

/-- A customer with orders and visited shops, or one of those by its name alone. -/
structure Customer where
  name : Json := .null
  orders : List BeanId := []
  shops : OrderedSet := {}

/-- The name of a customer, an order or a shop. -/
def nameColumn (label : String) : FieldColumn Customer := .raw label fun v a => { a with name := v }

private theorem nameColumn_overwrites (label label' : String) :
    (nameColumn label).Overwrites (nameColumn label') := fun _ _ _ => rfl

/-- The orders of a customer, by number. -/
def orders : Link Customer where
  id := 0
  target := ⟨1, ["order"], fun _ => {}, [nameColumn "item"]⟩
  collection := .list ⟨(·.orders), fun beans a => { a with orders := beans }⟩

/-- The shops of a customer, by town. -/
def shops : Link Customer where
  id := 1
  target := ⟨2, ["town"], fun _ => {}, [nameColumn "shop"]⟩
  collection := .orderedSet ⟨(·.shops), fun beans a => { a with shops := beans }⟩

/-- Customers by number, with their orders and shops. -/
def customers : Plan Customer where
  root := ⟨0, ["customer"], fun _ => {}, [nameColumn "name"]⟩
  links := [orders, shops]

/-- A row that bears the cells as names, too. -/
def customerRow (customer order town : Json) : Row := fun label =>
  match label with
  | "customer" => .ok customer
  | "name" => .ok customer
  | "order" => .ok order
  | "item" => .ok order
  | "town" => .ok town
  | "shop" => .ok town
  | _ => .error (.columnNotFound label)

/-- Two customers, one of them on the first and on the last row, whose order is known by then. -/
def customerRows : List Row :=
  [customerRow (.ofNat 1) (.ofNat 7) .null, customerRow (.ofNat 2) (.ofNat 8) (.string "Bern"),
    customerRow .null (.ofNat 9) (.string "Bern"),
    customerRow (.ofNat 1) (.ofNat 8) (.string "Bern")]

private theorem customers_lawful : customers.Lawful where
  kinds_nodup := by decide
  root_overwriting := by constructor <;> simp [customers, nameColumn_overwrites]
  target_overwriting l hl := by
    rcases List.mem_pair.mp hl with rfl | rfl <;> constructor <;>
      simp [orders, shops, nameColumn_overwrites]
  collection_lawful l hl := by
    rcases List.mem_pair.mp hl with rfl | rfl <;>
      exact ⟨fun _ _ => rfl, fun _ => rfl, fun _ _ _ => rfl⟩
  independent := by
    have hpair : orders.collection.Independent shops.collection :=
      ⟨fun _ _ => rfl, fun _ _ => rfl, fun _ _ _ => rfl⟩
    simp [customers, hpair]
  apart l hl c hc := by
    obtain rfl := List.mem_singleton.mp hc
    rcases List.mem_pair.mp hl with rfl | rfl <;> exact ⟨fun _ _ => rfl, fun _ _ _ => rfl⟩
  get_construct l hl key := by
    rcases List.mem_pair.mp hl with rfl | rfl <;> rfl

/-- A row of customers can be read. -/
private theorem reads_customerRow {customer order town : Json}
    (hcustomer : customer.zeroFree = true) (horder : order.zeroFree = true)
    (htown : town.zeroFree = true) :
    customers.Reads (customerRow customer order town) := by
  have hentity : ∀ {e : Entity Customer} {v : Json},
      readAll (customerRow customer order town) e.keyLabels = .ok [v] → v.zeroFree = true →
      (∀ c ∈ e.columns, (c.cell (customerRow customer order town)).isOk = true) →
      e.Reads (customerRow customer order town) ∧
        ∀ key, e.key? (customerRow customer order town) = some key → key.zeroFree = true := by
    intro e v hread hv hcells
    refine ⟨⟨by rw [hread]; rfl, fun _ => hcells⟩, fun key hkey => ?_⟩
    have hvalues : key = ⟨[v]⟩ := by
      unfold Entity.key? at hkey
      rw [hread] at hkey
      simp only [Option.ite_none_left_eq_some] at hkey
      exact (Option.some.inj hkey.2).symm
    simp [hvalues, Key.zeroFree, Json.zeroFreeItems, hv]
  have hroot : customers.root.Reads (customerRow customer order town) ∧
      ∀ key, customers.root.key? (customerRow customer order town) = some key →
        key.zeroFree = true :=
    hentity rfl hcustomer (by simp [customers]; rfl)
  have htarget : ∀ l ∈ customers.links, l.target.Reads (customerRow customer order town) ∧
      ∀ key, l.target.key? (customerRow customer order town) = some key →
        key.zeroFree = true := by
    intro l hl
    rcases List.mem_pair.mp hl with rfl | rfl
    · exact hentity rfl horder (by simp [orders]; rfl)
    · exact hentity rfl htown (by simp [shops]; rfl)
  exact ⟨hroot.1, hroot.2, fun _ l hl => (htarget l hl).1, fun _ l hl => (htarget l hl).2⟩

/-- Listing the rows of customers gives two of them, grouped with their orders and shops. -/
theorem list_eq_rootKeys_customers :
    ∃ (bean : BeanKind → Key → BeanId) (s' : State Customer),
      customers.transformer.list (customerRows.map .ok) {} =
        (.ok [bean 0 ⟨[.ofNat 1]⟩, bean 0 ⟨[.ofNat 2]⟩], s') ∧
      customers.Grouped customerRows bean s'.heap := by
  have hreads : ∀ row ∈ customerRows, customers.Reads row := by
    intro row hrow
    simp only [customerRows, List.mem_cons, List.not_mem_nil, or_false] at hrow
    rcases hrow with rfl | rfl | rfl | rfl <;> exact reads_customerRow rfl rfl rfl
  exact list_eq_rootKeys customers_lawful hreads {}

end Plan

end SqlGraph.Graph
