import SqlGraph.Proofs.Graph.Relocating

/-!
# Independent rows commute

Two adjacent rows without a kind and key in common may change places. The first row then constructs
its beans behind those of the second, so that handles change: the new beans of the two rows are two
blocks of handles, and the blocks change places (`exchange`). Each of the two rows sees, on its own
kinds and keys, what it saw before, as the other one leaves that alone; so each does the same with
its handles moved (`Transformer.swap_states`), and so do the rows after them.

The main statement is `Transformer.list_swap`.
-/

namespace SqlGraph.Graph

variable {α : Type}

/-! ## Two blocks that change places -/

/-- The handles of a block and of the block behind it change places. -/
def exchange (start first second : ℕ) : Equiv.Perm ℕ where
  toFun bean :=
    if bean < start then bean
    else if bean < start + first then bean + second
    else if bean < start + first + second then bean - first
    else bean
  invFun bean :=
    if bean < start then bean
    else if bean < start + second then bean + first
    else if bean < start + second + first then bean - second
    else bean
  left_inv bean := by
    dsimp only
    split_ifs <;> omega
  right_inv bean := by
    dsimp only
    split_ifs <;> omega

section Exchange

variable {start first second bean : ℕ}

theorem exchange_of_lt (h : bean < start) : exchange start first second bean = bean := if_pos h

/-- The first block moves back by the length of the second. -/
theorem exchange_first (h : start ≤ bean) (hlt : bean < start + first) :
    (exchange start first second bean : ℤ) = bean + second := by
  have hvalue : exchange start first second bean = bean + second := by
    show (if _ then _ else _) = _
    rw [if_neg (Nat.not_lt.mpr h), if_pos hlt]
  omega

/-- The second block moves forward by the length of the first. -/
theorem exchange_second (h : start + first ≤ bean) (hlt : bean < start + first + second) :
    (exchange start first second bean : ℤ) = bean + -(first : ℤ) := by
  have hvalue : exchange start first second bean = bean - first := by
    show (if _ then _ else if _ then _ else _) = _
    rw [if_neg (by omega), if_neg (by omega), if_pos hlt]
  omega

theorem exchange_of_le (h : start + first + second ≤ bean) :
    exchange start first second bean = bean := by
  show (if _ then _ else if _ then _ else if _ then _ else _) = _
  rw [if_neg (by omega), if_neg (by omega), if_neg (by omega)]

end Exchange

/-! ## Listing more rows -/

namespace Transformer

/-- The roots that more rows list, from a state on. -/
def listFrom (t : Transformer α) (rows : List Row) (s : State α) : Outcome α (List BeanId) :=
  t.traverseFrom lister [] (rows.map .ok) s

theorem list_eq_listFrom (t : Transformer α) (rows : List Row) (heap : Heap α) :
    t.list (rows.map .ok) heap = t.listFrom rows { heap := heap } := rfl

/-- What was listed before stands in front of what is listed. -/
theorem traverseFrom_seed (t : Transformer α) (seed : List BeanId) (rows : List Row)
    (s : State α) :
    t.traverseFrom lister seed (rows.map .ok) s =
      (t.listFrom rows s).andThen fun beans s => (.ok (seed ++ beans), s) := by
  unfold listFrom
  induction rows generalizing seed s with
  | nil => exact congrArg (·, s) (congrArg Except.ok (List.append_nil seed).symm)
  | cons row rest ih =>
    rw [List.map_cons, traverseFrom, traverseFrom]
    rcases t.transform row s with ⟨e | (_ | bean), s₁⟩
    · rfl
    · exact ih seed s₁
    · simp only [Outcome.andThen, deliver]
      cases s₁.context.isRoot bean with
      | true => exact ih seed s₁
      | false =>
        have hdelivered : ∀ beans : List BeanId,
            lister.aggregate beans ⟨bean, s₁.heap⟩ = .ok (beans ++ [bean]) := fun _ => rfl
        simp only [Bool.false_eq_true, if_false, hdelivered]
        rw [ih (seed ++ [bean]), ih ([] ++ [bean])]
        rcases traverseFrom t lister [] (rest.map .ok) _ with ⟨e | beans, s₂⟩
        · rfl
        · simp [Outcome.andThen]

/-- Rows are listed one part after the other. -/
theorem listFrom_append (t : Transformer α) (rows rows' : List Row) (s : State α) :
    t.listFrom (rows ++ rows') s =
      (t.listFrom rows s).andThen fun beans s =>
        (t.listFrom rows' s).andThen fun beans' s => (.ok (beans ++ beans'), s) := by
  rw [listFrom, List.map_append, traverseFrom_append]
  congr 1
  funext beans s₁
  exact t.traverseFrom_seed beans rows' s₁

/-- Rows that can be listed are listed part by part. -/
theorem listFrom_append_eq_ok {t : Transformer α} {rows rows' : List Row} {s s' : State α}
    {roots : List BeanId} (h : t.listFrom (rows ++ rows') s = (.ok roots, s')) :
    ∃ beans s₁ beans', t.listFrom rows s = (.ok beans, s₁) ∧
      t.listFrom rows' s₁ = (.ok beans', s') ∧ roots = beans ++ beans' := by
  rw [listFrom_append] at h
  obtain ⟨beans, s₁, hrows, h⟩ := Outcome.andThen_eq_ok h
  obtain ⟨beans', s₂, hrows', h⟩ := Outcome.andThen_eq_ok h
  obtain ⟨hroots, rfl⟩ := Prod.mk.inj h
  exact ⟨beans, s₁, beans', hrows, hrows', (Except.ok.inj hroots).symm⟩

theorem listFrom_append_of_ok {t : Transformer α} {rows rows' : List Row} {s s₁ s' : State α}
    {beans beans' : List BeanId} (h : t.listFrom rows s = (.ok beans, s₁))
    (h' : t.listFrom rows' s₁ = (.ok beans', s')) :
    t.listFrom (rows ++ rows') s = (.ok (beans ++ beans'), s') := by
  rw [listFrom_append, h]
  simp only [Outcome.andThen, h']

theorem size_listFrom {t : Transformer α} {rows : List Row} {s s' : State α}
    {beans : List BeanId} (h : t.listFrom rows s = (.ok beans, s')) :
    s.heap.size ≤ s'.heap.size := by
  have hsize := steps_size.traverseFrom t lister (fun _ _ => Nat.le_refl _) [] (rows.map .ok) s
  rw [listFrom] at h
  rw [h] at hsize
  exact hsize

theorem within_listFrom {t : Transformer α} (hkeyed : t.Keyed) {old : Nat} {rows : List Row}
    {s s' : State α} {beans : List BeanId} (hs : s.Tidy old)
    (h : t.listFrom rows s = (.ok beans, s')) :
    s.Within old {id | ∃ row ∈ rows, id ∈ t.identities row} s' := by
  have hwithin := t.within_traverseFrom lister hkeyed [] (fun row hrow id hid => ⟨row, hrow, hid⟩)
    hs (J := {id | ∃ row ∈ rows, id ∈ t.identities row})
  rw [listFrom] at h
  rw [h] at hwithin
  exact hwithin

end Transformer

/-! ## Two rows that change places -/

/-- Without keys nothing is seen. -/
theorem State.see_start (heap : Heap α) (id : BeanKind × Key) :
    State.see { heap := heap } id = none := rfl

/-- A look is a part of what is seen. -/
theorem State.look_eq_see (s : State α) (id : BeanKind × Key) :
    s.look id.1 id.2 = (s.see id).map fun v => (v.bean, v.content) := by
  rw [see, Option.map_map]
  exact Option.map_id'.symm

variable [SMul HandleMap α]

namespace Transformer

section Swap

variable {t : Transformer α} (hkeyed : t.Keyed) {old : Nat} (hblind : t.Opaque old)
include hkeyed hblind

/-- Rows do the same with handles moved. -/
theorem listFrom_moved {m : Relocation} (hold : m.old = old) {I : Set (BeanKind × Key)}
    {rows : List Row} (hI : ∀ row ∈ rows, ∀ id ∈ t.identities row, id ∈ I) {s s' s₁ : State α}
    (h : s.Moves m I s') {beans : List BeanId} (hlist : t.listFrom rows s = (.ok beans, s₁))
    (hlast : s₁.heap.size ≤ m.last) :
    ∃ s₁', t.listFrom rows s' = (.ok (beans.map m.perm), s₁') ∧ s₁.Moves m I s₁' := by
  have hbound : (t.traverseFrom lister [] (rows.map .ok) s).2.heap.size ≤ m.last := by
    rw [← listFrom, hlist]
    exact hlast
  obtain ⟨hresult, hstate⟩ := t.traverseFrom_moved hkeyed (hold ▸ hblind) [] hI h hbound
  rw [← listFrom, hlist] at hresult hstate
  exact ⟨_, Prod.ext hresult rfl, hstate⟩

/-- Handles that were not constructed yet mean nothing to a traversal. -/
theorem smul_see_of_listFrom {heap : Heap α} (hheap : heap.size = old) {rows : List Row}
    {beans : List BeanId} {s : State α}
    (hlist : t.listFrom rows { heap := heap } = (.ok beans, s)) {π : HandleMap}
    (hπ : FixesBelow s.heap.size π) :
    (∀ id, s.see id = π • s.see id) ∧ beans.map π = beans := by
  have hsize := size_listFrom hlist
  change heap.size ≤ s.heap.size at hsize
  let m : Relocation :=
    { perm := π, old, last := s.heap.size, distance := 0
      fixes := fun bean hbean => hπ bean (Nat.lt_of_lt_of_le hbean (hheap ▸ hsize)) }
  have htidy : ({ heap := heap } : State α).Tidy old := hheap ▸ State.tidy_start heap
  have hstart : State.Moves m Set.univ ({ heap := heap } : State α) { heap := heap } := by
    refine ⟨htidy, htidy, fun _ => ?_, (Int.add_zero _).symm, fun bean _ hlt => ?_⟩
    · rw [State.see_start]
      rfl
    · show (π bean : ℤ) = bean + 0
      rw [hπ bean hlt, Int.add_zero]
  obtain ⟨s', hlist', hmoved⟩ := listFrom_moved hkeyed hblind rfl (fun _ _ _ _ => Set.mem_univ _)
    hstart hlist (Nat.le_refl _)
  obtain ⟨hbeans, rfl⟩ := Prod.mk.inj (hlist.symm.trans hlist')
  exact ⟨fun id => hmoved.see (Set.mem_univ id), (Except.ok.inj hbeans).symm⟩

omit [SMul HandleMap α] hblind in
/-- A row that is listed changes nothing but what is seen of its own kinds and keys. -/
theorem see_listFrom_row {row : Row} {s s' : State α} {beans : List BeanId} (hs : s.Tidy old)
    (h : t.listFrom [row] s = (.ok beans, s')) :
    s'.Tidy old ∧ ∀ id ∉ t.identities row, s'.see id = s.see id := by
  have hwithin := within_listFrom hkeyed hs h
  exact ⟨hwithin.tidy, fun id hid => hwithin.see_of_notMem (by simpa using hid)⟩

/-- Two rows without a kind and key in common list the same roots in either order, and lead to
corresponding states, in which the new beans of one row have changed places with those of the
other. -/
theorem swap_states {a b : Row} (hdisjoint : (t.identities a).Disjoint (t.identities b))
    {s s₁ s₂ : State α} {fromA fromB : List BeanId} (hs : s.Tidy old)
    (ha : t.listFrom [a] s = (.ok fromA, s₁)) (hb : t.listFrom [b] s₁ = (.ok fromB, s₂))
    {p q : ℕ} (hp : s₁.heap.size = s.heap.size + p) (hq : s₂.heap.size = s.heap.size + p + q)
    {π : HandleMap} (hπ : π = exchange s.heap.size p q) (hfixes : FixesBelow old π)
    (hfixed : ∀ id, s.see id = π • s.see id) (last : ℕ) :
    ∃ s₁' s₂', t.listFrom [b] s = (.ok (fromB.map π), s₁') ∧
      t.listFrom [a] s₁' = (.ok (fromA.map π), s₂') ∧
      s₂.Moves ⟨π, old, last, 0, hfixes⟩ Set.univ s₂' := by
  obtain ⟨hs₁, hseeA⟩ := see_listFrom_row hkeyed hs ha
  obtain ⟨hs₂, hseeB⟩ := see_listFrom_row hkeyed hs₁ hb
  -- the second row first: its beans move forward
  have hstartB : s₁.Moves ⟨π, old, s₂.heap.size, -p, hfixes⟩ {id | id ∈ t.identities b} s := by
    refine ⟨hs₁, hs, fun {id} hid => ?_, ?_, fun bean hle hlt => ?_⟩
    · rw [hseeA id fun hmem => hdisjoint hmem hid]
      exact hfixed id
    · show (s.heap.size : ℤ) = s₁.heap.size + -p
      omega
    · show (π bean : ℤ) = bean + -p
      rw [hπ]
      exact exchange_second (hp ▸ hle) (hq ▸ hlt)
  obtain ⟨s₁', hb', hmovedB⟩ := listFrom_moved hkeyed hblind rfl
    (fun row hrow id hid => List.mem_singleton.mp hrow ▸ hid) hstartB hb (Nat.le_refl _)
  obtain ⟨hs₁', hseeB'⟩ := see_listFrom_row hkeyed hs hb'
  have hsize₁ : (s₁'.heap.size : ℤ) = s₂.heap.size + -p := hmovedB.size
  -- then the first row: its beans move back
  have hstartA : s.Moves ⟨π, old, s₁.heap.size, q, hfixes⟩ {id | id ∈ t.identities a} s₁' := by
    refine ⟨hs, hs₁', fun {id} hid => ?_, ?_, fun bean hle hlt => ?_⟩
    · rw [hseeB' id fun hmem => hdisjoint hid hmem]
      exact hfixed id
    · show (s₁'.heap.size : ℤ) = s.heap.size + q
      omega
    · show (π bean : ℤ) = bean + q
      rw [hπ]
      exact exchange_first hle (hp ▸ hlt)
  obtain ⟨s₂', ha', hmovedA⟩ := listFrom_moved hkeyed hblind rfl
    (fun row hrow id hid => List.mem_singleton.mp hrow ▸ hid) hstartA ha (Nat.le_refl _)
  obtain ⟨hs₂', hseeA'⟩ := see_listFrom_row hkeyed hs₁' ha'
  have hsize₂ : (s₂'.heap.size : ℤ) = s₁.heap.size + q := hmovedA.size
  refine ⟨s₁', s₂', hb', ha', hs₂, hs₂', fun {id} _ => ?_, ?_, fun bean hle _ => ?_⟩
  · show s₂'.see id = π • s₂.see id
    by_cases hidA : id ∈ t.identities a
    · -- what the first row made of its beans is left alone by the second
      rw [hseeB id fun hmem => hdisjoint hidA hmem]
      exact hmovedA.see hidA
    · rw [hseeA' id hidA]
      by_cases hidB : id ∈ t.identities b
      · exact hmovedB.see hidB
      · rw [hseeB' id hidB, hseeB id hidB, hseeA id hidA]
        exact hfixed id
  · show (s₂'.heap.size : ℤ) = s₂.heap.size + 0
    omega
  · show (π bean : ℤ) = bean + 0
    rw [hπ, exchange_of_le (hq ▸ hle), Int.add_zero]

end Swap

/-- Two adjacent rows that produce no bean of the same kind and key may change places, wherever they
stand in a result that is read without error. The roots are the same but for the order of those
first seen in the two rows; the bean of each kind and key has the same content, collections in the
same order; and beans that were there before stay as they are. Handles are other ones: each becomes
the handle of the bean with the same kind and key, wherever it stands. -/
theorem list_swap {t : Transformer α} {before after : List Row} {a b : Row} {heap : Heap α}
    {roots : List BeanId} {s : State α} (hkeyed : t.Keyed) (hblind : t.Opaque heap.size)
    (hdisjoint : (t.identities a).Disjoint (t.identities b))
    (hread : t.list ((before ++ a :: b :: after).map .ok) heap = (.ok roots, s)) :
    ∃ (π : HandleMap) (roots' : List BeanId) (s' : State α),
      t.list ((before ++ b :: a :: after).map .ok) heap = (.ok roots', s') ∧
      (∀ kind key, s'.look kind key =
        (s.look kind key).map fun (bean, content) => (π bean, π • content)) ∧
      (∀ bean < heap.size, π bean = bean ∧ s'.heap.bean? bean = s.heap.bean? bean) ∧
      ∃ front fromA fromB back,
        (t.list (before.map .ok) heap).1 = .ok front ∧
        (t.list ((before ++ [a]).map .ok) heap).1 = .ok (front ++ fromA) ∧
        (t.list ((before ++ [a] ++ [b]).map .ok) heap).1 = .ok (front ++ fromA ++ fromB) ∧
        roots = front ++ fromA ++ fromB ++ back ∧
        roots' = (front ++ fromB ++ fromA ++ back).map π := by
  have hsplit : before ++ a :: b :: after = before ++ [a] ++ [b] ++ after := by simp
  have hsplit' : before ++ b :: a :: after = before ++ [b] ++ [a] ++ after := by simp
  rw [hsplit, list_eq_listFrom] at hread
  rw [hsplit']
  simp only [list_eq_listFrom]
  obtain ⟨listed₂, s₂, back, hlisted₂, hback, rfl⟩ := listFrom_append_eq_ok hread
  obtain ⟨listed₁, s₁, fromB, hlisted₁, hb, rfl⟩ := listFrom_append_eq_ok hlisted₂
  obtain ⟨front, s₀, fromA, hfront, ha, rfl⟩ := listFrom_append_eq_ok hlisted₁
  -- the handles of the beans that the two rows construct change places
  obtain ⟨p, hp⟩ := Nat.exists_eq_add_of_le (size_listFrom ha)
  obtain ⟨q, hq⟩ := Nat.exists_eq_add_of_le (size_listFrom hb)
  rw [hp] at hq
  let π : HandleMap := exchange s₀.heap.size p q
  have hπ : FixesBelow s₀.heap.size π := fun _ => exchange_of_lt
  have hsize : heap.size ≤ s₀.heap.size := size_listFrom hfront
  have hfixes : FixesBelow heap.size π := fun bean hbean => hπ bean (Nat.lt_of_lt_of_le hbean hsize)
  have hstart : ({ heap := heap } : State α).Tidy heap.size := State.tidy_start heap
  have hs₀ := (within_listFrom hkeyed hstart hfront).tidy
  obtain ⟨hfixed, hfrontFixed⟩ := smul_see_of_listFrom hkeyed hblind rfl hfront hπ
  obtain ⟨s₁', s₂', hb', ha', hmoved⟩ := swap_states hkeyed hblind hdisjoint hs₀ ha hb hp hq rfl
    hfixes hfixed s.heap.size
  -- the rows after the two do the same with other handles
  obtain ⟨s', hback', hmoved'⟩ := listFrom_moved hkeyed hblind rfl
    (fun _ _ _ _ => Set.mem_univ _) hmoved hback (Nat.le_refl _)
  have hlisted' := listFrom_append_of_ok (listFrom_append_of_ok hfront hb') ha'
  have hread' := listFrom_append_of_ok hlisted' hback'
  refine ⟨π, _, s', hread', fun kind key => ?_, fun bean hbean => ⟨hfixes bean hbean, ?_⟩,
    front, fromA, fromB, back, ?_, ?_, ?_, rfl, ?_⟩
  · have hsee := hmoved'.see (Set.mem_univ (kind, key))
    show s'.look (kind, key).1 (kind, key).2 = Option.map _ (s.look (kind, key).1 (kind, key).2)
    rw [s'.look_eq_see, s.look_eq_see, hsee]
    cases s.see (kind, key) <;> rfl
  · rw [(within_listFrom hkeyed hstart hread').bean?_old bean hbean,
      (within_listFrom hkeyed hstart hread).bean?_old bean hbean]
  · rw [hfront]
  · rw [hlisted₁]
  · rw [hlisted₂]
  · rw [List.map_append, List.map_append, List.map_append, hfrontFixed]

/-! ## Mutual friends -/

/-- A person by number and a friend of the same row, each with the other among the friends. -/
private def befriended : Transformer OrderedSet :=
  .mk ⟨0, some ["id"], fun _ => {}⟩ []
    [.mk 0 (.mk ⟨0, some ["friend"], fun _ => {}⟩ [] [])
      (.withReverse (.many ⟨id, fun friends _ => friends⟩) (.many ⟨id, fun friends _ => friends⟩))
      .eachRow]

/-- A row of a person and a friend, by their numbers. -/
private def pair (person friend : Nat) : Row := friendRow (.ofNat person) (.ofNat friend)

/-- Two pairs of friends may change places before a third row that joins them: their roots do, and
the friends of the second person are still the first and the third, in this order. -/
theorem list_swap_befriended :
    ∃ (π : HandleMap) (roots' : List BeanId) (s' : State OrderedSet),
      befriended.list ([pair 3 4, pair 1 2, pair 2 3].map .ok) {} = (.ok roots', s') ∧
      roots' = [2, 0, 1].map π ∧
      s'.look 0 ⟨[.ofNat 2]⟩ = some (π 1, ⟨[π 0, π 2]⟩) := by
  have hslot : (⟨id, fun friends _ => friends⟩ : Slot OrderedSet OrderedSet).Opaque :=
    ⟨fun _ _ => rfl, fun _ _ _ => rfl⟩
  have hkeyed : befriended.Keyed := ⟨rfl, ⟨rfl, trivial⟩, trivial⟩
  have hblind : befriended.Opaque (Heap.size ({} : Heap OrderedSet)) :=
    ⟨fun _ _ _ => rfl, by simp, ⟨⟨fun _ _ _ => rfl, by simp, trivial⟩,
      .withReverse (.many hslot) (.many hslot)⟩, trivial⟩
  have hne : ∀ id ∈ befriended.identities (pair 1 2),
      ∀ other ∈ befriended.identities (pair 3 4), id ≠ other := by decide
  have hdisjoint : (befriended.identities (pair 1 2)).Disjoint
      (befriended.identities (pair 3 4)) := fun id hid hid' => hne id hid id hid' rfl
  have hread : befriended.list (([] ++ pair 1 2 :: pair 3 4 :: [pair 2 3]).map .ok) {} =
      (.ok [0, 2, 1], (befriended.list ([pair 1 2, pair 3 4, pair 2 3].map .ok) {}).2) := rfl
  obtain ⟨π, roots', s', hswapped, hlook, -, front, fromA, fromB, back, hfront, hA, hB, hroots,
    hroots'⟩ := list_swap hkeyed hblind hdisjoint hread
  obtain rfl : [] = front := Except.ok.inj hfront
  obtain rfl : [0] = fromA := Except.ok.inj hA
  obtain rfl : [2] = fromB := List.append_cancel_left (Except.ok.inj hB)
  obtain rfl : [1] = back := (List.cons.inj (List.cons.inj hroots).2).2
  exact ⟨π, roots', s', hswapped, hroots', hlook 0 ⟨[.ofNat 2]⟩⟩

end Transformer

end SqlGraph.Graph
