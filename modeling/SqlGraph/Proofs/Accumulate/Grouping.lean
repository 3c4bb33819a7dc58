import Mathlib.Data.List.Induction
import SqlGraph.Accumulate.Grouping
import SqlGraph.Proofs.Graph.Keys
import SqlGraph.Proofs.Lists

/-!
# A fold for each group

Grouping aggregates items in the order in which they come, one into this group and the next into
another. Each group is nevertheless folded as if its items were alone: after any number of items,
the seed of a group is what its own items give (`Gathers`), and one more item changes the seed of
its group only (`Gathers.concat`).

So a grouping succeeds when the fold of each group does, and lists the keys as they first appeared,
each with the fold of its items. When it fails, the error is that of the earliest item that its
group refuses, or that of the first group that cannot be finished (`collect_grouping`).
-/

namespace SqlGraph
namespace Accumulator

variable {ι κ σ ω : Type}

/-- Items are aggregated after others into the seed these give. -/
theorem aggregateAll_append (acc : Accumulator ι σ ω) {seed seed' : σ} {items : List ι}
    (h : acc.aggregateAll seed items = .ok seed') (more : List ι) :
    acc.aggregateAll seed (items ++ more) = acc.aggregateAll seed' more := by
  induction items generalizing seed with
  | nil =>
    obtain rfl : seed = seed' := Except.ok.inj h
    rfl
  | cons item rest ih =>
    rw [List.cons_append, aggregateAll]
    rw [aggregateAll] at h
    cases hitem : acc.aggregate seed item with
    | error e =>
      rw [hitem] at h
      cases h
    | ok next =>
      rw [hitem] at h
      exact ih h

/-- An error is not undone by later items. -/
theorem aggregateAll_append_error (acc : Accumulator ι σ ω) {seed : σ} {items : List ι} {e : Error}
    (h : acc.aggregateAll seed items = .error e) (more : List ι) :
    acc.aggregateAll seed (items ++ more) = .error e := by
  induction items generalizing seed with
  | nil => cases h
  | cons item rest ih =>
    rw [List.cons_append, aggregateAll]
    rw [aggregateAll] at h
    cases hitem : acc.aggregate seed item with
    | error e' =>
      rw [hitem] at h
      exact h
    | ok next =>
      rw [hitem] at h
      exact ih h

variable [BEq κ]

/-! ## Groups -/

section Groups

variable (key : ι → κ) (items : List ι)

/-- The items of a key, in order. -/
def itemsOf (k : κ) : List ι := items.filter fun item => key item == k

/-- The keys of items, in order of first appearance. -/
def keysOf : List κ := (items.map key).eraseDups

variable {key items}

theorem itemsOf_concat (item : ι) (k : κ) :
    itemsOf key (items ++ [item]) k =
      if key item == k then itemsOf key items k ++ [item] else itemsOf key items k := by
  unfold itemsOf
  rw [List.filter_append]
  cases hitem : key item == k with
  | true => simp [hitem]
  | false => simp [hitem]

theorem keysOf_concat (item : ι) :
    keysOf key (items ++ [item]) =
      if (keysOf key items).any (key item == ·) then keysOf key items
      else keysOf key items ++ [key item] := by
  unfold keysOf
  rw [List.map_append]
  exact eraseDupsBy_concat _ _ _

variable [EquivBEq κ]

/-- Keys that are equal have the same items. -/
theorem itemsOf_congr {k l : κ} (h : (k == l) = true) : itemsOf key items k = itemsOf key items l :=
  List.filter_congr fun _ _ => BEq.congr_right h

/-- A key is listed once. -/
theorem pairwise_keysOf : (keysOf key items).Pairwise fun k l => (k == l) = false := by
  induction items using List.reverseRecOn with
  | nil => exact List.Pairwise.nil
  | append_singleton items item ih =>
    rw [keysOf_concat]
    split
    · exact ih
    · rename_i hnew
      refine List.pairwise_append.mpr ⟨ih, List.pairwise_singleton _ _, fun k hk l hl => ?_⟩
      rw [List.mem_singleton.mp hl, BEq.comm]
      exact Bool.eq_false_iff.mpr fun heq => hnew (List.any_eq_true.mpr ⟨k, hk, heq⟩)

variable (key) in
/-- The key of every item is listed. -/
theorem exists_mem_keysOf {item : ι} (h : item ∈ items) :
    ∃ k ∈ keysOf key items, (k == key item) = true := by
  induction items using List.reverseRecOn with
  | nil => cases h
  | append_singleton items last ih =>
    rw [keysOf_concat]
    rcases List.mem_append.mp h with hold | hlast
    · obtain ⟨k, hk, heq⟩ := ih hold
      split
      · exact ⟨k, hk, heq⟩
      · exact ⟨k, List.mem_append_left _ hk, heq⟩
    · obtain rfl := List.mem_singleton.mp hlast
      split
      · rename_i hseen
        obtain ⟨k, hk, heq⟩ := List.any_eq_true.mp hseen
        exact ⟨k, hk, BEq.symm heq⟩
      · exact ⟨key item, by simp, BEq.rfl⟩

end Groups

/-! ## Groups and their seeds -/

section Seeds

variable (down : Accumulator ι σ ω) (key : κ)

/-- The seed that an item of a key is aggregated into. -/
def seedOf : List (κ × σ) → σ
  | [] => down.supply
  | (k, seed) :: rest => if k == key then seed else seedOf rest

/-- Gives the group of a key a new seed, a new group at the end for a new key. -/
def putSeed (new : σ) : List (κ × σ) → List (κ × σ)
  | [] => [(key, new)]
  | (k, seed) :: rest => if k == key then (k, new) :: rest else (k, seed) :: putSeed new rest

/-- An item changes the seed of its group only. -/
theorem aggregateGroup_eq (item : ι) (groups : List (κ × σ)) :
    aggregateGroup down key item groups =
      (down.aggregate (seedOf down key groups) item).map fun new => putSeed key new groups := by
  induction groups with
  | nil => rfl
  | cons group rest ih =>
    obtain ⟨k, seed⟩ := group
    unfold aggregateGroup seedOf
    split
    · rename_i heq
      simp only [putSeed, if_pos heq]
    · rename_i hne
      rw [ih]
      cases down.aggregate (seedOf down key rest) item with
      | error e => rfl
      | ok new => simp only [Except.map, putSeed, if_neg hne]

variable {down key}

theorem map_fst_putSeed (new : σ) (groups : List (κ × σ)) :
    (putSeed key new groups).map Prod.fst =
      if (groups.map Prod.fst).any (· == key) then groups.map Prod.fst
      else groups.map Prod.fst ++ [key] := by
  induction groups with
  | nil => rfl
  | cons group rest ih =>
    obtain ⟨k, seed⟩ := group
    unfold putSeed
    split
    · rename_i heq
      simp [heq]
    · rename_i hne
      rw [List.map_cons, ih]
      split
      · rename_i hany
        rw [if_pos (by simp [hany]), List.map_cons]
      · rename_i hnone
        rw [if_neg (by simpa [hne] using hnone), List.map_cons, List.cons_append]

variable (down key) in
/-- The seed of a key is that of its group, or the empty one for a new key. -/
theorem seedOf_cases (groups : List (κ × σ)) :
    (∃ group ∈ groups, (group.1 == key) = true ∧ seedOf down key groups = group.2) ∨
      (∀ group ∈ groups, (group.1 == key) = false) ∧ seedOf down key groups = down.supply := by
  induction groups with
  | nil => exact .inr ⟨List.forall_mem_nil _, rfl⟩
  | cons group rest ih =>
    obtain ⟨k, seed⟩ := group
    unfold seedOf
    cases heq : k == key with
    | true => exact .inl ⟨(k, seed), List.mem_cons_self, heq, if_pos rfl⟩
    | false =>
      rw [if_neg (by simp)]
      rcases ih with ⟨group, hmem, hgroup, hseed⟩ | ⟨hnone, hseed⟩
      · exact .inl ⟨group, List.mem_cons_of_mem _ hmem, hgroup, hseed⟩
      · refine .inr ⟨fun group hmem => ?_, hseed⟩
        rcases List.mem_cons.mp hmem with rfl | hrest
        · exact heq
        · exact hnone group hrest

/-- A group with a new seed is that of the key, and the others are as before. -/
theorem mem_putSeed [EquivBEq κ] {new : σ} {groups : List (κ × σ)}
    (hdistinct : (groups.map Prod.fst).Pairwise fun k l => (k == l) = false) {group : κ × σ}
    (h : group ∈ putSeed key new groups) :
    (group.1 == key) = true ∧ group.2 = new ∨ (group.1 == key) = false ∧ group ∈ groups := by
  induction groups with
  | nil =>
    obtain rfl := List.mem_singleton.mp h
    exact .inl ⟨BEq.rfl, rfl⟩
  | cons first rest ih =>
    obtain ⟨k, seed⟩ := first
    obtain ⟨hfirst, hrest⟩ := List.pairwise_cons.mp hdistinct
    unfold putSeed at h
    split at h
    · rename_i heq
      rcases List.mem_cons.mp h with rfl | hmem
      · exact .inl ⟨heq, rfl⟩
      · -- the key of the first group is that of no other
        have hother : (k == group.1) = false := hfirst _ (List.mem_map_of_mem hmem)
        refine .inr ⟨?_, List.mem_cons_of_mem _ hmem⟩
        rw [← BEq.congr_right heq, BEq.comm]
        exact hother
    · rename_i hne
      rcases List.mem_cons.mp h with rfl | hmem
      · exact .inr ⟨Bool.eq_false_iff.mpr hne, List.mem_cons_self⟩
      · rcases ih hrest hmem with hnew | ⟨hold, hmem⟩
        · exact .inl hnew
        · exact .inr ⟨hold, List.mem_cons_of_mem _ hmem⟩

end Seeds

/-! ## Aggregating -/

section Aggregating

variable (key : ι → κ) (down : Accumulator ι σ ω)

/-- The groups of items: one for each key, with the seed that its items give on their own. -/
structure Gathers (items : List ι) (groups : List (κ × σ)) : Prop where
  keys : groups.map Prod.fst = keysOf key items
  seeds : ∀ group ∈ groups,
    down.aggregateAll down.supply (itemsOf key items group.1) = .ok group.2

/-- The group of an item takes all its items before this one, and refuses this one with an error. -/
def Refuses (before : List ι) (item : ι) (e : Error) : Prop :=
  ∃ seed, down.aggregateAll down.supply (itemsOf key before (key item)) = .ok seed ∧
    down.aggregate seed item = .error e

/-- Every item is taken by its group. -/
def TakesAll (items : List ι) : Prop :=
  ∀ before item after, items = before ++ item :: after → ∀ e, ¬ Refuses key down before item e

/-- The earliest item that is refused by its group is refused with an error. -/
def FirstRefused (items : List ι) (e : Error) : Prop :=
  ∃ before item after, items = before ++ item :: after ∧ TakesAll key down before ∧
    Refuses key down before item e

/-- The first group, in the order of keys, that cannot be finished fails with an error. -/
def FirstUnfinished (items : List ι) (e : Error) : Prop :=
  ∃ front k back, keysOf key items = front ++ k :: back ∧
    (∀ l ∈ front, (down.collect (itemsOf key items l)).isOk = true) ∧
    ∃ seed, down.aggregateAll down.supply (itemsOf key items k) = .ok seed ∧
      down.finish seed = .error e

variable {key down} {items : List ι} {groups : List (κ × σ)} {item : ι} {e : Error}

omit [BEq κ] in
theorem aggregateAll_concat (acc : Accumulator ι σ ω) {seed seed' : σ}
    (h : acc.aggregateAll seed items = .ok seed') (item : ι) :
    acc.aggregateAll seed (items ++ [item]) = acc.aggregate seed' item := by
  rw [aggregateAll_append acc h, aggregateAll]
  cases acc.aggregate seed' item <;> rfl

theorem TakesAll.nil : TakesAll key down ([] : List ι) := by
  intro before item after h
  simp at h

theorem TakesAll.concat (h : TakesAll key down items)
    (hitem : ∀ e, ¬ Refuses key down items item e) :
    TakesAll key down (items ++ [item]) := by
  intro before other after hsplit
  rcases List.eq_nil_or_concat after with rfl | ⟨after, last, rfl⟩
  · obtain ⟨rfl, hlast⟩ := List.append_inj' hsplit rfl
    obtain rfl : item = other := by simpa using hlast
    exact hitem
  · rw [List.concat_eq_append, ← List.cons_append, ← List.append_assoc] at hsplit
    exact h before other after (List.append_inj' hsplit rfl).1

/-- An item that is refused stays the earliest one. -/
theorem FirstRefused.append (h : FirstRefused key down items e) (more : List ι) :
    FirstRefused key down (items ++ more) e := by
  obtain ⟨before, item, after, rfl, htakes, hrefuses⟩ := h
  exact ⟨before, item, after ++ more, by simp, htakes, hrefuses⟩

theorem TakesAll.not_firstRefused (h : TakesAll key down items) :
    ¬ FirstRefused key down items e := by
  rintro ⟨before, item, after, hsplit, -, hrefuses⟩
  exact h before item after hsplit e hrefuses

variable [EquivBEq κ]

/-- A group that refuses an item cannot be folded. -/
theorem FirstRefused.exists_key (h : FirstRefused key down items e) :
    ∃ k ∈ keysOf key items, down.collect (itemsOf key items k) = .error e := by
  obtain ⟨before, item, after, rfl, -, seed, hseed, hitem⟩ := h
  have hmem : item ∈ before ++ item :: after := List.mem_append_right before List.mem_cons_self
  obtain ⟨k, hk, heq⟩ := exists_mem_keysOf key hmem
  have hitems : itemsOf key (before ++ item :: after) k =
      itemsOf key before (key item) ++ [item] ++ itemsOf key after (key item) := by
    rw [itemsOf_congr heq]
    simp [itemsOf, List.filter_append]
  refine ⟨k, hk, ?_⟩
  have hrefused : down.aggregateAll down.supply
      (itemsOf key before (key item) ++ [item]) = .error e := by
    rw [aggregateAll_concat down hseed, hitem]
  unfold collect
  rw [hitems, aggregateAll_append_error down hrefused]

namespace Gathers

/-- The seed of a key is what its items give, for new keys also. -/
theorem seedOf (h : Gathers key down items groups) (k : κ) :
    down.aggregateAll down.supply (itemsOf key items k) =
      .ok (Accumulator.seedOf down k groups) := by
  rcases seedOf_cases down k groups with
    ⟨group, hmem, heq, hseed⟩ | ⟨hnone, hseed⟩
  · rw [hseed, ← itemsOf_congr heq]
    exact h.seeds group hmem
  · have hitems : itemsOf key items k = [] := by
      refine List.filter_eq_nil_iff.mpr fun item hitem heq => ?_
      obtain ⟨l, hl, hkey⟩ := exists_mem_keysOf key hitem
      rw [← h.keys] at hl
      obtain ⟨group, hmem, rfl⟩ := List.mem_map.mp hl
      exact Bool.false_ne_true ((hnone group hmem).symm.trans (BEq.trans hkey heq))
    rw [hseed, hitems, aggregateAll]

/-- One more item is aggregated into the seed of its key. -/
theorem concat (h : Gathers key down items groups) {new : σ}
    (hitem : down.aggregate (Accumulator.seedOf down (key item) groups) item = .ok new) :
    Gathers key down (items ++ [item]) (putSeed (key item) new groups) where
  keys := by
    rw [map_fst_putSeed, keysOf_concat, h.keys]
    simp only [BEq.comm (b := key item)]
  seeds := by
    intro group hmem
    have hdistinct : (groups.map Prod.fst).Pairwise fun k l => (k == l) = false := by
      rw [h.keys]
      exact pairwise_keysOf
    rw [itemsOf_concat, BEq.comm]
    rcases mem_putSeed hdistinct hmem with ⟨heq, hnew⟩ | ⟨hne, hold⟩
    · rw [if_pos heq, itemsOf_congr heq, aggregateAll_concat down (h.seedOf (key item)), hitem,
        hnew]
    · rw [if_neg (by simp [hne])]
      exact h.seeds group hold

end Gathers

/-- What aggregating items one after the other gives: the groups of all of them, or the error of the
earliest one that is refused. -/
theorem aggregateAll_grouping (key : ι → κ) (down : Accumulator ι σ ω) (items : List ι) :
    (TakesAll key down items ∧
      ∃ groups, (grouping key down).aggregateAll [] items = .ok groups ∧
        Gathers key down items groups) ∨
    ∃ e, (grouping key down).aggregateAll [] items = .error e ∧ FirstRefused key down items e := by
  induction items using List.reverseRecOn with
  | nil => exact .inl ⟨TakesAll.nil, [], rfl, ⟨rfl, List.forall_mem_nil _⟩⟩
  | append_singleton items item ih =>
    rcases ih with ⟨htakes, groups, hgroups, hgathers⟩ | ⟨e, herror, hfirst⟩
    · have hstep : (grouping key down).aggregateAll [] (items ++ [item]) =
          (down.aggregate (seedOf down (key item) groups) item).map
            fun new => putSeed (key item) new groups := by
        rw [aggregateAll_concat _ hgroups]
        exact aggregateGroup_eq down (key item) item groups
      have hseed := hgathers.seedOf (key item)
      rw [hstep]
      cases hitem : down.aggregate (seedOf down (key item) groups) item with
      | error e =>
        exact .inr
          ⟨e, rfl, items, item, [], rfl, htakes, seedOf down (key item) groups, hseed, hitem⟩
      | ok new =>
        refine .inl ⟨htakes.concat fun e hrefuses => ?_, _, rfl, hgathers.concat hitem⟩
        obtain ⟨seed, hseed', herror⟩ := hrefuses
        obtain rfl : seedOf down (key item) groups = seed :=
          Except.ok.inj (hseed.symm.trans hseed')
        rw [hitem] at herror
        cases herror
    · exact .inr ⟨e, aggregateAll_append_error _ herror [item], hfirst.append [item]⟩

/-- The earliest item that is refused decides the error. -/
theorem FirstRefused.aggregateAll_eq (h : FirstRefused key down items e) :
    (grouping key down).aggregateAll [] items = .error e := by
  obtain ⟨before, item, after, rfl, htakes, seed, hseed, hitem⟩ := h
  rcases aggregateAll_grouping key down before with ⟨-, groups, hgroups, hgathers⟩ | ⟨e', -, hfirst⟩
  · obtain rfl : seedOf down (key item) groups = seed :=
      Except.ok.inj ((hgathers.seedOf (key item)).symm.trans hseed)
    have hrefused : (grouping key down).aggregateAll [] (before ++ [item]) = .error e := by
      rw [aggregateAll_concat _ hgroups]
      refine (aggregateGroup_eq down (key item) item groups).trans ?_
      rw [hitem]
      rfl
    have hmore := aggregateAll_append_error _ hrefused after
    rwa [List.append_assoc] at hmore
  · exact absurd hfirst htakes.not_firstRefused

end Aggregating

/-! ## Finishing -/

section Finishing

omit [BEq κ]

private theorem map_eq_ok {x : Except Error σ} {f : σ → ω} {result : ω} :
    x.map f = .ok result ↔ ∃ seed, x = .ok seed ∧ f seed = result := by
  cases x <;> simp [Except.map]

private theorem map_eq_error {x : Except Error σ} {f : σ → ω} {e : Error} :
    x.map f = .error e ↔ x = .error e := by
  cases x <;> simp [Except.map]

variable {down : Accumulator ι σ ω} (fold : κ → Except Error ω) {groups : List (κ × σ)}

/-- Groups are finished with a result for each key. -/
theorem finishGroups_eq_ok (h : ∀ group ∈ groups, down.finish group.2 = fold group.1)
    {results : List (κ × ω)} :
    finishGroups down groups = .ok results ↔
      results.map Prod.fst = groups.map Prod.fst ∧
        ∀ result ∈ results, fold result.1 = .ok result.2 := by
  induction groups generalizing results with
  | nil =>
    constructor
    · intro hfinish
      obtain rfl : [] = results := Except.ok.inj hfinish
      exact ⟨rfl, List.forall_mem_nil _⟩
    · rintro ⟨hkeys, -⟩
      obtain rfl : results = [] := List.map_eq_nil_iff.mp hkeys
      rfl
  | cons group rest ih =>
    obtain ⟨k, seed⟩ := group
    obtain ⟨hfirst, hrest⟩ := List.forall_mem_cons.mp h
    unfold finishGroups
    rw [hfirst]
    cases hfold : fold k with
    | error e =>
      constructor
      · intro hfinish
        cases hfinish
      · rintro ⟨hkeys, hresults⟩
        obtain ⟨result, others, rfl, rfl, -⟩ := List.map_eq_cons_iff.mp hkeys
        cases hfold.symm.trans (hresults result List.mem_cons_self)
    | ok first =>
      rw [map_eq_ok]
      constructor
      · rintro ⟨others, hothers, rfl⟩
        obtain ⟨hkeys, hresults⟩ := (ih hrest).mp hothers
        exact ⟨by rw [List.map_cons, List.map_cons, hkeys],
          List.forall_mem_cons.mpr ⟨hfold, hresults⟩⟩
      · rintro ⟨hkeys, hresults⟩
        obtain ⟨⟨l, result⟩, others, rfl, rfl, hothers⟩ := List.map_eq_cons_iff.mp hkeys
        obtain ⟨hresult, hrest'⟩ := List.forall_mem_cons.mp hresults
        obtain rfl : first = result := Except.ok.inj (hfold.symm.trans hresult)
        exact ⟨others, (ih hrest).mpr ⟨hothers, hrest'⟩, rfl⟩

/-- The first group that cannot be finished decides the error. -/
theorem finishGroups_eq_error (h : ∀ group ∈ groups, down.finish group.2 = fold group.1)
    {e : Error} :
    finishGroups down groups = .error e ↔
      ∃ front k back, groups.map Prod.fst = front ++ k :: back ∧
        (∀ l ∈ front, (fold l).isOk = true) ∧ fold k = .error e := by
  induction groups with
  | nil =>
    constructor
    · intro hfinish
      cases hfinish
    · rintro ⟨front, k, back, hkeys, -⟩
      simp at hkeys
  | cons group rest ih =>
    obtain ⟨k, seed⟩ := group
    obtain ⟨hfirst, hrest⟩ := List.forall_mem_cons.mp h
    unfold finishGroups
    rw [hfirst]
    cases hfold : fold k with
    | error e' =>
      constructor
      · intro hfinish
        obtain rfl : e' = e := Except.error.inj hfinish
        exact ⟨[], k, _, rfl, List.forall_mem_nil _, hfold⟩
      · rintro ⟨front, l, back, hkeys, hok, herror⟩
        cases front with
        | nil =>
          obtain rfl : k = l := (List.cons.inj hkeys).1
          obtain rfl : e' = e := Except.error.inj (hfold.symm.trans herror)
          rfl
        | cons m front =>
          obtain rfl : k = m := (List.cons.inj hkeys).1
          have hkok := hok k List.mem_cons_self
          rw [hfold] at hkok
          cases hkok
    | ok first =>
      rw [map_eq_error, ih hrest]
      constructor
      · rintro ⟨front, l, back, hkeys, hok, herror⟩
        refine ⟨k :: front, l, back, by rw [List.map_cons, hkeys, List.cons_append], ?_, herror⟩
        exact List.forall_mem_cons.mpr ⟨by rw [hfold]; rfl, hok⟩
      · rintro ⟨front, l, back, hkeys, hok, herror⟩
        cases front with
        | nil =>
          obtain rfl : k = l := (List.cons.inj hkeys).1
          cases hfold.symm.trans herror
        | cons m front =>
          exact ⟨front, l, back, (List.cons.inj hkeys).2, (List.forall_mem_cons.mp hok).2, herror⟩

end Finishing

/-! ## Collecting -/

section Collecting

variable {key : ι → κ} {down : Accumulator ι σ ω} {items : List ι}

/-- A group that cannot be finished cannot be folded. -/
theorem FirstUnfinished.exists_key {e : Error} (h : FirstUnfinished key down items e) :
    ∃ k ∈ keysOf key items, down.collect (itemsOf key items k) = .error e := by
  obtain ⟨front, k, back, hkeys, -, seed, hseed, hfinish⟩ := h
  refine ⟨k, by simp [hkeys], ?_⟩
  unfold collect
  rw [hseed]
  exact hfinish

/-- Groups that take all items are finished one after the other. -/
theorem Gathers.finish_eq {groups : List (κ × σ)} (h : Gathers key down items groups) :
    ∀ group ∈ groups, down.finish group.2 = down.collect (itemsOf key items group.1) := by
  intro group hmem
  unfold collect
  rw [h.seeds group hmem]

variable [EquivBEq κ]

/-- A grouping gives each key with the fold of its items. -/
theorem collect_grouping_eq_ok {results : List (κ × ω)} :
    (grouping key down).collect items = .ok results ↔
      results.map Prod.fst = keysOf key items ∧
        ∀ result ∈ results, down.collect (itemsOf key items result.1) = .ok result.2 := by
  unfold collect
  rcases aggregateAll_grouping key down items with
    ⟨-, groups, hgroups, hgathers⟩ | ⟨e, herror, hfirst⟩
  · rw [show (grouping key down).supply = [] from rfl, hgroups, ← hgathers.keys]
    exact finishGroups_eq_ok (fun k => down.collect (itemsOf key items k)) hgathers.finish_eq
  · rw [show (grouping key down).supply = [] from rfl, herror]
    constructor
    · intro h
      cases h
    · rintro ⟨hkeys, hresults⟩
      obtain ⟨k, hk, hfail⟩ := hfirst.exists_key
      rw [← hkeys] at hk
      obtain ⟨result, hmem, rfl⟩ := List.mem_map.mp hk
      cases hfail.symm.trans (hresults result hmem)

/-- The error of a grouping is that of the earliest item refused, or of the first group that cannot
be finished. -/
theorem collect_grouping_eq_error {e : Error} :
    (grouping key down).collect items = .error e ↔
      FirstRefused key down items e ∨
        TakesAll key down items ∧ FirstUnfinished key down items e := by
  constructor
  · intro h
    unfold collect at h
    rcases aggregateAll_grouping key down items with
      ⟨htakes, groups, hgroups, hgathers⟩ | ⟨e', herror, hfirst⟩
    · rw [show (grouping key down).supply = [] from rfl, hgroups] at h
      obtain ⟨front, k, back, hkeys, hok, hfail⟩ :=
        (finishGroups_eq_error (fun k => down.collect (itemsOf key items k))
          hgathers.finish_eq).mp h
      obtain ⟨group, hmem, rfl⟩ := List.mem_map.mp (hkeys ▸ by simp : k ∈ groups.map Prod.fst)
      refine .inr ⟨htakes, front, group.1, back, hgathers.keys ▸ hkeys, hok, group.2,
        hgathers.seeds group hmem, ?_⟩
      rw [hgathers.finish_eq group hmem, hfail]
    · rw [show (grouping key down).supply = [] from rfl, herror] at h
      obtain rfl : e' = e := Except.error.inj h
      exact .inl hfirst
  · rintro (hfirst | ⟨htakes, hunfinished⟩)
    · unfold collect
      rw [show (grouping key down).supply = [] from rfl, hfirst.aggregateAll_eq]
    · unfold collect
      rcases aggregateAll_grouping key down items with
        ⟨-, groups, hgroups, hgathers⟩ | ⟨e', -, hfirst⟩
      · rw [show (grouping key down).supply = [] from rfl, hgroups]
        obtain ⟨front, k, back, hkeys, hok, seed, hseed, hfinish⟩ := hunfinished
        refine (finishGroups_eq_error (fun k => down.collect (itemsOf key items k))
          hgathers.finish_eq).mpr ⟨front, k, back, hgathers.keys.trans hkeys, hok, ?_⟩
        unfold collect
        rw [hseed]
        exact hfinish
      · exact absurd hfirst htakes.not_firstRefused

/-- Grouping folds each group on its own, whatever the fold, another grouping included. It succeeds
when the items of every key can be folded, and then lists the keys as they first appeared, each with
the fold of its items in their order. It fails with the error of the earliest item that its group
refuses, or when all items are taken with that of the first group that cannot be finished. -/
theorem collect_grouping (key : ι → κ) (down : Accumulator ι σ ω) (items : List ι) :
    (((grouping key down).collect items).isOk = true ↔
      ∀ k ∈ keysOf key items, (down.collect (itemsOf key items k)).isOk = true) ∧
    (∀ results, (grouping key down).collect items = .ok results ↔
      results.map Prod.fst = keysOf key items ∧
        ∀ result ∈ results, down.collect (itemsOf key items result.1) = .ok result.2) ∧
    ∀ e, (grouping key down).collect items = .error e ↔
      FirstRefused key down items e ∨
        TakesAll key down items ∧ FirstUnfinished key down items e := by
  refine ⟨?_, fun _ => collect_grouping_eq_ok, fun _ => collect_grouping_eq_error⟩
  cases hcollect : (grouping key down).collect items with
  | ok results =>
    obtain ⟨hkeys, hresults⟩ := collect_grouping_eq_ok.mp hcollect
    refine ⟨fun _ k hk => ?_, fun _ => rfl⟩
    rw [← hkeys] at hk
    obtain ⟨result, hmem, rfl⟩ := List.mem_map.mp hk
    rw [hresults result hmem]
    rfl
  | error e =>
    have hkey : ∃ k ∈ keysOf key items, down.collect (itemsOf key items k) = .error e := by
      rcases collect_grouping_eq_error.mp hcollect with hfirst | ⟨-, hunfinished⟩
      · exact hfirst.exists_key
      · exact hunfinished.exists_key
    obtain ⟨k, hk, hfail⟩ := hkey
    constructor
    · intro hok
      cases hok
    · intro hall
      have hok := hall k hk
      rw [hfail] at hok
      cases hok

end Collecting

/-! ## Readings by place and year -/

/-- A reading: its place, its year, and what was read. -/
private structure Reading where
  place : Json
  year : Nat
  value : Option Nat

/-- The only reading with a value of each year. -/
private def byYear :
    Accumulator Reading (List (Nat × Option Reading)) (List (Nat × Option Reading)) :=
  grouping (·.year) (uniqueNonNull (·.value.isNone))

/-- Readings of two places and two years. -/
private def readings : List Reading :=
  [⟨.ofNat 2, 1990, some 7⟩, ⟨.ofNat 1, 1991, none⟩, ⟨.ofNat 2, 1991, some 8⟩,
    ⟨.ofNat 1, 1991, some 9⟩]

theorem collect_grouping_readings :
    (∀ k ∈ keysOf Reading.place readings,
      (byYear.collect (itemsOf Reading.place readings k)).isOk = true) ∧
    (FirstRefused Reading.place byYear (readings ++ readings) .nonUniqueResult ∨
      TakesAll Reading.place byYear (readings ++ readings) ∧
        FirstUnfinished Reading.place byYear (readings ++ readings) .nonUniqueResult) :=
  ⟨(collect_grouping Reading.place byYear readings).1.mp rfl,
    ((collect_grouping Reading.place byYear (readings ++ readings)).2.2 .nonUniqueResult).mp rfl⟩

end Accumulator
end SqlGraph
