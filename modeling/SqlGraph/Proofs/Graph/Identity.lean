import Mathlib.Data.List.Dedup
import SqlGraph.Proofs.Graph.Productions

/-!
# One bean for each kind and key

However transformers nest and whatever rows they read, in one context the beans of keys converge.
`Traced` relates a state to the calls of factories that led to it: the cache lists what was
constructed for a key, each kind and key once and each bean once, and every call that asked for a
bean got the one listed. Every call keeps it (`Traced.produce`), fills and fixers cannot break it
(`Traced.of_sameBeans`), so rows keep it (`Traced.transform`, `Traced.transformEach`).

The main statement is `transformEach_converges`.
-/

namespace SqlGraph.Graph

variable {α : Type}

/-! ## The cache as a list -/

namespace Context

variable {c : Context} {kind : BeanKind} {key : Key} {bean : BeanId}

/-- Nothing is found for what is not listed. -/
theorem cached?_eq_none_iff : c.cached? kind key = none ↔ (kind, key) ∉ c.cache.map (·.1) := by
  unfold cached?
  rw [Option.map_eq_none_iff, List.find?_eq_none]
  constructor
  · intro hnone hmem
    obtain ⟨entry, hentry, hid⟩ := List.mem_map.mp hmem
    exact hnone entry hentry (isEntry_iff.mpr hid)
  · intro hnot entry hentry hid
    exact hnot (List.mem_map.mpr ⟨entry, hentry, isEntry_iff.mp hid⟩)

/-- The bean that is found is listed. -/
theorem mem_cache_of_cached? (h : c.cached? kind key = some bean) :
    ((kind, key), bean) ∈ c.cache := by
  obtain ⟨entry, hfind, hbean⟩ := Option.map_eq_some_iff.mp h
  have hid : entry.1 = (kind, key) := isEntry_iff.mp (List.find?_some hfind)
  have hentry : entry = ((kind, key), bean) := Prod.ext hid hbean
  rw [← hentry]
  exact List.mem_of_find?_eq_some hfind

/-- When no kind and key is listed twice, the bean listed is the one that is found. -/
theorem cached?_eq_some_iff (hnodup : (c.cache.map (·.1)).Nodup) :
    c.cached? kind key = some bean ↔ ((kind, key), bean) ∈ c.cache := by
  constructor
  · exact mem_cache_of_cached?
  · intro hmem
    cases hcached : c.cached? kind key with
    | none =>
      rw [cached?_eq_none_iff] at hcached
      exact absurd (List.mem_map.mpr ⟨_, hmem, rfl⟩) hcached
    | some other =>
      have hentry := List.inj_on_of_nodup_map hnodup (mem_cache_of_cached? hcached) hmem rfl
      rw [(Prod.mk.inj hentry).2]

/-- A bean remembered for a new kind and key is listed before all others. -/
theorem cache_remember (h : c.cached? kind key = none) (bean : BeanId) :
    (c.remember kind key bean).cache = ((kind, key), bean) :: c.cache := by
  have hkeep : c.cache.filter (fun entry => !isEntry kind key entry) = c.cache := by
    rw [List.filter_eq_self]
    intro entry hentry
    rw [Bool.not_eq_true', Bool.eq_false_iff]
    intro hid
    rw [cached?_eq_none_iff] at h
    exact h (List.mem_map.mpr ⟨entry, hentry, isEntry_iff.mp hid⟩)
  unfold remember
  rw [hkeep]

end Context

/-! ## What a call adds -/

namespace Production

variable {p : Production α}

/-- The entry that the call adds to the cache, if it constructs a bean for a key. -/
def entry? (p : Production α) : Option ((BeanKind × Key) × BeanId) :=
  if p.constructs then p.identity?.map fun id => (id, p.before.heap.size) else none

theorem constructs_of_size (h : p.after.heap.size = p.before.heap.size + 1) :
    p.constructs = true := by
  unfold constructs
  rw [h]
  exact decide_eq_true (Nat.lt_succ_self _)

theorem constructs_of_after (h : p.after = p.before) : p.constructs = false := by
  unfold constructs
  rw [h]
  exact decide_eq_false (Nat.lt_irrefl _)

/-- A key with a null component gives no bean. -/
theorem isNull_of_bean? {key : Key} {bean : BeanId} (hkey : p.key? = some key)
    (hbean : p.bean? = some bean) : key.isNull = false := by
  have hidentity := identity?_of_key hkey
  rw [Bool.eq_false_iff]
  intro hnull
  rw [hnull, if_pos rfl] at hidentity
  rcases p.effect with ⟨hnone, -, -⟩ | ⟨-, hnone, -⟩ | ⟨hsome, -, -, -⟩ | ⟨hsome, -, -, -, -⟩
  · rw [hkey] at hnone
    exact Option.some_ne_none _ hnone
  · rw [hbean] at hnone
    exact Option.some_ne_none _ hnone
  · rw [hidentity] at hsome
    exact Option.some_ne_none _ hsome.symm
  · rw [hidentity] at hsome
    exact Option.some_ne_none _ hsome.symm

end Production

/-! ## The invariant -/

/-- The state that some calls led to, from the beans of a heap and an empty context. -/
structure Traced (heap : Heap α) (log : List (Production α)) (s : State α) : Prop where
  /-- the cache lists what was constructed for keys, the last first -/
  cache_eq : s.context.cache = (log.filterMap Production.entry?).reverse
  /-- a bean is there for each construction -/
  size_eq : s.heap.size = heap.size + log.countP Production.constructs
  ids_nodup : (s.context.cache.map (·.1)).Nodup
  beans_nodup : (s.context.cache.map (·.2)).Nodup
  bean_lt : ∀ entry ∈ s.context.cache, entry.2 < s.heap.size
  /-- every call that asked for a bean got the one listed -/
  listed : ∀ p ∈ log, ∀ id, p.identity? = some id →
    ∃ bean, p.bean? = some bean ∧ (id, bean) ∈ s.context.cache
  /-- from call to call entries are only added in front -/
  grown : (log.map (·.before) ++ [s]).Pairwise fun s s' => s.context.cache <:+ s'.context.cache

namespace Traced

variable {heap : Heap α} {log : List (Production α)} {s s' : State α}

/-- Nothing was called yet. -/
theorem init (heap : Heap α) : Traced heap [] { heap := heap } where
  cache_eq := rfl
  size_eq := rfl
  ids_nodup := List.nodup_nil
  beans_nodup := List.nodup_nil
  bean_lt _ hentry := absurd hentry List.not_mem_nil
  listed _ hp := absurd hp List.not_mem_nil
  grown := List.pairwise_singleton _ _

/-- What every call before found is still there. -/
theorem suffix_of_mem (h : Traced heap log s) {p : Production α} (hp : p ∈ log) :
    p.before.context.cache <:+ s.context.cache :=
  (List.pairwise_append.mp h.grown).2.2 p.before (List.mem_map_of_mem hp) s List.mem_cons_self

/-- Fills and fixers change nothing that is traced. -/
theorem of_sameBeans (h : Traced heap log s) (hsame : s.SameBeans s') : Traced heap log s' where
  cache_eq := hsame.cache_eq.trans h.cache_eq
  size_eq := hsame.size_eq.trans h.size_eq
  ids_nodup := hsame.cache_eq ▸ h.ids_nodup
  beans_nodup := hsame.cache_eq ▸ h.beans_nodup
  bean_lt := by
    rw [hsame.cache_eq, hsame.size_eq]
    exact h.bean_lt
  listed := by
    rw [hsame.cache_eq]
    exact h.listed
  grown := by
    refine List.pairwise_append.mpr
      ⟨(List.pairwise_append.mp h.grown).1, List.pairwise_singleton _ _, ?_⟩
    intro before hbefore last hlast
    obtain ⟨p, hp, rfl⟩ := List.mem_map.mp hbefore
    rw [List.mem_singleton.mp hlast, hsame.cache_eq]
    exact h.suffix_of_mem hp

/-- One more call was made, and entries were only added. -/
private theorem grown_concat (h : Traced heap log s) {p : Production α} (hp : p.before = s)
    (hsuffix : s.context.cache <:+ s'.context.cache) :
    ((log ++ [p]).map (·.before) ++ [s']).Pairwise fun s s' =>
      s.context.cache <:+ s'.context.cache := by
  rw [List.map_append, List.map_singleton, hp]
  refine List.pairwise_append.mpr ⟨h.grown, List.pairwise_singleton _ _, ?_⟩
  intro before hbefore last hlast
  rw [List.mem_singleton.mp hlast]
  rcases List.mem_append.mp hbefore with hold | hnew
  · obtain ⟨q, hq, rfl⟩ := List.mem_map.mp hold
    exact (h.suffix_of_mem hq).trans hsuffix
  · rw [List.mem_singleton.mp hnew]
    exact hsuffix

/-- A call that adds no entry. -/
private theorem concat_of_cache_eq (h : Traced heap log s) {p : Production α} (hp : p.before = s)
    (hcache : p.after.context.cache = s.context.cache)
    (hsize : p.after.heap.size = s.heap.size + if p.constructs then 1 else 0)
    (hentry : p.entry? = none)
    (hlisted : ∀ id, p.identity? = some id →
      ∃ bean, p.bean? = some bean ∧ (id, bean) ∈ s.context.cache) :
    Traced heap (log ++ [p]) p.after where
  cache_eq := by
    rw [hcache, h.cache_eq, List.filterMap_append, List.filterMap_cons_none hentry,
      List.filterMap_nil, List.append_nil]
  size_eq := by
    rw [hsize, h.size_eq, List.countP_append, List.countP_singleton, Nat.add_assoc]
  ids_nodup := hcache ▸ h.ids_nodup
  beans_nodup := hcache ▸ h.beans_nodup
  bean_lt := by
    intro entry hmem
    rw [hcache] at hmem
    rw [hsize]
    exact Nat.lt_of_lt_of_le (h.bean_lt entry hmem) (Nat.le_add_right _ _)
  listed := by
    intro q hq id hid
    rw [hcache]
    rcases List.mem_append.mp hq with hold | hnew
    · exact h.listed q hold id hid
    · rw [List.mem_singleton.mp hnew] at hid ⊢
      exact hlisted id hid
  grown := h.grown_concat hp (hcache ▸ List.suffix_refl _)

/-- One more call of a factory. -/
theorem produce (h : Traced heap log s) (factory : Factory α) (row : Row) :
    Traced heap (log ++ [⟨factory, row, s⟩]) (factory.produce row s).2 := by
  have hbefore : (Production.mk factory row s).before = s := rfl
  show Traced heap _ (Production.mk factory row s).after
  generalize Production.mk factory row s = p at hbefore
  rcases p.effect with ⟨hkey, hcache, hsize⟩ | ⟨hidentity, hbean, hafter⟩ |
    ⟨hidentity, hbean, hcached, hafter⟩ | ⟨hidentity, hbean, hcached, hcontext, hsize⟩
  · -- a bean without key is constructed: the heap grows, the cache does not
    have hidentity := Production.identity?_of_no_key hkey
    have hconstructs := Production.constructs_of_size hsize
    refine h.concat_of_cache_eq hbefore (hbefore ▸ hcache) ?_ ?_ ?_
    · rw [hsize, hconstructs, if_pos rfl, hbefore]
    · unfold Production.entry?
      rw [hidentity, hconstructs]
      rfl
    · intro id hid
      rw [hidentity] at hid
      exact absurd hid.symm (Option.some_ne_none id)
  · have hconstructs := Production.constructs_of_after hafter
    refine h.concat_of_cache_eq hbefore (by rw [hafter, hbefore]) ?_ ?_ ?_
    · rw [hafter, hconstructs, hbefore]
      rfl
    · unfold Production.entry?
      rw [hconstructs]
      rfl
    · intro id hid
      rw [hidentity] at hid
      exact absurd hid.symm (Option.some_ne_none id)
  · have hconstructs := Production.constructs_of_after hafter
    refine h.concat_of_cache_eq hbefore (by rw [hafter, hbefore]) ?_ ?_ ?_
    · rw [hafter, hconstructs, hbefore]
      rfl
    · unfold Production.entry?
      rw [hconstructs]
      rfl
    · intro id hid
      rw [hidentity] at hid
      rw [← Option.some.inj hid]
      exact ⟨_, hbean, hbefore ▸ Context.mem_cache_of_cached? hcached⟩
  · -- a bean is constructed for a new kind and key: its entry is put in front of the others
    rename_i id
    rw [hbefore] at hbean hcached hcontext hsize
    have hcache : p.after.context.cache = (id, s.heap.size) :: s.context.cache := by
      rw [hcontext]
      exact Context.cache_remember hcached _
    have hconstructs := Production.constructs_of_size (hbefore.symm ▸ hsize)
    have hentry : p.entry? = some (id, s.heap.size) := by
      unfold Production.entry?
      rw [hconstructs, hidentity, hbefore]
      rfl
    have hnew : s.heap.size ∉ s.context.cache.map (·.2) := by
      intro hmem
      obtain ⟨entry, hentry, hbean⟩ := List.mem_map.mp hmem
      exact Nat.ne_of_lt (h.bean_lt entry hentry) hbean
    constructor
    · rw [hcache, h.cache_eq, List.filterMap_append, List.filterMap_cons_some hentry,
        List.filterMap_nil, List.reverse_append]
      rfl
    · rw [hsize, h.size_eq, List.countP_append, List.countP_singleton, hconstructs, if_pos rfl,
        Nat.add_assoc]
    · rw [hcache, List.map_cons, List.nodup_cons]
      exact ⟨Context.cached?_eq_none_iff.mp hcached, h.ids_nodup⟩
    · rw [hcache, List.map_cons, List.nodup_cons]
      exact ⟨hnew, h.beans_nodup⟩
    · intro entry hmem
      rw [hcache] at hmem
      rw [hsize]
      rcases List.mem_cons.mp hmem with heq | hold
      · rw [heq]
        exact Nat.lt_succ_self _
      · exact Nat.lt_succ_of_lt (h.bean_lt entry hold)
    · intro q hq other hother
      rw [hcache]
      rcases List.mem_append.mp hq with hold | hlast
      · obtain ⟨bean, hbean, hmem⟩ := h.listed q hold other hother
        exact ⟨bean, hbean, List.mem_cons_of_mem _ hmem⟩
      · rw [List.mem_singleton.mp hlast] at hother ⊢
        rw [hidentity] at hother
        rw [← Option.some.inj hother]
        exact ⟨_, hbean, List.mem_cons_self⟩
    · refine h.grown_concat hbefore ?_
      rw [hcache]
      exact List.suffix_cons _ _

/-! ## Rows -/

mutual

/-- The calls of a row, at all positions of a transformer. -/
theorem transform (t : Transformer α) (row : Row) {log : List (Production α)} {s : State α}
    (h : Traced heap log s) :
    Traced heap (log ++ t.productions row s) (t.transform row s).2 := by
  cases t with
  | mk factory columns relations =>
    have hproduced := h.produce factory row
    unfold Transformer.productions Transformer.transform
    rcases hproduce : factory.produce row s with ⟨e | (_ | ⟨bean, fresh⟩), s₁⟩
    · rw [hproduce] at hproduced
      exact hproduced
    · rw [hproduce] at hproduced
      exact hproduced
    · rw [hproduce] at hproduced
      have hfilled := hproduced.of_sameBeans (sameBeans_fillAll bean row s₁ columns)
      simp only [Outcome.andThen]
      rcases hfill : fillAll bean row columns s₁ with ⟨e | ⟨⟩, s₂⟩
      · rw [hfill] at hfilled
        exact hfilled
      · rw [hfill] at hfilled
        have hassembled := transformAll relations bean row hfilled
        rw [List.append_assoc] at hassembled
        rcases hassemble : assembleAll relations bean row s₂ with ⟨e | ⟨⟩, s₃⟩
        · rw [hassemble] at hassembled
          simp only [hassemble]
          exact hassembled
        · rw [hassemble] at hassembled
          simp only [hassemble]
          exact hassembled

/-- The calls of a relation. -/
theorem assemble (r : Relation α) (owner : BeanId) (row : Row) {log : List (Production α)}
    {s : State α} (h : Traced heap log s) :
    Traced heap (log ++ r.productions row s) (r.assemble owner row s).2 := by
  cases r with
  | mk id target fixer policy =>
    have htransformed := transform target row h
    unfold Relation.productions Relation.assemble
    rcases htransform : target.transform row s with ⟨e | (_ | related), s₁⟩
    · rw [htransform] at htransformed
      exact htransformed
    · rw [htransform] at htransformed
      exact htransformed
    · rw [htransform] at htransformed
      exact htransformed.of_sameBeans (sameBeans_applyFixer owner related s₁ id fixer policy)

/-- The calls of relations in order. -/
theorem transformAll (relations : List (Relation α)) (owner : BeanId) (row : Row)
    {log : List (Production α)} {s : State α} (h : Traced heap log s) :
    Traced heap (log ++ productionsAll relations owner row s)
      (assembleAll relations owner row s).2 := by
  cases relations with
  | nil =>
    unfold productionsAll assembleAll
    rw [List.append_nil]
    exact h
  | cons r rest =>
    have hassembled := assemble r owner row h
    unfold productionsAll assembleAll
    rcases hassemble : r.assemble owner row s with ⟨e | ⟨⟩, s₁⟩
    · rw [hassemble] at hassembled
      simp only [Outcome.andThen, List.append_nil]
      exact hassembled
    · rw [hassemble] at hassembled
      have hrest := transformAll rest owner row hassembled
      rw [List.append_assoc] at hrest
      exact hrest

end

/-- The calls of rows transformed one after the other. -/
theorem transformEach (calls : List (Transformer α × Row)) {log : List (Production α)}
    {s : State α} (h : Traced heap log s) :
    Traced heap (log ++ productionsEach calls s) (Graph.transformEach calls s) := by
  induction calls generalizing log s with
  | nil =>
    rw [productionsEach, List.append_nil]
    exact h
  | cons call rest ih =>
    obtain ⟨t, row⟩ := call
    have hrest := ih (transform t row h)
    rw [List.append_assoc] at hrest
    exact hrest

/-! ## What the invariant says -/

/-- In a list without duplicates a member is counted once. -/
private theorem countP_eq_one_of_nodup {β : Type} [DecidableEq β] {l : List β} {b : β}
    (hnodup : l.Nodup) (hmem : b ∈ l) : l.countP (fun other => decide (other = b)) = 1 :=
  List.count_eq_one_of_mem hnodup hmem

variable {p q : Production α} {k l : Key}

/-- Of two calls that read a key, both return the same bean when the keys are one key without null
component, and so are the kinds; and only then. -/
theorem same_bean_iff_eq (h : Traced heap log s) (hp : p ∈ log) (hq : q ∈ log)
    (hk : p.key? = some k) (hl : q.key? = some l) :
    (∃ bean, p.bean? = some bean ∧ q.bean? = some bean) ↔
      p.factory.kind = q.factory.kind ∧ k = l ∧ k.isNull = false := by
  have hpid := Production.identity?_of_key hk
  have hqid := Production.identity?_of_key hl
  constructor
  · rintro ⟨bean, hpbean, hqbean⟩
    have hknull := Production.isNull_of_bean? hk hpbean
    have hlnull := Production.isNull_of_bean? hl hqbean
    rw [hknull, if_neg Bool.false_ne_true] at hpid
    rw [hlnull, if_neg Bool.false_ne_true] at hqid
    obtain ⟨b, hb, hpentry⟩ := h.listed p hp _ hpid
    obtain ⟨c, hc, hqentry⟩ := h.listed q hq _ hqid
    -- the bean is listed for both, and no bean is listed twice
    have hbean : b = c := by
      rw [hpbean] at hb
      rw [hqbean] at hc
      exact (Option.some.inj hb).symm.trans (Option.some.inj hc)
    have hentry := List.inj_on_of_nodup_map h.beans_nodup hpentry hqentry hbean
    have hid := Prod.mk.inj (Prod.mk.inj hentry).1
    exact ⟨hid.1, hid.2, hknull⟩
  · rintro ⟨hkind, hsame, hknull⟩
    rw [← hsame, hknull, if_neg Bool.false_ne_true] at hqid
    rw [hknull, if_neg Bool.false_ne_true, hkind] at hpid
    obtain ⟨b, hb, hpentry⟩ := h.listed p hp _ hpid
    obtain ⟨c, hc, hqentry⟩ := h.listed q hq _ hqid
    -- both ask for the same kind and key, which is listed once
    have hentry := List.inj_on_of_nodup_map h.ids_nodup hpentry hqentry rfl
    have hbean : b = c := (Prod.mk.inj hentry).2
    exact ⟨b, hb, hbean ▸ hc⟩

/-- Without `-0.0`, keys with the same contents are one key. -/
theorem same_bean_iff (h : Traced heap log s) (hp : p ∈ log) (hq : q ∈ log) (hk : p.key? = some k)
    (hl : q.key? = some l) (hkzero : k.zeroFree = true) (hlzero : l.zeroFree = true) :
    (∃ bean, p.bean? = some bean ∧ q.bean? = some bean) ↔
      p.factory.kind = q.factory.kind ∧ (k == l) = true ∧ k.isNull = false := by
  rw [h.same_bean_iff_eq hp hq hk hl, Key.beq_iff_eq hkzero hlzero]

/-- The entries that calls add are those of the cache. -/
theorem mem_cache_iff (h : Traced heap log s) (id : BeanKind × Key) :
    id ∈ s.context.cache.map (·.1) ↔ id ∈ log.filterMap Production.identity? := by
  constructor
  · intro hmem
    obtain ⟨entry, hentry, rfl⟩ := List.mem_map.mp hmem
    rw [h.cache_eq, List.mem_reverse] at hentry
    obtain ⟨p, hp, hadds⟩ := List.mem_filterMap.mp hentry
    refine List.mem_filterMap.mpr ⟨p, hp, ?_⟩
    unfold Production.entry? at hadds
    split at hadds
    · obtain ⟨id, hid, rfl⟩ := Option.map_eq_some_iff.mp hadds
      exact hid
    · exact absurd hadds.symm (Option.some_ne_none entry)
  · intro hmem
    obtain ⟨p, hp, hid⟩ := List.mem_filterMap.mp hmem
    obtain ⟨bean, -, hentry⟩ := h.listed p hp id hid
    exact List.mem_map.mpr ⟨_, hentry, rfl⟩

/-- There is an entry for each kind and key asked for. -/
theorem length_cache (h : Traced heap log s) :
    s.context.cache.length = (log.filterMap Production.identity?).dedup.length := by
  have hperm : (s.context.cache.map (·.1)).Perm (log.filterMap Production.identity?).dedup := by
    rw [List.perm_ext_iff_of_nodup h.ids_nodup (List.nodup_dedup _)]
    intro id
    rw [List.mem_dedup]
    exact h.mem_cache_iff id
  rw [← hperm.length_eq, List.length_map]

/-- For each kind and key asked for, one call constructs the bean. -/
theorem count_constructs (h : Traced heap log s) {id : BeanKind × Key} (hp : p ∈ log)
    (hid : p.identity? = some id) :
    log.countP (fun q => q.constructs && decide (q.identity? = some id)) = 1 := by
  have hentry : ∀ q : Production α,
      (q.constructs && decide (q.identity? = some id)) =
        (q.entry?.map fun entry => decide (entry.1 = id)).getD false := by
    intro q
    unfold Production.entry?
    cases q.constructs <;> cases q.identity? <;> simp
  have hlisted : id ∈ s.context.cache.map (·.1) :=
    (h.mem_cache_iff id).mpr (List.mem_filterMap.mpr ⟨p, hp, hid⟩)
  calc log.countP (fun q => q.constructs && decide (q.identity? = some id))
      = log.countP (fun q => (q.entry?.map fun entry => decide (entry.1 = id)).getD false) := by
        simp only [hentry]
    _ = (log.filterMap Production.entry?).countP (fun entry => decide (entry.1 = id)) := by
        rw [List.countP_filterMap]
    _ = s.context.cache.countP (fun entry => decide (entry.1 = id)) := by
        rw [h.cache_eq, List.countP_reverse]
    _ = (s.context.cache.map (·.1)).countP (fun other => decide (other = id)) := by
        rw [List.countP_map]
        rfl
    _ = 1 := countP_eq_one_of_nodup h.ids_nodup hlisted

/-- What a call finds in the cache, later ones find too. -/
theorem pairwise_keeps (h : Traced heap log s) :
    (log.map (·.before) ++ [s]).Pairwise fun s s' => ∀ kind key bean,
      s.context.cached? kind key = some bean → s'.context.cached? kind key = some bean := by
  have hnodup : ∀ s' ∈ log.map (·.before) ++ [s], (s'.context.cache.map (·.1)).Nodup := by
    intro s' hs'
    rcases List.mem_append.mp hs' with hbefore | hlast
    · obtain ⟨p, hp, rfl⟩ := List.mem_map.mp hbefore
      exact ((h.suffix_of_mem hp).sublist.map _).nodup h.ids_nodup
    · rw [List.mem_singleton.mp hlast]
      exact h.ids_nodup
  refine h.grown.imp_of_mem fun _ hlater hsuffix kind key bean hcached => ?_
  rw [Context.cached?_eq_some_iff (hnodup _ hlater)]
  exact hsuffix.subset (Context.mem_cache_of_cached? hcached)

end Traced

/-! ## Convergence -/

/-- Rows are transformed one after the other in one context, whatever the transformers and the
beans that exist already, and no key read has the float `-0.0`. Two calls of keyed factories return
the same bean exactly when they are of the same kind and read the same key without null component;
a bean in the cache is never replaced; for each kind and key asked for, one call constructs a bean;
the cache has as many beans as there are kinds and keys asked for; and no bean is constructed by
other means. -/
theorem transformEach_converges (calls : List (Transformer α × Row)) (heap : Heap α)
    (hzero : ∀ p ∈ productionsEach calls { heap := heap }, ∀ key, p.key? = some key →
      key.zeroFree = true) :
    let log := productionsEach calls { heap := heap }
    let s := transformEach calls { heap := heap }
    (∀ p ∈ log, ∀ q ∈ log, ∀ k l, p.key? = some k → q.key? = some l →
      ((∃ bean, p.bean? = some bean ∧ q.bean? = some bean) ↔
        p.factory.kind = q.factory.kind ∧ (k == l) = true ∧ k.isNull = false)) ∧
    ((log.map (·.before) ++ [s]).Pairwise fun s s' => ∀ kind key bean,
      s.context.cached? kind key = some bean → s'.context.cached? kind key = some bean) ∧
    (∀ p ∈ log, ∀ id, p.identity? = some id →
      log.countP (fun q => q.constructs && decide (q.identity? = some id)) = 1) ∧
    s.context.cache.length = (log.filterMap Production.identity?).dedup.length ∧
    s.heap.size = heap.size + log.countP Production.constructs := by
  intro log s
  have h : Traced heap log s := (Traced.init heap).transformEach calls
  refine ⟨fun p hp q hq k l hk hl => ?_, h.pairwise_keeps, fun p hp id hid => ?_, h.length_cache,
    h.size_eq⟩
  · exact h.same_bean_iff hp hq hk hl (hzero p hp k hk) (hzero q hq l hl)
  · exact h.count_constructs hp hid

/-! ## Friends -/

/-- A person by number, with a friend of the same row, who is a person too. -/
def person : Transformer (Option BeanId) :=
  .mk ⟨0, some ["id"], fun _ => none⟩ []
    [.mk 0 (.mk ⟨0, some ["friend"], fun _ => none⟩ [] []) (.one ⟨id, fun friend _ => friend⟩)
      .eachRow]

/-- A row with the numbers of a person and of a friend. -/
def friendRow (person friend : Json) : Row := fun label =>
  match label with
  | "id" => .ok person
  | "friend" => .ok friend
  | _ => .error (.columnNotFound label)

/-- Two persons who are the friends of each other, and one without friend. -/
def friends : List (Transformer (Option BeanId) × Row) :=
  [(person, friendRow (.ofNat 1) (.ofNat 2)), (person, friendRow (.ofNat 2) (.ofNat 1)),
    (person, friendRow (.ofNat 3) .null)]

/-- The friend of the first row is the person of the second, and there are three persons. -/
theorem transformEach_converges_friends :
    ∃ p q, (productionsEach friends {})[1]? = some p ∧ (productionsEach friends {})[2]? = some q ∧
      (∃ bean, p.bean? = some bean ∧ q.bean? = some bean) ∧
      (transformEach friends {}).context.cache.length = 3 := by
  have hzero : ∀ p ∈ productionsEach friends {}, ∀ key, p.key? = some key →
      key.zeroFree = true := by
    intro p hp key hkey
    have hall : ((productionsEach friends {}).all fun p => p.key?.all Key.zeroFree) = true := by
      decide
    have hp' := List.all_eq_true.mp hall p hp
    rw [hkey] at hp'
    exact hp'
  obtain ⟨hsame, -, -, hlength, -⟩ := transformEach_converges friends {} hzero
  have hp : (productionsEach friends {})[1]? = some
      { factory := ⟨0, some ["friend"], fun _ => none⟩, row := friendRow (.ofNat 1) (.ofNat 2),
        before := ((person.factory).produce (friendRow (.ofNat 1) (.ofNat 2)) {}).2 } := rfl
  have hq : (productionsEach friends {})[2]? = some
      { factory := person.factory, row := friendRow (.ofNat 2) (.ofNat 1),
        before := (person.transform (friendRow (.ofNat 1) (.ofNat 2)) {}).2 } := rfl
  refine ⟨_, _, hp, hq, ?_, hlength.trans (by decide)⟩
  exact (hsame _ (List.mem_of_getElem? hp) _ (List.mem_of_getElem? hq) ⟨[.ofNat 2]⟩ ⟨[.ofNat 2]⟩
    rfl rfl).mpr ⟨rfl, rfl, rfl⟩

end SqlGraph.Graph
