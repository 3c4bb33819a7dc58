import SqlGraph.Graph.Copy
import SqlGraph.Proofs.Graph.Identity
import SqlGraph.Proofs.Graph.Twins

/-!
# Beans of another kind in place of the former ones

An embedded transformer builds beans whose content embeds a former content, under the same keys and
filled by the same columns. Listing a result with it and with the original is the same but for the
beans: one run constructs a bean when the other does, the embedded content is filled as the original
bean is, and the rest of the bean stays as it was constructed (`substitution`). A row that one run
cannot read the other cannot either.

The two kinds keep the beans apart when both transformers work in one context: what was returned for
one is never returned for the other (`ne_of_kind_ne`). The main statement is `list_embedded`.
-/

namespace SqlGraph.Graph

variable {α β γ : Type}

/-- What is set in a slot is read from it, and a slot that is set is otherwise left alone. -/
structure Slot.Lawful (slot : Slot α γ) : Prop where
  get_set : ∀ v a, slot.get (slot.set v a) = v
  set_get : ∀ a, slot.set (slot.get a) a = a
  set_set : ∀ v w a, slot.set v (slot.set w a) = slot.set v a

/-! ## Where a result fails -/

namespace Transformer

variable {t : Transformer α} {heap : Heap α} {feed : List (Except Error Row)} {e : Error}

/-- All items before an item can be listed, and the item ends the traversal with an error. -/
def FailsAt (t : Transformer α) (heap : Heap α) (before : List (Except Error Row))
    (item : Except Error Row) (e : Error) : Prop :=
  (∃ beans, (t.list before heap).1 = .ok beans) ∧ (t.list (before ++ [item]) heap).1 = .error e

/-- Items behind one that fails are not reached. -/
theorem list_append_error (h : (t.list feed heap).1 = .error e)
    (more : List (Except Error Row)) : (t.list (feed ++ more) heap).1 = .error e := by
  unfold list traverse at h ⊢
  rw [traverseFrom_append]
  rcases houtcome : t.traverseFrom lister lister.supply feed { heap := heap } with ⟨e' | beans, s⟩
  · rw [houtcome] at h
    exact h
  · rw [houtcome] at h
    cases h

/-- A result that cannot be listed fails at one of its items. -/
theorem exists_failsAt (h : (t.list feed heap).1 = .error e) :
    ∃ before item after, feed = before ++ item :: after ∧ t.FailsAt heap before item e := by
  induction feed using List.reverseRecOn with
  | nil => cases h
  | append_singleton before item ih =>
    cases hbefore : (t.list before heap).1 with
    | ok beans => exact ⟨before, item, [], rfl, ⟨beans, hbefore⟩, h⟩
    | error e' =>
      obtain rfl : e' = e :=
        Except.error.inj ((list_append_error hbefore [item]).symm.trans h)
      obtain ⟨front, other, after, rfl, hfails⟩ := ih hbefore
      exact ⟨front, other, after ++ [item], by simp, hfails⟩

end Transformer

/-! ## Beans of two kinds -/

/-- The beans that rows return, transformed one after the other in one context. -/
def returnedEach : List (Transformer α × Row) → State α → List (Option BeanId)
  | [], _ => []
  | (t, row) :: rest, s =>
    (t.transform row s).1.toOption.join :: returnedEach rest (t.transform row s).2

/-- What a row returned is of the kind of its root, and stays so. -/
theorem kind_of_returnedEach {calls : List (Transformer α × Row)} {s : State α} (hs : s.Sound)
    {i : Nat} {t : Transformer α} {row : Row} {bean : BeanId} (hcall : calls[i]? = some (t, row))
    (hreturned : (returnedEach calls s)[i]? = some (some bean)) :
    ∃ a, (transformEach calls s).heap.bean? bean = some ⟨t.factory.kind, a⟩ := by
  induction calls generalizing i s with
  | nil => cases hcall
  | cons call rest ih =>
    have hsound := steps_sound.transform call.1 call.2 s hs
    cases i with
    | succ i => exact ih hsound hcall hreturned
    | zero =>
      obtain rfl : call = (t, row) := Option.some.inj hcall
      have hlater := steps_kinds.transformEach rest (t.transform row s).2
      rcases houtcome : t.transform row s with ⟨e | root, s₁⟩
      · simp [returnedEach, houtcome, Except.toOption] at hreturned
      · obtain rfl : root = some bean := by
          simpa [returnedEach, houtcome, Except.toOption] using hreturned
        obtain ⟨a, ha⟩ := Transformer.kind_of_transform hs houtcome
        rw [houtcome] at hlater
        have hend : (transformEach ((t, row) :: rest) s).heap = (transformEach rest s₁).heap := by
          rw [transformEach, houtcome]
        rw [hend]
        exact hlater bean _ a ha

/-- Rows of roots of different kinds never return the same bean, whatever else is transformed in
the same context. -/
theorem ne_of_kind_ne {calls : List (Transformer α × Row)} {heap : Heap α} {i j : Nat}
    {t u : Transformer α} {row row' : Row} {bean bean' : BeanId}
    (hkind : t.factory.kind ≠ u.factory.kind) (hi : calls[i]? = some (t, row))
    (hj : calls[j]? = some (u, row'))
    (hbean : (returnedEach calls { heap := heap })[i]? = some (some bean))
    (hbean' : (returnedEach calls { heap := heap })[j]? = some (some bean')) : bean ≠ bean' := by
  obtain ⟨a, ha⟩ := kind_of_returnedEach (State.sound_of_empty heap) hi hbean
  obtain ⟨b, hb⟩ := kind_of_returnedEach (State.sound_of_empty heap) hj hbean'
  rintro rfl
  rw [ha] at hb
  exact hkind (congrArg Bean.kind (Option.some.inj hb))

/-! ## The two runs -/

section Embedded

variable (t : Transformer α) (kind : BeanKind) (construct : Key → β) (upcast : Slot β α)

/-- Twins are an original bean and one that embeds its content and is otherwise as constructed. -/
def substitution (old old' : Nat) : Twinning α β where
  old := old
  old' := old'
  kinds k k' := k = t.factory.kind ∧ k' = kind
  kinds_iff := by
    rintro k k' other other' ⟨rfl, rfl⟩ ⟨rfl, rfl⟩
    exact ⟨fun _ => rfl, fun _ => rfl⟩
  contents _ key a b := b = upcast.set a (construct key)
  contents_mono _ h := h

variable {t kind construct upcast}

/-- The embedded transformer does the same with the embedded content. -/
theorem substitution_transformers (hrelations : t.relations = []) (hupcast : upcast.Lawful)
    (hconstruct : ∀ key, upcast.get (construct key) = t.factory.construct key) (old old' : Nat) :
    (substitution t kind construct upcast old old').simulation.Transformers t
      (t.embedded kind construct upcast) := by
  cases t with
  | mk factory columns relations =>
    obtain rfl : relations = [] := hrelations
    refine .mk ⟨⟨rfl, rfl⟩, rfl, fun key => ?_⟩ ?_ .nil
    · -- the bean as constructed embeds what the original factory constructs
      show construct key = upcast.set (factory.construct key) (construct key)
      rw [← show upcast.get (construct key) = factory.construct key from hconstruct key,
        hupcast.set_get]
    · refine List.forall₂_map_right_iff.mpr (List.forall₂_same.mpr fun c _ => ⟨rfl, ?_⟩)
      rintro n key a b rfl v
      show Agree _ (c.consume v a)
        ((c.consume v (upcast.get (upcast.set a (construct key)))).map fun a' =>
          upcast.set a' (upcast.set a (construct key)))
      rw [hupcast.get_set]
      cases c.consume v a with
      | error e => exact .error e
      | ok a' => exact .ok (hupcast.set_set a' a (construct key))

variable (kind) in
/-- The two runs end alike, for any result. -/
theorem list_ends (hrelations : t.relations = []) (hupcast : upcast.Lawful)
    (hconstruct : ∀ key, upcast.get (construct key) = t.factory.construct key)
    (feed : List (Except Error Row)) (heap : Heap α) (heap' : Heap β) :
    let sim := (substitution t kind construct upcast heap.size heap'.size).simulation
    sim.Ends (fun s s' => List.Forall₂ (sim.beans s s')) { heap := heap } { heap := heap' }
      (t.list feed heap) ((t.embedded kind construct upcast).list feed heap') :=
  Twinning.steps.traverse Twinning.marks Simulation.folds_lister
    (substitution_transformers hrelations hupcast hconstruct heap.size heap'.size) feed
    (Twinning.states_start heap heap' rfl rfl)

end Embedded

/-- A relation-free transformer and the one that builds beans of another kind in its place, whose
content embeds at first what the original constructs, list the same: both fail with the same error
at the same item, or both list as many beans, each of which was constructed for the key of the other
one, embeds its content and is otherwise as it was constructed. When the two kinds differ, a bean
returned for one in a context is never returned for the other in the same context, whatever the
keys. -/
theorem list_embedded (t : Transformer α) (kind : BeanKind) (construct : Key → β)
    (upcast : Slot β α) (hrelations : t.relations = []) (hupcast : upcast.Lawful)
    (hconstruct : ∀ key, upcast.get (construct key) = t.factory.construct key) :
    (∀ (feed : List (Except Error Row)) (heap : Heap α) (heap' : Heap β),
      (∃ before item after e, feed = before ++ item :: after ∧ t.FailsAt heap before item e ∧
        (t.embedded kind construct upcast).FailsAt heap' before item e ∧
        (t.list feed heap).1 = .error e ∧
        ((t.embedded kind construct upcast).list feed heap').1 = .error e) ∨
      ∃ beans s beans' s', t.list feed heap = (.ok beans, s) ∧
        (t.embedded kind construct upcast).list feed heap' = (.ok beans', s') ∧
        List.Forall₂ (fun bean bean' => ∃ key a b,
          s.context.HasKey t.factory.kind key bean ∧ s'.context.HasKey kind key bean' ∧
          s.heap.bean? bean = some ⟨t.factory.kind, a⟩ ∧ s'.heap.bean? bean' = some ⟨kind, b⟩ ∧
          upcast.get b = a ∧ b = upcast.set a (construct key)) beans beans') ∧
    (t.factory.kind ≠ kind → ∀ {γ : Type} (u u' : Transformer γ),
      u.factory.kind = t.factory.kind →
      u'.factory.kind = (t.embedded kind construct upcast).factory.kind →
      ∀ (calls : List (Transformer γ × Row)) (heap : Heap γ) {i j : Nat} {row row' : Row}
        {bean bean' : BeanId}, calls[i]? = some (u, row) → calls[j]? = some (u', row') →
        (returnedEach calls { heap := heap })[i]? = some (some bean) →
        (returnedEach calls { heap := heap })[j]? = some (some bean') → bean ≠ bean') := by
  refine ⟨fun feed heap heap' => ?_, fun hkind _ u u' hu hu' calls heap _ _ _ _ _ _ hi hj => ?_⟩
  · have hends := fun feed => list_ends kind hrelations hupcast hconstruct feed heap heap'
    cases hlist : (t.list feed heap).1 with
    | error e =>
      obtain ⟨before, item, after, rfl, ⟨beans, hbefore⟩, hitem⟩ :=
        Transformer.exists_failsAt hlist
      obtain ⟨beans', hbefore', -⟩ := (hends before).results.exists_ok hbefore
      exact .inl ⟨before, item, after, e, rfl, ⟨⟨beans, hbefore⟩, hitem⟩,
        ⟨⟨beans', hbefore'⟩, (hends _).results.error_eq hitem⟩, rfl,
        (hends _).results.error_eq hlist⟩
    | ok beans =>
      obtain ⟨beans', hlist', hbeans⟩ := (hends feed).results.exists_ok hlist
      refine .inr ⟨beans, _, beans', _, Prod.ext hlist rfl, Prod.ext hlist' rfl,
        hbeans.imp fun bean bean' hbean => ?_⟩
      obtain ⟨_, _, key, a, b, hpair⟩ := (hends feed).follows.states.pairs hbean.1 hbean.2
      obtain ⟨rfl, rfl⟩ := hpair.kinds
      obtain rfl : b = upcast.set a (construct key) := hpair.contents
      exact ⟨key, a, _, hpair.key_left, hpair.key_right, hpair.left, hpair.right,
        hupcast.get_set _ _, rfl⟩
  · refine ne_of_kind_ne ?_ hi hj
    rw [hu, hu']
    exact hkind

/-! ## Clerks with badges -/

/-- A clerk by number, with a name. -/
private def clerk : Transformer Json :=
  .mk ⟨0, some ["id"], fun _ => .null⟩ [.raw "friend" fun name _ => name] []

/-- A clerk with a badge. -/
private def badged : Slot (Json × Nat) Json := ⟨Prod.fst, fun name b => (name, b.2)⟩

private theorem badged_lawful : badged.Lawful := ⟨fun _ _ => rfl, fun _ => rfl, fun _ _ _ => rfl⟩

/-- Two clerks, one of them read twice. -/
private def clerks : List (Except Error Row) :=
  [.ok (friendRow (.ofNat 1) (.string "Ann")), .ok (friendRow (.ofNat 2) (.string "Bob")),
    .ok (friendRow (.ofNat 1) (.string "Dee"))]

/-- The clerk read twice keeps its badge and has the last name, like the clerk without badge. -/
theorem list_embedded_clerks : ∃ a b,
    (clerk.list clerks {}).2.heap.bean? 0 = some ⟨0, a⟩ ∧
    ((clerk.embedded 1 (fun _ => (.null, 42)) badged).list clerks {}).2.heap.bean? 0 =
      some ⟨1, b⟩ ∧ b = (a, 42) := by
  obtain ⟨h, -⟩ := list_embedded clerk 1 (fun _ => (.null, 42)) badged rfl badged_lawful
    (fun _ => rfl)
  rcases h clerks {} {} with ⟨_, _, _, _, -, -, -, hfail, -⟩ |
    ⟨beans, s, beans', s', hlist, hlist', hall⟩
  · cases hfail
  · obtain rfl : [0, 1] = beans := Except.ok.inj (congrArg Prod.fst hlist)
    obtain rfl : [0, 1] = beans' := Except.ok.inj (congrArg Prod.fst hlist')
    cases hall with
    | cons hfirst _ =>
      obtain ⟨key, a, b, -, -, ha, hb, -, hrest⟩ := hfirst
      rw [hlist, hlist']
      exact ⟨a, b, ha, hb, hrest⟩

end SqlGraph.Graph
