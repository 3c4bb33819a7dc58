import Mathlib.Data.List.Forall2
import SqlGraph.Proofs.Accumulate.Grouping
import SqlGraph.Proofs.Graph.Events
import SqlGraph.Proofs.Graph.Roots

/-!
# Runs side by side

Two transformers of the same shape, over contents of different types and beans of their own, often
do the same. A `Simulation` says what that means: which states correspond, which of their beans do,
and which factories, columns and fixers do the same. When each step of corresponding parts leads
from corresponding states to such states, with the same error or corresponding results
(`Simulation.Steps`), so does every row (`Steps.transform`), and so does a whole traversal whose
accumulators fold corresponding roots alike (`Steps.traverse`).

What a single run keeps is the case of a run beside itself: `Upkeep` says what holds of its states
and of the beans it works on.
-/

namespace SqlGraph.Graph

variable {α β γ δ : Type}

/-! ## Simulations -/

/-- The same error, or results that correspond. -/
inductive Agree (V : γ → δ → Prop) : Except Error γ → Except Error δ → Prop where
  | error (e : Error) : Agree V (.error e) (.error e)
  | ok {c : γ} {d : δ} (h : V c d) : Agree V (.ok c) (.ok d)

namespace Agree

variable {V : γ → δ → Prop} {r : Except Error γ} {r' : Except Error δ} (h : Agree V r r')
include h

theorem error_eq {e : Error} (hr : r = .error e) : r' = .error e := by
  rw [hr] at h
  cases h
  rfl

theorem exists_ok {c : γ} (hr : r = .ok c) : ∃ d, r' = .ok d ∧ V c d := by
  rw [hr] at h
  cases h with
  | ok hv => exact ⟨_, rfl, hv⟩

end Agree

/-- Which states of two runs correspond, which beans do, and which parts do the same. -/
structure Simulation (α β : Type) where
  states : State α → State β → Prop
  beans : State α → State β → BeanId → BeanId → Prop
  factories : Factory α → Factory β → Prop
  columns : ColumnReader α → ColumnReader β → Prop
  fixers : Fixer α → Fixer β → Prop

namespace Simulation

variable (sim : Simulation α β)

/-- States that correspond, and in which beans correspond as before. -/
structure Follows (s : State α) (s' : State β) (s₁ : State α) (s₁' : State β) : Prop where
  states : sim.states s₁ s₁'
  beans : ∀ {bean bean'}, sim.beans s s' bean bean' → sim.beans s₁ s₁' bean bean'

/-- Two steps end in states that correspond, with the same error or corresponding results. -/
structure Ends (V : State α → State β → γ → δ → Prop) (s : State α) (s' : State β)
    (o : Outcome α γ) (o' : Outcome β δ) : Prop where
  follows : sim.Follows s s' o.2 o'.2
  results : Agree (V o.2 o'.2) o.1 o'.1

mutual

/-- Transformers of the same shape whose parts do the same. -/
inductive Transformers : Transformer α → Transformer β → Prop where
  | mk {factory factory' columns columns' relations relations'}
    (hfactory : sim.factories factory factory')
    (hcolumns : List.Forall₂ sim.columns columns columns')
    (hrelations : AllRelations relations relations') :
    Transformers (.mk factory columns relations) (.mk factory' columns' relations')

/-- Relations of one identity and policy. -/
inductive Relations : Relation α → Relation β → Prop where
  | mk (id : RelationId) {target target' fixer fixer'} (policy : Policy)
    (htarget : Transformers target target') (hfixer : sim.fixers fixer fixer') :
    Relations (.mk id target fixer policy) (.mk id target' fixer' policy)

/-- Relations in order. -/
inductive AllRelations : List (Relation α) → List (Relation β) → Prop where
  | nil : AllRelations [] []
  | cons {r r' rest rest'} (hfirst : Relations r r') (hrest : AllRelations rest rest') :
    AllRelations (r :: rest) (r' :: rest')

end

/-- Each step of corresponding parts ends in corresponding states, with the same error or
corresponding results. -/
structure Steps : Prop where
  produce : ∀ {f f' s s'}, sim.factories f f' → sim.states s s' → ∀ row,
    sim.Ends (fun s₁ s₁' => Option.Rel fun made made' => sim.beans s₁ s₁' made.1 made'.1) s s'
      (f.produce row s) (f'.produce row s')
  fill : ∀ {c c' s s' bean bean'}, sim.columns c c' → sim.states s s' →
    sim.beans s s' bean bean' → ∀ row,
    sim.Ends (fun _ _ _ _ => True) s s' (c.fill bean row s) (c'.fill bean' row s')
  fix : ∀ {fixer fixer' s s' owner owner' related related'}, sim.fixers fixer fixer' →
    sim.states s s' → sim.beans s s' owner owner' → sim.beans s s' related related' →
    ∀ id policy, sim.Follows s s' (applyFixer id fixer policy owner related s)
      (applyFixer id fixer' policy owner' related' s')

variable {sim} {s s₁ s₂ : State α} {s' s₁' s₂' : State β}

namespace Follows

theorem refl (h : sim.states s s') : sim.Follows s s' s s' := ⟨h, id⟩

theorem trans (h : sim.Follows s s' s₁ s₁') (h' : sim.Follows s₁ s₁' s₂ s₂') :
    sim.Follows s s' s₂ s₂' := ⟨h'.states, fun hbeans => h'.beans (h.beans hbeans)⟩

end Follows

/-- Steps that end alike, each followed by steps that end alike. -/
theorem Ends.andThen {ε ζ : Type} {V : State α → State β → γ → δ → Prop}
    {W : State α → State β → ε → ζ → Prop} {o : Outcome α γ} {o' : Outcome β δ}
    {next : γ → State α → Outcome α ε} {next' : δ → State β → Outcome β ζ}
    (h : sim.Ends V s s' o o')
    (hnext : ∀ {c d s₁ s₁'}, sim.Follows s s' s₁ s₁' → V s₁ s₁' c d →
      sim.Ends W s₁ s₁' (next c s₁) (next' d s₁')) :
    sim.Ends W s s' (o.andThen next) (o'.andThen next') := by
  obtain ⟨r, s₁⟩ := o
  obtain ⟨r', s₁'⟩ := o'
  obtain ⟨hfollows, hresults⟩ := h
  cases hresults with
  | error e => exact ⟨hfollows, .error e⟩
  | ok hv =>
    have hrest := hnext hfollows hv
    exact ⟨hfollows.trans hrest.follows, hrest.results⟩

namespace Steps

/-! ## Rows -/

theorem fillAll (h : sim.Steps) {columns : List (ColumnReader α)}
    {columns' : List (ColumnReader β)} (hcolumns : List.Forall₂ sim.columns columns columns')
    {bean bean' : BeanId} (hs : sim.states s s') (hbean : sim.beans s s' bean bean') (row : Row) :
    sim.Ends (fun _ _ _ _ => True) s s' (Graph.fillAll bean row columns s)
      (Graph.fillAll bean' row columns' s') := by
  induction hcolumns generalizing s s' with
  | nil => exact ⟨.refl hs, .ok trivial⟩
  | cons hfirst _ ih =>
    exact (h.fill hfirst hs hbean row).andThen fun hfollows _ =>
      ih hfollows.states (hfollows.beans hbean)

mutual

/-- A row. -/
theorem transform (h : sim.Steps) {t : Transformer α} {t' : Transformer β}
    (ht : sim.Transformers t t') {s : State α} {s' : State β} (hs : sim.states s s') (row : Row) :
    sim.Ends (fun s₁ s₁' => Option.Rel (sim.beans s₁ s₁')) s s' (t.transform row s)
      (t'.transform row s') := by
  obtain ⟨hfactory, hcolumns, hrelations⟩ := ht
  unfold Transformer.transform
  refine (h.produce hfactory hs row).andThen fun hfollows hmade => ?_
  cases hmade with
  | none => exact ⟨.refl hfollows.states, .ok .none⟩
  | some hbean =>
    refine (h.fillAll hcolumns hfollows.states hbean row).andThen fun hfilled _ => ?_
    refine (h.assembleAll hrelations hfilled.states (hfilled.beans hbean) row).andThen
      fun hassembled _ => ?_
    exact ⟨.refl hassembled.states, .ok (.some (hassembled.beans (hfilled.beans hbean)))⟩

/-- A relation of corresponding owners. -/
theorem assemble (h : sim.Steps) {r : Relation α} {r' : Relation β} (hr : sim.Relations r r')
    {s : State α} {s' : State β} (hs : sim.states s s') {owner owner' : BeanId}
    (howner : sim.beans s s' owner owner') (row : Row) :
    sim.Ends (fun _ _ _ _ => True) s s' (r.assemble owner row s) (r'.assemble owner' row s') := by
  obtain ⟨id, policy, htarget, hfixer⟩ := hr
  unfold Relation.assemble
  refine (h.transform htarget hs row).andThen fun hfollows hrelated => ?_
  cases hrelated with
  | none => exact ⟨.refl hfollows.states, .ok trivial⟩
  | some hrelated =>
    exact ⟨h.fix hfixer hfollows.states (hfollows.beans howner) hrelated id policy, .ok trivial⟩

/-- Relations in order. -/
theorem assembleAll (h : sim.Steps) {relations : List (Relation α)}
    {relations' : List (Relation β)} (hrelations : sim.AllRelations relations relations')
    {s : State α} {s' : State β} (hs : sim.states s s') {owner owner' : BeanId}
    (howner : sim.beans s s' owner owner') (row : Row) :
    sim.Ends (fun _ _ _ _ => True) s s' (Graph.assembleAll relations owner row s)
      (Graph.assembleAll relations' owner' row s') := by
  cases hrelations with
  | nil => exact ⟨.refl hs, .ok trivial⟩
  | cons hfirst hrest =>
    unfold Graph.assembleAll
    exact (h.assemble hfirst hs howner row).andThen fun hfollows _ =>
      h.assembleAll hrest hfollows.states (hfollows.beans howner) row

end

end Steps

/-! ## Traversals -/

variable (sim) in
/-- Corresponding beans are marked as roots in both states or in none, and may be so marked. -/
structure Marks : Prop where
  isRoot : ∀ {s s' bean bean'}, sim.states s s' → sim.beans s s' bean bean' →
    s'.context.isRoot bean' = s.context.isRoot bean
  markRoot : ∀ {s s' bean bean'}, sim.states s s' → sim.beans s s' bean bean' →
    sim.Follows s s' { s with context := s.context.markRoot bean }
      { s' with context := s'.context.markRoot bean' }

variable {σ σ' ω ω' : Type}

variable (sim) in
/-- Accumulators that fold corresponding roots alike, by seeds that correspond. -/
structure Folds (acc : Accumulator (Delivery α) σ ω) (acc' : Accumulator (Delivery β) σ' ω')
    (S : State α → State β → σ → σ' → Prop) (W : State α → State β → ω → ω' → Prop) : Prop where
  supply : ∀ s s', S s s' acc.supply acc'.supply
  mono : ∀ {s s' s₁ s₁' seed seed'}, sim.Follows s s' s₁ s₁' → S s s' seed seed' →
    S s₁ s₁' seed seed'
  aggregate : ∀ {s s' seed seed' bean bean'}, sim.states s s' → S s s' seed seed' →
    sim.beans s s' bean bean' →
    Agree (S s s') (acc.aggregate seed ⟨bean, s.heap⟩) (acc'.aggregate seed' ⟨bean', s'.heap⟩)
  finish : ∀ {s s' seed seed'}, sim.states s s' → S s s' seed seed' →
    Agree (W s s') (acc.finish seed) (acc'.finish seed')

namespace Steps

variable {acc : Accumulator (Delivery α) σ ω} {acc' : Accumulator (Delivery β) σ' ω'}
  {S : State α → State β → σ → σ' → Prop} {W : State α → State β → ω → ω' → Prop}

/-- Corresponding roots are handed over, or were before. -/
theorem deliver (hmarks : sim.Marks) (hfolds : sim.Folds acc acc' S W) {seed : σ} {seed' : σ'}
    {bean bean' : BeanId} (hs : sim.states s s') (hbean : sim.beans s s' bean bean')
    (hseed : S s s' seed seed') :
    sim.Ends S s s' (Transformer.deliver acc seed bean s)
      (Transformer.deliver acc' seed' bean' s') := by
  unfold Transformer.deliver
  rw [hmarks.isRoot hs hbean]
  cases s.context.isRoot bean with
  | true => exact ⟨.refl hs, .ok hseed⟩
  | false =>
    have hmarked := hmarks.markRoot hs hbean
    exact ⟨hmarked, hfolds.aggregate hmarked.states (hfolds.mono hmarked hseed)
      (hmarked.beans hbean)⟩

/-- The rows ahead. -/
theorem traverseFrom (h : sim.Steps) (hmarks : sim.Marks) (hfolds : sim.Folds acc acc' S W)
    {t : Transformer α} {t' : Transformer β} (ht : sim.Transformers t t')
    (feed : List (Except Error Row)) {seed : σ} {seed' : σ'} (hs : sim.states s s')
    (hseed : S s s' seed seed') :
    sim.Ends W s s' (t.traverseFrom acc seed feed s) (t'.traverseFrom acc' seed' feed s') := by
  induction feed generalizing s s' seed seed' with
  | nil => exact ⟨.refl hs, hfolds.finish hs hseed⟩
  | cons item rest ih =>
    cases item with
    | error e => exact ⟨.refl hs, .error e⟩
    | ok row =>
      unfold Transformer.traverseFrom
      refine (h.transform ht hs row).andThen fun hfollows hroot => ?_
      cases hroot with
      | none => exact ih hfollows.states (hfolds.mono hfollows hseed)
      | some hbean =>
        refine (deliver hmarks hfolds hfollows.states hbean (hfolds.mono hfollows hseed)).andThen
          fun hdelivered hseed => ?_
        exact ih hdelivered.states hseed

/-- A whole result. -/
theorem traverse (h : sim.Steps) (hmarks : sim.Marks) (hfolds : sim.Folds acc acc' S W)
    {t : Transformer α} {t' : Transformer β} (ht : sim.Transformers t t')
    (feed : List (Except Error Row)) {heap : Heap α} {heap' : Heap β}
    (hstart : sim.states { heap := heap } { heap := heap' }) :
    sim.Ends W { heap := heap } { heap := heap' } (t.traverse acc feed heap)
      (t'.traverse acc' feed heap') :=
  h.traverseFrom hmarks hfolds ht feed hstart (hfolds.supply _ _)

end Steps

/-- Lists of roots correspond bean by bean. -/
theorem folds_lister :
    sim.Folds Transformer.lister Transformer.lister
      (fun s s' => List.Forall₂ (sim.beans s s')) (fun s s' => List.Forall₂ (sim.beans s s')) where
  supply _ _ := .nil
  mono hfollows hseed := hseed.imp fun _ _ => hfollows.beans
  aggregate _ hseed hbean := .ok (List.rel_append hseed (.cons hbean .nil))
  finish _ hseed := .ok hseed

end Simulation

/-! ## One run -/

mutual

/-- All factories, columns and fixers of a transformer, those of its relations included, are as
said. -/
def Transformer.MadeOf (F : Factory α → Prop) (C : ColumnReader α → Prop) (X : Fixer α → Prop) :
    Transformer α → Prop
  | .mk factory columns relations =>
    F factory ∧ (∀ c ∈ columns, C c) ∧ Relation.AllMadeOf F C X relations

/-- The fixer and all parts of the target are as said. -/
def Relation.MadeOf (F : Factory α → Prop) (C : ColumnReader α → Prop) (X : Fixer α → Prop) :
    Relation α → Prop
  | .mk _ target fixer _ => target.MadeOf F C X ∧ X fixer

/-- The parts of all relations are as said. -/
def Relation.AllMadeOf (F : Factory α → Prop) (C : ColumnReader α → Prop) (X : Fixer α → Prop) :
    List (Relation α) → Prop
  | [] => True
  | r :: rest => r.MadeOf F C X ∧ Relation.AllMadeOf F C X rest

end

section Self

variable (sim : Simulation α α) {F : Factory α → Prop} {C : ColumnReader α → Prop}
  {X : Fixer α → Prop}

mutual

/-- Parts that do the same as themselves make a transformer that does. -/
theorem Simulation.transformers_self (hF : ∀ f, F f → sim.factories f f)
    (hC : ∀ c, C c → sim.columns c c) (hX : ∀ fixer, X fixer → sim.fixers fixer fixer)
    {t : Transformer α} (h : t.MadeOf F C X) : sim.Transformers t t := by
  cases t with
  | mk factory columns relations =>
    obtain ⟨hfactory, hcolumns, hrelations⟩ := h
    exact .mk (hF factory hfactory) (List.forall₂_same.mpr fun c hc => hC c (hcolumns c hc))
      (Simulation.allRelations_self hF hC hX hrelations)

theorem Simulation.relations_self (hF : ∀ f, F f → sim.factories f f)
    (hC : ∀ c, C c → sim.columns c c) (hX : ∀ fixer, X fixer → sim.fixers fixer fixer)
    {r : Relation α} (h : r.MadeOf F C X) : sim.Relations r r := by
  cases r with
  | mk id target fixer policy =>
    exact .mk id policy (Simulation.transformers_self hF hC hX h.1) (hX fixer h.2)

theorem Simulation.allRelations_self (hF : ∀ f, F f → sim.factories f f)
    (hC : ∀ c, C c → sim.columns c c) (hX : ∀ fixer, X fixer → sim.fixers fixer fixer)
    {relations : List (Relation α)} (h : Relation.AllMadeOf F C X relations) :
    sim.AllRelations relations relations := by
  cases relations with
  | nil => exact .nil
  | cons r rest =>
    exact .cons (Simulation.relations_self hF hC hX h.1)
      (Simulation.allRelations_self hF hC hX h.2)

end

end Self

/-- What one run keeps: of its states, of the beans it works on, and by which parts. -/
structure Upkeep (α : Type) where
  states : State α → Prop
  beans : State α → BeanId → Prop
  factories : Factory α → Prop
  columns : ColumnReader α → Prop
  fixers : Fixer α → Prop

namespace Upkeep

variable (up : Upkeep α)

/-- A state that is as it should be, and in which the beans worked on before still are. -/
structure Leads (s s₁ : State α) : Prop where
  states : up.states s₁
  beans : ∀ {bean}, up.beans s bean → up.beans s₁ bean

/-- Each step of the parts keeps what is to be kept. -/
structure Steps : Prop where
  produce : ∀ {f s}, up.factories f → up.states s → ∀ row, up.Leads s (f.produce row s).2 ∧
    ∀ bean fresh, (f.produce row s).1 = .ok (some (bean, fresh)) →
      up.beans (f.produce row s).2 bean
  fill : ∀ {c s bean}, up.columns c → up.states s → up.beans s bean → ∀ row,
    up.Leads s (c.fill bean row s).2
  fix : ∀ {fixer s owner related}, up.fixers fixer → up.states s → up.beans s owner →
    up.beans s related → ∀ id policy, up.Leads s (applyFixer id fixer policy owner related s)

/-- The run beside itself. -/
def beside : Simulation α α where
  states s s' := s' = s ∧ up.states s
  beans s _ bean bean' := bean' = bean ∧ up.beans s bean
  factories f f' := f' = f ∧ up.factories f
  columns c c' := c' = c ∧ up.columns c
  fixers fixer fixer' := fixer' = fixer ∧ up.fixers fixer

variable {up} {s s₁ : State α}

theorem Leads.follows (h : up.Leads s s₁) : up.beside.Follows s s s₁ s₁ :=
  ⟨⟨rfl, h.states⟩, fun hbean => ⟨hbean.1, h.beans hbean.2⟩⟩

theorem Leads.of_follows (h : up.beside.Follows s s s₁ s₁) : up.Leads s s₁ :=
  ⟨h.states.2, fun hbean => (h.beans ⟨rfl, hbean⟩).2⟩

/-- A result agrees with itself. -/
private theorem agree_self {V : γ → γ → Prop} {r : Except Error γ} (h : ∀ c, r = .ok c → V c c) :
    Agree V r r := by
  cases r with
  | error e => exact .error e
  | ok c => exact .ok (h c rfl)

theorem Steps.beside (h : up.Steps) : up.beside.Steps where
  produce := by
    rintro f f' s s' ⟨rfl, hf⟩ ⟨rfl, hs⟩ row
    obtain ⟨hleads, hbean⟩ := h.produce hf hs row
    refine ⟨hleads.follows, agree_self fun made hmade => ?_⟩
    cases made with
    | none => exact .none
    | some made => exact .some ⟨rfl, hbean made.1 made.2 hmade⟩
  fill := by
    rintro c c' s s' bean bean' ⟨rfl, hc⟩ ⟨rfl, hs⟩ ⟨rfl, hbean⟩ row
    exact ⟨(h.fill hc hs hbean row).follows, agree_self fun _ _ => trivial⟩
  fix := by
    rintro fixer fixer' s s' owner owner' related related' ⟨rfl, hfixer⟩ ⟨rfl, hs⟩ ⟨rfl, howner⟩
      ⟨rfl, hrelated⟩ id policy
    exact (h.fix hfixer hs howner hrelated id policy).follows

variable (up) in
/-- A bean that is worked on may be marked as a root. -/
def Marks : Prop :=
  ∀ {s : State α} {bean}, up.states s → up.beans s bean →
    up.Leads s { s with context := s.context.markRoot bean }

section Folds

variable {σ ω : Type} (acc : Accumulator (Delivery α) σ ω)

variable (up) in
/-- The seed has taken roots that the run worked on. -/
def Takes (s : State α) (seed : σ) : Prop :=
  ∃ deliveries : List (Delivery α), acc.aggregateAll acc.supply deliveries = .ok seed ∧
    ∀ d ∈ deliveries, up.beans s d.bean

variable (up) in
/-- The result is what roots that the run worked on are collected into. -/
def Gives (s : State α) (result : ω) : Prop :=
  ∃ deliveries : List (Delivery α), acc.collect deliveries = .ok result ∧
    ∀ d ∈ deliveries, up.beans s d.bean

theorem folds_beside : up.beside.Folds acc acc
    (fun s _ seed seed' => seed' = seed ∧ up.Takes acc s seed)
    (fun s _ result result' => result' = result ∧ up.Gives acc s result) where
  supply _ _ := ⟨rfl, [], rfl, List.forall_mem_nil _⟩
  mono := by
    rintro s s' s₁ s₁' seed seed' hfollows ⟨rfl, deliveries, hseed, hbeans⟩
    exact ⟨rfl, deliveries, hseed, fun d hd => (hfollows.beans ⟨rfl, hbeans d hd⟩).2⟩
  aggregate := by
    rintro s s' seed seed' bean bean' ⟨rfl, hs⟩ ⟨rfl, deliveries, hseed, hbeans⟩ ⟨rfl, hbean⟩
    refine agree_self fun seed₁ hitem => ⟨rfl, deliveries ++ [⟨bean', s'.heap⟩], ?_, ?_⟩
    · rw [Accumulator.aggregateAll_concat acc hseed, hitem]
    · exact List.forall_mem_append.mpr ⟨hbeans, List.forall_mem_singleton.mpr hbean⟩
  finish := by
    rintro s s' seed seed' ⟨rfl, hs⟩ ⟨rfl, deliveries, hseed, hbeans⟩
    refine agree_self fun result hfinish => ⟨rfl, deliveries, ?_, hbeans⟩
    unfold Accumulator.collect
    rw [hseed]
    exact hfinish

end Folds

theorem marks_beside (h : up.Marks) : up.beside.Marks where
  isRoot := by
    rintro s s' bean bean' ⟨rfl, -⟩ ⟨rfl, -⟩
    rfl
  markRoot := by
    rintro s s' bean bean' ⟨rfl, hs⟩ ⟨rfl, hbean⟩
    exact (h hs hbean).follows

theorem transformers_beside {t : Transformer α}
    (h : t.MadeOf up.factories up.columns up.fixers) : up.beside.Transformers t t :=
  Simulation.transformers_self up.beside (fun _ hf => ⟨rfl, hf⟩) (fun _ hc => ⟨rfl, hc⟩)
    (fun _ hx => ⟨rfl, hx⟩) h

namespace Steps

variable (h : up.Steps)
include h

theorem fillAll {columns : List (ColumnReader α)} (hcolumns : ∀ c ∈ columns, up.columns c)
    {bean : BeanId} (hs : up.states s) (hbean : up.beans s bean) (row : Row) :
    up.Leads s (Graph.fillAll bean row columns s).2 :=
  .of_follows (h.beside.fillAll (List.forall₂_same.mpr fun c hc => ⟨rfl, hcolumns c hc⟩)
    ⟨rfl, hs⟩ ⟨rfl, hbean⟩ row).follows

/-- A row. -/
theorem transform {t : Transformer α} (ht : t.MadeOf up.factories up.columns up.fixers)
    (hs : up.states s) (row : Row) :
    up.Leads s (t.transform row s).2 ∧ ∀ bean, (t.transform row s).1 = .ok (some bean) →
      up.beans (t.transform row s).2 bean := by
  have hends := h.beside.transform (transformers_beside ht) ⟨rfl, hs⟩ row
  refine ⟨.of_follows hends.follows, fun bean hbean => ?_⟩
  have hresults := hends.results
  rw [hbean] at hresults
  cases hresults with
  | ok hroot =>
    cases hroot with
    | some hroot => exact hroot.2

theorem assembleAll {relations : List (Relation α)}
    (hrelations : Relation.AllMadeOf up.factories up.columns up.fixers relations)
    (hs : up.states s) {owner : BeanId} (howner : up.beans s owner) (row : Row) :
    up.Leads s (Graph.assembleAll relations owner row s).2 :=
  .of_follows (h.beside.assembleAll (Simulation.allRelations_self up.beside
    (fun _ hf => ⟨rfl, hf⟩) (fun _ hc => ⟨rfl, hc⟩) (fun _ hx => ⟨rfl, hx⟩) hrelations)
    ⟨rfl, hs⟩ ⟨rfl, howner⟩ row).follows

/-- A whole result: what is given back folds roots that the run worked on. -/
theorem traverse {σ ω : Type} (hmark : up.Marks) {t : Transformer α}
    (ht : t.MadeOf up.factories up.columns up.fixers) (acc : Accumulator (Delivery α) σ ω)
    (feed : List (Except Error Row)) {heap : Heap α} (hstart : up.states { heap := heap }) :
    up.states (t.traverse acc feed heap).2 ∧
      ∀ result, (t.traverse acc feed heap).1 = .ok result →
        up.Gives acc (t.traverse acc feed heap).2 result := by
  have hends := h.beside.traverse (marks_beside hmark) (folds_beside acc) (transformers_beside ht)
    feed ⟨rfl, hstart⟩
  refine ⟨hends.follows.states.2, fun result hresult => ?_⟩
  have hresults := hends.results
  rw [hresult] at hresults
  cases hresults with
  | ok hgiven => exact hgiven.2

end Steps

end Upkeep

end SqlGraph.Graph
