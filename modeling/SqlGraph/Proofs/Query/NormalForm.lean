import SqlGraph.Query.Criteria

/-!
# The normal form of criteria

Two chains may be built differently and mean the same: a nested chain without conditions adds
nothing, the combinator of the first link combines it with nothing, and a missing combinator stands
for `and`. The normal form of a chain (`Criteria.normal`) leaves the first out (`Link.prunedAll`)
and then spells out the other two (`Link.combinedAll`), in nested chains as well.

Neither changes whether there are conditions. `AllWords` tells the chains whose leaves are single
words, `AllReadable` those of them in which every nested chain has conditions, as it is the case
once a chain is pruned.
-/

namespace SqlGraph

/-! ## Pruning -/

mutual

/-- The criterion with its nested chains pruned. -/
def Criterion.pruned : Criterion → Criterion
  | .compare left condition => .compare left condition
  | .raw fragments => .raw fragments
  | .nested chain => .nested (Link.prunedAll chain)

/-- The links that have conditions, themselves pruned. -/
def Link.prunedAll : List Link → List Link
  | [] => []
  | .mk c k :: rest =>
    if k.hasConditions then .mk c k.pruned :: Link.prunedAll rest else Link.prunedAll rest

end

mutual

/-- Pruning leaves the conditions of a criterion where they are. -/
theorem Criterion.hasConditions_pruned (k : Criterion) :
    k.pruned.hasConditions = k.hasConditions := by
  cases k with
  | compare left condition => rfl
  | raw fragments => rfl
  | nested chain => exact Link.anyConditions_prunedAll chain

theorem Link.anyConditions_prunedAll (chain : List Link) :
    Link.anyConditions (Link.prunedAll chain) = Link.anyConditions chain := by
  cases chain with
  | nil => rfl
  | cons link rest =>
    obtain ⟨c, k⟩ := link
    have hk := Criterion.hasConditions_pruned k
    have hrest := Link.anyConditions_prunedAll rest
    rw [Link.prunedAll]
    cases hconditions : k.hasConditions <;>
      simp [Link.anyConditions, Link.hasConditions, hk, hrest, hconditions]

end

/-! ## Combining -/

mutual

/-- The criterion with the combinators of its nested chains spelled out. -/
def Criterion.combined : Criterion → Criterion
  | .compare left condition => .compare left condition
  | .raw fragments => .raw fragments
  | .nested chain => .nested (Link.combinedAll true chain)

/-- The links with their combinators spelled out: `and` where none is given, none for the first. -/
def Link.combinedAll (first : Bool) : List Link → List Link
  | [] => []
  | .mk c k :: rest =>
    .mk (if first then none else some (c.getD .and)) k.combined :: Link.combinedAll false rest

end

mutual

/-- Combinators have no part in whether there are conditions. -/
theorem Criterion.hasConditions_combined (k : Criterion) :
    k.combined.hasConditions = k.hasConditions := by
  cases k with
  | compare left condition => rfl
  | raw fragments => rfl
  | nested chain => exact Link.anyConditions_combinedAll true chain

theorem Link.anyConditions_combinedAll (first : Bool) (chain : List Link) :
    Link.anyConditions (Link.combinedAll first chain) = Link.anyConditions chain := by
  cases chain with
  | nil => rfl
  | cons link rest =>
    obtain ⟨c, k⟩ := link
    have hk := Criterion.hasConditions_combined k
    have hrest := Link.anyConditions_combinedAll false rest
    simp [Link.combinedAll, Link.anyConditions, Link.hasConditions, hk, hrest]

end

/-- The normal form of a chain: nested chains without conditions are left out, then the combinator
of the first link of each chain is forgotten and a missing one is read as `and`. -/
def Criteria.normal (cs : Criteria) : Criteria := Link.combinedAll true (Link.prunedAll cs)

/-! ## Criteria of words -/

/-- Whether the character ends a word: a space or a parenthesis. -/
def Text.endsWord (c : Char) : Bool := c == ' ' || c == '(' || c == ')'

/-- A word: some characters, none of which ends it. The keywords of combinators are not excluded,
as they are told from words by where they stand. -/
def Text.IsWord (w : String) : Prop := w.toList ≠ [] ∧ ∀ c ∈ w.toList, ¬ Text.endsWord c

mutual

/-- A criterion whose leaves are raw criteria of one fragment, a word. -/
def Criterion.IsWords : Criterion → Prop
  | .raw [.text w] => Text.IsWord w
  | .nested chain => Link.AllWords chain
  | _ => False

/-- A chain of such criteria. -/
def Link.AllWords : List Link → Prop
  | [] => True
  | .mk _ k :: rest => k.IsWords ∧ Link.AllWords rest

end

mutual

/-- A criterion of words in which every nested chain has conditions. -/
def Criterion.Readable : Criterion → Prop
  | .raw [.text w] => Text.IsWord w
  | .nested chain => Link.anyConditions chain = true ∧ Link.AllReadable chain
  | _ => False

/-- A chain of such criteria. -/
def Link.AllReadable : List Link → Prop
  | [] => True
  | .mk _ k :: rest => k.Readable ∧ Link.AllReadable rest

end

/-- A readable criterion is a word, or a nested chain that is itself readable. -/
theorem Criterion.Readable.cases {k : Criterion} (h : k.Readable) :
    (∃ w, k = .raw [.text w] ∧ Text.IsWord w) ∨
      ∃ chain, k = .nested chain ∧ Link.anyConditions chain = true ∧ Link.AllReadable chain := by
  unfold Criterion.Readable at h
  split at h
  · exact .inl ⟨_, rfl, h⟩
  · exact .inr ⟨_, rfl, h⟩
  · exact h.elim

theorem Criterion.Readable.hasConditions {k : Criterion} (h : k.Readable) :
    k.hasConditions = true := by
  obtain ⟨w, rfl, -⟩ | ⟨chain, rfl, hconditions, -⟩ := h.cases
  · rfl
  · exact hconditions

mutual

/-- A criterion of words that has conditions is readable once it is pruned. -/
theorem Criterion.IsWords.readable_pruned {k : Criterion} (h : k.IsWords)
    (hconditions : k.hasConditions = true) : k.pruned.Readable := by
  match k, h with
  | .raw [.text w], h => exact h
  | .nested chain, h =>
    have hpruned := Link.anyConditions_prunedAll chain
    exact ⟨hpruned.trans hconditions, Link.AllWords.readable_prunedAll h⟩

theorem Link.AllWords.readable_prunedAll {chain : List Link} (h : Link.AllWords chain) :
    Link.AllReadable (Link.prunedAll chain) := by
  match chain, h with
  | [], _ => trivial
  | .mk c k :: rest, ⟨hk, hrest⟩ =>
    have hprunedRest := Link.AllWords.readable_prunedAll hrest
    rw [Link.prunedAll]
    split
    · next hconditions => exact ⟨Criterion.IsWords.readable_pruned hk hconditions, hprunedRest⟩
    · exact hprunedRest

end

end SqlGraph
