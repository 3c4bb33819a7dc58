import SqlGraph.Query.Operator

/-!
# Tests

What an operator asks of a left side once nulls are taken care of: a check for null, a comparison, a
range, a list or a pattern (`Operator.test`). A concrete null leaves no comparison behind, and a
range with one bound is a strict comparison with it.

A test has one of three truth values, as any comparison with null is neither true nor false
(`Test.truth`). The complement of a test is a test of its own (`Test.complement`), and in every
meaning of operands it has the opposite truth value (`Test.truth_complement`). A negated operator is
the complement of the operator (`Operator.test_negate`).
-/

namespace SqlGraph

/-! ## Truth values -/

/-- A truth value; none when it is unknown. -/
abbrev Truth := Option Bool

namespace Truth

/-- Unknown stays unknown. -/
def not : Truth → Truth
  | some b => some (!b)
  | none => none

/-- False as soon as one side is. -/
def and : Truth → Truth → Truth
  | some false, _ => some false
  | _, some false => some false
  | some true, some true => some true
  | _, _ => none

/-- True as soon as one side is. -/
def or : Truth → Truth → Truth
  | some true, _ => some true
  | _, some true => some true
  | some false, some false => some false
  | _, _ => none

/-- Whether all are true. -/
def all (ts : List Truth) : Truth := ts.foldr and (some true)

/-- Whether one is true. -/
def any (ts : List Truth) : Truth := ts.foldr or (some false)

theorem not_not (t : Truth) : t.not.not = t := by
  cases t with
  | none => rfl
  | some b => cases b <;> rfl

theorem not_and (s t : Truth) : (s.and t).not = s.not.or t.not := by
  rcases s with _ | _ | _ <;> rcases t with _ | _ | _ <;> rfl

theorem not_or (s t : Truth) : (s.or t).not = s.not.and t.not := by
  rcases s with _ | _ | _ <;> rcases t with _ | _ | _ <;> rfl

theorem not_any (ts : List Truth) : (any ts).not = all (ts.map not) := by
  induction ts with
  | nil => rfl
  | cons t rest ih =>
    show (t.or (any rest)).not = t.not.and (all (rest.map not))
    rw [not_or, ih]

end Truth

/-! ## Comparisons -/

/-- A comparison. -/
inductive Comparison where
  | equal
  | unequal
  | greater
  | greaterOrEqual
  | lower
  | lowerOrEqual
deriving DecidableEq

namespace Comparison

/-- The comparison in SQL text. -/
def symbol : Comparison → String
  | .equal => "= "
  | .unequal => "<> "
  | .greater => "> "
  | .greaterOrEqual => ">= "
  | .lower => "< "
  | .lowerOrEqual => "<= "

/-- The comparison that holds when this one does not. -/
def complement : Comparison → Comparison
  | .equal => .unequal
  | .unequal => .equal
  | .greater => .lowerOrEqual
  | .greaterOrEqual => .lower
  | .lower => .greaterOrEqual
  | .lowerOrEqual => .greater

/-- Whether the comparison holds of values in that order. -/
def holds : Comparison → Ordering → Bool
  | .equal, o => o.isEq
  | .unequal, o => o.isNe
  | .greater, o => o.isGT
  | .greaterOrEqual, o => o.isGE
  | .lower, o => o.isLT
  | .lowerOrEqual, o => o.isLE

@[simp] theorem complement_complement (c : Comparison) : c.complement.complement = c := by
  cases c <;> rfl

theorem holds_complement (c : Comparison) (o : Ordering) : c.complement.holds o = !c.holds o := by
  cases c <;> cases o <;> rfl

end Comparison

/-! ## Tests and their complements -/

/-- What is asked of a left side. -/
inductive Test where
  | null (negated : Bool)
  | compare (c : Comparison) (value : Operand)
  | between (negated : Bool) (lower upper : Operand)
  | among (negated : Bool) (items : List Operand)
  /-- among the items of what a name is bound to -/
  | amongNamed (negated : Bool) (name : String)
  | like (negated : Bool) (pattern : Operand)

namespace Test

/-- The opposite test of the same operands. -/
def complement : Test → Test
  | .null negated => .null !negated
  | .compare c value => .compare c.complement value
  | .between negated lower upper => .between (!negated) lower upper
  | .among negated items => .among (!negated) items
  | .amongNamed negated name => .amongNamed (!negated) name
  | .like negated pattern => .like (!negated) pattern

/-- The operands of a test, in order. -/
def operands : Test → List Operand
  | .null _ => []
  | .compare _ value => [value]
  | .between _ lower upper => [lower, upper]
  | .among _ items => items
  | .amongNamed _ _ => []
  | .like _ pattern => [pattern]

/-- The operands that are compared or matched with the left side. -/
def compared : Test → List Operand
  | .null _ => []
  | .compare _ value => [value]
  | .between _ lower upper => [lower, upper]
  | .among _ _ => []
  | .amongNamed _ _ => []
  | .like _ pattern => [pattern]

/-- The test, or its complement. -/
def negatedWhen (negated : Bool) (t : Test) : Test := if negated then t.complement else t

@[simp] theorem complement_complement (t : Test) : t.complement.complement = t := by
  cases t <;> simp [complement]

@[simp] theorem compared_negatedWhen (negated : Bool) (t : Test) :
    (t.negatedWhen negated).compared = t.compared := by
  cases negated <;> cases t <;> rfl

@[simp] theorem operands_complement (t : Test) : t.complement.operands = t.operands := by
  cases t <;> rfl

end Test

/-! ## The truth of a test -/

/-- What operands mean among values that can be compared and matched. -/
structure Meaning (V : Type) where
  /-- the value of an operand that is not a concrete null; none when it turns out to be null -/
  value : Operand → Option V
  /-- the items of what a name is bound to -/
  items : String → List (Option V)
  /-- how two values compare -/
  order : V → V → Ordering
  /-- whether a value matches a pattern -/
  matching : V → V → Bool

namespace Meaning

variable {V : Type} (m : Meaning V)

/-- The value of an operand; a concrete null has none. -/
def valueOf (o : Operand) : Option V := if o.isNull then none else m.value o

/-- Compares two values; unknown when one of them is null. -/
def compare (c : Comparison) : Option V → Option V → Truth
  | some x, some y => some (c.holds (m.order x y))
  | _, _ => none

/-- Matches a value with a pattern; unknown when one of them is null. -/
def like (negated : Bool) : Option V → Option V → Truth
  | some x, some pattern => some (m.matching x pattern != negated)
  | _, _ => none

/-- Whether a value is one of some items, or differs from all of them. -/
def among (negated : Bool) (x : Option V) (items : List (Option V)) : Truth :=
  if negated then Truth.all (items.map (m.compare .unequal x))
  else Truth.any (items.map (m.compare .equal x))

theorem compare_complement (c : Comparison) (x y : Option V) :
    m.compare c.complement x y = (m.compare c x y).not := by
  cases x with
  | none => rfl
  | some x =>
    cases y with
    | none => rfl
    | some y => exact congrArg some (c.holds_complement (m.order x y))

theorem like_complement (negated : Bool) (x pattern : Option V) :
    m.like (!negated) x pattern = (m.like negated x pattern).not := by
  cases x with
  | none => rfl
  | some x =>
    cases pattern with
    | none => rfl
    | some pattern => simp [like, Truth.not]

/-- A value is not among items when it differs from all of them. -/
theorem among_complement (negated : Bool) (x : Option V) (items : List (Option V)) :
    m.among (!negated) x items = (m.among negated x items).not := by
  -- one direction is enough, as negating twice gives the truth value back
  have hnot : m.among true x items = (m.among false x items).not := by
    have hunequal : m.compare .unequal x = Truth.not ∘ m.compare .equal x :=
      funext fun y => m.compare_complement .equal x y
    show Truth.all _ = (Truth.any _).not
    rw [Truth.not_any, List.map_map, hunequal]
  cases negated with
  | false => exact hnot
  | true => exact (Truth.not_not _).symm.trans (congrArg Truth.not hnot.symm)

end Meaning

/-- The truth of a test of a left side with that value. Each negated form has a meaning of its own:
outside a range is below or above it, and not among items is different from each of them. -/
def Test.truth {V : Type} (m : Meaning V) (x : Option V) : Test → Truth
  | .null negated => some (x.isNone != negated)
  | .compare c value => m.compare c x (m.valueOf value)
  | .between false lower upper =>
    (m.compare .greaterOrEqual x (m.valueOf lower)).and
      (m.compare .lowerOrEqual x (m.valueOf upper))
  | .between true lower upper =>
    (m.compare .lower x (m.valueOf lower)).or (m.compare .greater x (m.valueOf upper))
  | .among negated items => m.among negated x (items.map m.valueOf)
  | .amongNamed negated name => m.among negated x (m.items name)
  | .like negated pattern => m.like negated x (m.valueOf pattern)

/-- The complement of a test is true when the test is false, and unknown when the test is. -/
theorem Test.truth_complement {V : Type} (m : Meaning V) (x : Option V) (t : Test) :
    t.complement.truth m x = (t.truth m x).not := by
  cases t with
  | null negated => simp [complement, truth, Truth.not]
  | compare c value => exact m.compare_complement c x _
  | between negated lower upper =>
    -- outside a range is not inside it, as one of the two comparisons fails
    have hlower := m.compare_complement .greaterOrEqual x (m.valueOf lower)
    have hupper := m.compare_complement .lowerOrEqual x (m.valueOf upper)
    have hnot : (Test.between true lower upper).truth m x =
        ((Test.between false lower upper).truth m x).not := by
      rw [truth, truth, Truth.not_and, ← hlower, ← hupper]
      rfl
    cases negated with
    | false => exact hnot
    | true => exact (Truth.not_not _).symm.trans (congrArg Truth.not hnot.symm)
  | among negated items => exact m.among_complement negated x _
  | amongNamed negated name => exact m.among_complement negated x _
  | like negated pattern => exact m.like_complement negated x _

/-! ## The tests of operators -/

/-- A pattern with wildcards on the flagged sides; only a concrete string gets them. -/
def Operand.withWildcards (leading trailing : Bool) : Operand → Operand
  | .value (.string pattern) =>
    .value (.string ((if leading then "%" else "") ++ pattern ++ (if trailing then "%" else "")))
  | other => other

/-- A test of an operand, or a check for null when the operand is a concrete null. -/
def Test.unlessNull (value : Operand) (t : Test) : Test :=
  if value.isNull then .null false else t

/-- What a predicate asks. -/
def Predicate.test : Predicate → Test
  | .isNull => .null false
  | .equals value => .unlessNull value (.compare .equal value)
  | .greater value orEquals =>
    .unlessNull value (.compare (if orEquals then .greaterOrEqual else .greater) value)
  | .lower value orEquals =>
    .unlessNull value (.compare (if orEquals then .lowerOrEqual else .lower) value)
  | .between low high =>
    match low.isNull, high.isNull with
    | true, true => .null false
    | false, true => .compare .greater low
    | true, false => .compare .lower high
    | false, false => .between false low high
  | .isIn (.collection none) => .null false
  | .isIn (.collection (some items)) => .among false items
  | .isIn (.listed items) => .among false items
  | .isIn (.named name) => .amongNamed false name
  | .like pattern leading trailing =>
    .unlessNull pattern (.like false (pattern.withWildcards leading trailing))

/-- What an operator asks. -/
def Operator.test (op : Operator) : Test := op.predicate.test.negatedWhen op.negated

/-- A negated operator asks the opposite of what the operator asks. -/
theorem Operator.test_negate (op : Operator) : op.negate.test = op.test.complement := by
  obtain ⟨p, negated⟩ := op
  cases negated with
  | false => rfl
  | true => exact (Test.complement_complement _).symm

/-! ## Nulls -/

/-- The operands of a predicate, in order. -/
def Predicate.operands : Predicate → List Operand
  | .isNull => []
  | .equals value => [value]
  | .greater value _ => [value]
  | .lower value _ => [value]
  | .between low high => [low, high]
  | .isIn (.collection none) => []
  | .isIn (.collection (some items)) => items
  | .isIn (.listed items) => items
  | .isIn (.named _) => []
  | .like pattern _ _ => [pattern]

/-- The operands of an operator, in order. -/
def Operator.operands (op : Operator) : List Operand := op.predicate.operands

@[simp] theorem Operand.isNull_withWildcards (leading trailing : Bool) (pattern : Operand) :
    (pattern.withWildcards leading trailing).isNull = pattern.isNull := by
  cases pattern with
  | value v => cases v <;> rfl
  | named name => rfl
  | expression e => rfl

theorem Test.compared_unlessNull {value : Operand} {t : Test}
    (ht : ∀ o ∈ t.compared, o.isNull = value.isNull) :
    ∀ o ∈ (unlessNull value t).compared, o.isNull = false := by
  intro o ho
  unfold unlessNull at ho
  cases hnull : value.isNull with
  | true => simp [hnull, compared] at ho
  | false =>
    rw [hnull] at ho
    rw [ht o ho, hnull]

/-- Nothing is compared with a concrete null. -/
theorem Predicate.compared_test (p : Predicate) : ∀ o ∈ p.test.compared, o.isNull = false := by
  cases p with
  | isNull => simp [test, Test.compared]
  | equals value => exact Test.compared_unlessNull (by simp [Test.compared])
  | greater value orEquals => exact Test.compared_unlessNull (by simp [Test.compared])
  | lower value orEquals => exact Test.compared_unlessNull (by simp [Test.compared])
  | between low high =>
    simp only [test]
    cases hlow : low.isNull <;> cases hhigh : high.isNull <;> simp [Test.compared, hlow, hhigh]
  | isIn candidates =>
    cases candidates with
    | collection items => cases items <;> simp [test, Test.compared]
    | listed items => simp [test, Test.compared]
    | named name => simp [test, Test.compared]
  | like pattern leading trailing => exact Test.compared_unlessNull (by simp [Test.compared])

theorem Operator.compared_test (op : Operator) : ∀ o ∈ op.test.compared, o.isNull = false := by
  unfold test
  rw [Test.compared_negatedWhen]
  exact op.predicate.compared_test

/-- What becomes of a concrete null: it makes a check for null of the predicate, stays an item of a
list, or leaves the other bound of a range to a strict comparison. -/
theorem Predicate.test_of_isNull (p : Predicate) {o : Operand} (ho : o ∈ p.operands)
    (hnull : o.isNull = true) :
    p.test = .null false ∨ (∃ items, p.test = .among false items ∧ o ∈ items) ∨
      ∃ other, other.isNull = false ∧
        (p = .between other o ∧ p.test = .compare .greater other ∨
          p = .between o other ∧ p.test = .compare .lower other) := by
  have hcheck : ∀ value t, o ∈ [value] → Test.unlessNull value t = .null false := by
    intro value t hvalue
    rw [Test.unlessNull, ← List.mem_singleton.mp hvalue, if_pos hnull]
  cases p with
  | isNull => exact .inl rfl
  | equals value => exact .inl (hcheck value _ ho)
  | greater value orEquals => exact .inl (hcheck value _ ho)
  | lower value orEquals => exact .inl (hcheck value _ ho)
  | between low high =>
    simp only [test]
    cases hlow : low.isNull <;> cases hhigh : high.isNull
    · -- no bound is a null
      obtain rfl | ho := List.mem_cons.mp ho
      · simp [hlow] at hnull
      · simp [List.mem_singleton.mp ho, hhigh] at hnull
    · obtain rfl | ho := List.mem_cons.mp ho
      · simp [hlow] at hnull
      · obtain rfl := List.mem_singleton.mp ho
        exact .inr (.inr ⟨low, hlow, .inl ⟨rfl, rfl⟩⟩)
    · obtain rfl | ho := List.mem_cons.mp ho
      · exact .inr (.inr ⟨high, hhigh, .inr ⟨rfl, rfl⟩⟩)
      · simp [List.mem_singleton.mp ho, hhigh] at hnull
    · exact .inl rfl
  | isIn candidates =>
    cases candidates with
    | collection items =>
      cases items with
      | none => exact .inl rfl
      | some items => exact .inr (.inl ⟨items, rfl, ho⟩)
    | listed items => exact .inr (.inl ⟨items, rfl, ho⟩)
    | named name => simp [operands] at ho
  | like pattern leading trailing => exact .inl (hcheck pattern _ ho)

end SqlGraph
