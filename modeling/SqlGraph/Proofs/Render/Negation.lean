import SqlGraph.Proofs.Query.Tests
import SqlGraph.Proofs.Render.Marks

/-!
# Operators are written as their tests

A test is written as a keyword and its operands (`Test.keyword`, `Test.body`), and the test of an
operator is what the operator is written as (`Render.operator_eq_test`). As the operands of a test
are those of its complement, only the keyword tells an operator and its negation apart
(`Render.operator_negate`).
-/

namespace SqlGraph

namespace Test

/-- The keyword of a test. -/
def keyword : Test → String
  | .null negated => if negated then "is not null" else "is null"
  | .compare c _ => c.symbol
  | .between negated _ _ => if negated then "not between " else "between "
  | .among negated _ => if negated then "not in (" else "in ("
  | .amongNamed negated _ => if negated then "not in (" else "in ("
  | .like negated _ => if negated then "not like " else "like "

/-- What is written behind the keyword. -/
def body (ctx : Render.Context) (scopes : Scopes) : Test → List Piece
  | .null _ => []
  | .compare _ value => Render.operand ctx scopes value
  | .between _ lower upper =>
    Render.operand ctx scopes lower ++ .text " and " :: Render.operand ctx scopes upper
  | .among _ items =>
    Render.separated ", " (items.map (Render.listItem ctx scopes)) ++ [.text ")"]
  | .amongNamed _ name => [.named name true, .text ")"]
  | .like _ pattern => Render.operand ctx scopes pattern

/-- The pieces of a test. -/
def pieces (ctx : Render.Context) (scopes : Scopes) (t : Test) : List Piece :=
  .text t.keyword :: t.body ctx scopes

/-- The keywords of tests and of their complements. -/
def opposites : List (String × String) :=
  [("= ", "<> "), ("> ", "<= "), (">= ", "< "), ("between ", "not between "),
    ("in (", "not in ("), ("like ", "not like "), ("is null", "is not null")]

@[simp] theorem body_complement (ctx : Render.Context) (scopes : Scopes) (t : Test) :
    t.complement.body ctx scopes = t.body ctx scopes := by
  cases t <;> rfl

theorem keyword_complement (t : Test) :
    (t.keyword, t.complement.keyword) ∈ opposites ∨
      (t.complement.keyword, t.keyword) ∈ opposites := by
  unfold opposites
  cases t with
  | compare c value =>
    cases c <;> simp [keyword, complement, Comparison.symbol, Comparison.complement]
  | null negated => cases negated <;> simp [keyword, complement]
  | between negated lower upper => cases negated <;> simp [keyword, complement]
  | among negated items => cases negated <;> simp [keyword, complement]
  | amongNamed negated name => cases negated <;> simp [keyword, complement]
  | like negated pattern => cases negated <;> simp [keyword, complement]

end Test

namespace Render

variable (ctx : Context) (scopes : Scopes)

theorem likePattern_eq_operand (leading trailing : Bool) (pattern : Operand) :
    likePattern ctx scopes leading trailing pattern =
      operand ctx scopes (pattern.withWildcards leading trailing) := by
  cases pattern with
  | value v => cases v <;> rfl
  | named n => rfl
  | expression e => rfl

/-- A test that may be negated, written in place of a comparison with an operand. -/
theorem pieces_unlessNull (negated : Bool) (value : Operand) (t : Test) :
    ((Test.unlessNull value t).negatedWhen negated).pieces ctx scopes =
      if value.isNull then nullCheck negated else (t.negatedWhen negated).pieces ctx scopes := by
  unfold Test.unlessNull
  cases value.isNull <;> cases negated <;> rfl

/-- An operator is written as its test. -/
theorem operator_eq_test (op : Operator) :
    operator ctx scopes op = op.test.pieces ctx scopes := by
  obtain ⟨p, negated⟩ := op
  unfold Operator.test operator
  cases p with
  | isNull => cases negated <;> rfl
  | equals value =>
    rw [Predicate.test, pieces_unlessNull]
    cases negated <;> rfl
  | greater value orEquals =>
    rw [Predicate.test, pieces_unlessNull]
    cases negated <;> cases orEquals <;> rfl
  | lower value orEquals =>
    rw [Predicate.test, pieces_unlessNull]
    cases negated <;> cases orEquals <;> rfl
  | between low high =>
    simp only [Predicate.test, predicate]
    cases low.isNull <;> cases high.isNull <;> cases negated <;> rfl
  | isIn candidates =>
    cases candidates with
    | collection items => cases items <;> cases negated <;> rfl
    | listed items => cases negated <;> rfl
    | named name => cases negated <;> rfl
  | like pattern leading trailing =>
    rw [Predicate.test, pieces_unlessNull]
    simp only [predicate, likePattern_eq_operand]
    cases negated <;> rfl

/-- An operator and its negation are written with the same operands, so they leave the same places
with the same values, behind opposite keywords; whatever the operands mean, the test that is written
for the negation is the complement of the other in three-valued logic. Negating twice changes
nothing. -/
theorem operator_negate (op : Operator) :
    (operator ctx scopes op = .text op.test.keyword :: op.test.body ctx scopes ∧
      operator ctx scopes op.negate = .text op.negate.test.keyword :: op.test.body ctx scopes) ∧
    ((op.test.keyword, op.negate.test.keyword) ∈ Test.opposites ∨
      (op.negate.test.keyword, op.test.keyword) ∈ Test.opposites) ∧
    op.negate.test.operands = op.test.operands ∧
    Piece.marks (operator ctx scopes op.negate) = Piece.marks (operator ctx scopes op) ∧
    (∀ (V : Type) (m : Meaning V) (x : Option V),
      op.negate.test.truth m x = (op.test.truth m x).not) ∧
    operator ctx scopes op.negate.negate = operator ctx scopes op := by
  have hop := operator_eq_test ctx scopes op
  have hnegate : operator ctx scopes op.negate =
      .text op.negate.test.keyword :: op.test.body ctx scopes := by
    rw [operator_eq_test, Test.pieces, op.test_negate, Test.body_complement]
  refine ⟨⟨hop, hnegate⟩, ?_, ?_, ?_, fun V m x => ?_, ?_⟩
  · rw [op.test_negate]
    exact op.test.keyword_complement
  · rw [op.test_negate, Test.operands_complement]
  · rw [hnegate, hop]
    rfl
  · rw [op.test_negate]
    exact Test.truth_complement m x op.test
  · rw [operator_eq_test, operator_eq_test, op.negate.test_negate, op.test_negate,
      Test.complement_complement]

/-- A range without a start is a strict comparison with its end, which is turned around. -/
example : operator (.ofCatalog ⟨[]⟩ id) []
    (Operator.between (.value .null) (.value (.ofNat 5))).negate =
      [.text ">= ", .value (.ofNat 5)] := rfl

end Render

end SqlGraph
