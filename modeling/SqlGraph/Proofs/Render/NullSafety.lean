import SqlGraph.Proofs.Render.Negation
import SqlGraph.Proofs.Template.Bindings

/-!
# Null safety

Criteria carry a null where an expression or a raw criterion gives one as a value. When they carry
none (`Criteria.nullFree`), then whatever nulls their operators are given, no null is bound and
nothing is compared with one. Criteria are written as if their operators were left open, with the
tests of the operators in the open places (`Render.Interspersed`), and of a concrete null operand a
test leaves a check for null, the word in a list, or a strict comparison with the other bound of a
range (`Render.criteria_nullSafe`).
-/

namespace SqlGraph

/-! ## Criteria that carry no null -/

/-- Whether the placeholder is a null value. -/
def Placeholder.isNull : Placeholder → Bool
  | .value v => v.isNull
  | .named _ => false

/-- Whether no value in the expression is null. -/
def Expression.nullFree (e : Expression) : Bool := e.placeholders.all (!·.isNull)

/-- Whether the operand is anything but an expression with a null; a concrete null is allowed. -/
def Operand.nullFree : Operand → Bool
  | .value _ => true
  | .named _ => true
  | .expression e => e.nullFree

/-- Whether no operand is an expression with a null. -/
def Operator.nullFree (op : Operator) : Bool := op.operands.all Operand.nullFree

/-- Whether what a left side is checked against carries no null. -/
def Condition.nullFree : Condition → Bool
  | .text _ => true
  | .operator op => op.nullFree

mutual

/-- Whether the criterion carries no null. -/
def Criterion.nullFree : Criterion → Bool
  | .compare left c => left.nullFree && c.nullFree
  | .raw fragments => Fragment.allNullFree fragments
  | .nested chain => Link.allNullFree chain

/-- Whether the fragment carries no null. -/
def Fragment.nullFree : Fragment → Bool
  | .text _ => true
  | .expression e => e.nullFree
  | .operator op => op.nullFree
  | .value v => !v.isNull
  | .criteria chain => Link.allNullFree chain

/-- Whether no fragment carries a null. -/
def Fragment.allNullFree : List Fragment → Bool
  | [] => true
  | f :: rest => f.nullFree && Fragment.allNullFree rest

/-- Whether no link of the chain carries a null. -/
def Link.allNullFree : List Link → Bool
  | [] => true
  | .mk _ k :: rest => k.nullFree && Link.allNullFree rest

end

/-- Whether nothing but the operands of operators is null. -/
def Criteria.nullFree (cs : Criteria) : Bool := Link.allNullFree cs

/-! ## The operators of criteria -/

/-- The operator that a left side is checked against. -/
def Condition.operators : Condition → List Operator
  | .text _ => []
  | .operator op => [op]

mutual

/-- The operators of a criterion, in order. -/
def Criterion.operators : Criterion → List Operator
  | .compare _ c => c.operators
  | .raw fragments => Fragment.allOperators fragments
  | .nested chain => Link.allOperators chain

/-- The operators of a fragment. -/
def Fragment.operators : Fragment → List Operator
  | .text _ => []
  | .expression _ => []
  | .operator op => [op]
  | .value _ => []
  | .criteria chain => Link.allOperators chain

/-- The operators of fragments, in order. -/
def Fragment.allOperators : List Fragment → List Operator
  | [] => []
  | f :: rest => f.operators ++ Fragment.allOperators rest

/-- The operators of a chain, link by link. -/
def Link.allOperators : List Link → List Operator
  | [] => []
  | .mk _ k :: rest => k.operators ++ Link.allOperators rest

end

/-- The operators of criteria, those of nested chains and of raw criteria included. -/
def Criteria.operators (cs : Criteria) : List Operator := Link.allOperators cs

/-- An operator left open: an empty text stands in its place. -/
def Condition.opened : Condition → Condition
  | .text s => .text s
  | .operator _ => .text ""

mutual

/-- The criterion with its operators left open. -/
def Criterion.opened : Criterion → Criterion
  | .compare left c => .compare left c.opened
  | .raw fragments => .raw (Fragment.allOpened fragments)
  | .nested chain => .nested (Link.allOpened chain)

/-- The fragment with its operators left open. -/
def Fragment.opened : Fragment → Fragment
  | .text s => .text s
  | .expression e => .expression e
  | .operator _ => .text ""
  | .value v => .value v
  | .criteria chain => .criteria (Link.allOpened chain)

/-- Fragments with their operators left open. -/
def Fragment.allOpened : List Fragment → List Fragment
  | [] => []
  | f :: rest => f.opened :: Fragment.allOpened rest

/-- A chain with its operators left open. -/
def Link.allOpened : List Link → List Link
  | [] => []
  | .mk c k :: rest => .mk c k.opened :: Link.allOpened rest

end

/-- Criteria with their operators left open. -/
def Criteria.opened (cs : Criteria) : Criteria := Link.allOpened cs

mutual

/-- Open places do not matter for whether there are conditions. -/
theorem Criterion.hasConditions_opened (k : Criterion) :
    k.opened.hasConditions = k.hasConditions := by
  cases k with
  | compare left c => rfl
  | raw fragments => rfl
  | nested chain => exact Link.anyConditions_allOpened chain

theorem Link.anyConditions_allOpened (chain : List Link) :
    Link.anyConditions (Link.allOpened chain) = Link.anyConditions chain := by
  match chain with
  | [] => rfl
  | .mk c k :: rest =>
    rw [Link.allOpened, Link.anyConditions, Link.anyConditions, Link.hasConditions,
      Link.hasConditions, Criterion.hasConditions_opened k, Link.anyConditions_allOpened rest]

end

/-! ## What is bound -/

theorem Expression.nullFree_iff (e : Expression) :
    e.nullFree = true ↔ ∀ x ∈ e.placeholders, x.isNull = false := by
  simp [nullFree]

/-- A concrete null has no placeholder, so only an expression could have a null. -/
theorem Operand.placeholders_nullFree {o : Operand} (h : o.nullFree = true) :
    ∀ x ∈ o.placeholders, x.isNull = false := by
  cases o with
  | value v =>
    intro x hx
    unfold placeholders at hx
    cases hnull : v.isNull with
    | true => simp [hnull] at hx
    | false =>
      simp only [hnull, Bool.false_eq_true, if_false, List.mem_singleton] at hx
      exact hx ▸ hnull
  | named name => simp [placeholders, Placeholder.isNull]
  | expression e => exact e.nullFree_iff.mp h

theorem Operand.patternPlaceholders_nullFree {o : Operand} (leading trailing : Bool)
    (h : o.nullFree = true) : ∀ x ∈ o.patternPlaceholders leading trailing, x.isNull = false := by
  unfold patternPlaceholders
  split
  · simp [Placeholder.isNull, Json.isNull]
  · exact placeholders_nullFree h

theorem Operator.placeholders_nullFree {op : Operator} (h : op.nullFree = true) :
    ∀ x ∈ op.placeholders, x.isNull = false := by
  obtain ⟨p, negated⟩ := op
  have hoperand : ∀ o ∈ p.operands, ∀ x ∈ o.placeholders, x.isNull = false :=
    fun o ho => Operand.placeholders_nullFree (List.all_eq_true.mp h o ho)
  show ∀ x ∈ p.placeholders, x.isNull = false
  cases p with
  | isNull => simp [Predicate.placeholders]
  | equals value => exact hoperand value List.mem_cons_self
  | greater value orEquals => exact hoperand value List.mem_cons_self
  | lower value orEquals => exact hoperand value List.mem_cons_self
  | between low high =>
    intro x hx
    obtain hx | hx := List.mem_append.mp hx
    · exact hoperand low (by simp [Predicate.operands]) x hx
    · exact hoperand high (by simp [Predicate.operands]) x hx
  | isIn candidates =>
    have hitems : ∀ items : List Operand,
        (∀ o ∈ items, o ∈ (Predicate.isIn candidates).operands) →
        ∀ x ∈ items.flatMap Operand.placeholders, x.isNull = false := by
      intro items hsub x hx
      obtain ⟨o, ho, hx⟩ := List.mem_flatMap.mp hx
      exact hoperand o (hsub o ho) x hx
    cases candidates with
    | collection items =>
      cases items with
      | none => simp [Predicate.placeholders]
      | some items => exact hitems items fun o ho => ho
    | listed items => exact hitems items fun o ho => ho
    | named name => simp [Predicate.placeholders, Placeholder.isNull]
  | like pattern leading trailing =>
    exact Operand.patternPlaceholders_nullFree leading trailing
      (List.all_eq_true.mp h pattern List.mem_cons_self)

theorem Condition.placeholders_nullFree {c : Condition} (h : c.nullFree = true) :
    ∀ x ∈ c.placeholders, x.isNull = false := by
  cases c with
  | text text => simp [placeholders]
  | operator op => exact Operator.placeholders_nullFree h

/-- What holds of the members of two lists holds of those of both in a row. -/
private theorem forall_mem_append {xs ys : List Placeholder}
    (hxs : ∀ x ∈ xs, x.isNull = false) (hys : ∀ x ∈ ys, x.isNull = false) :
    ∀ x ∈ xs ++ ys, x.isNull = false := by
  intro x hx
  obtain hx | hx := List.mem_append.mp hx
  · exact hxs x hx
  · exact hys x hx

mutual

theorem Criterion.placeholders_nullFree (k : Criterion) (h : k.nullFree = true) :
    ∀ x ∈ k.placeholders, x.isNull = false := by
  cases k with
  | compare left c =>
    obtain ⟨hleft, hc⟩ := (Bool.and_eq_true _ _).mp h
    exact forall_mem_append (left.nullFree_iff.mp hleft) (Condition.placeholders_nullFree hc)
  | raw fragments => exact Fragment.placeholdersAll_nullFree fragments h
  | nested chain => exact Link.placeholdersAll_nullFree chain h

theorem Fragment.placeholders_nullFree (f : Fragment) (h : f.nullFree = true) :
    ∀ x ∈ f.placeholders, x.isNull = false := by
  cases f with
  | text text => simp [Fragment.placeholders]
  | expression e => exact e.nullFree_iff.mp h
  | operator op => exact Operator.placeholders_nullFree h
  | value v => simpa [Fragment.placeholders, Placeholder.isNull, Fragment.nullFree] using h
  | criteria chain => exact Link.placeholdersAll_nullFree chain h

theorem Fragment.placeholdersAll_nullFree (fs : List Fragment)
    (h : Fragment.allNullFree fs = true) :
    ∀ x ∈ Fragment.placeholdersAll fs, x.isNull = false := by
  cases fs with
  | nil => simp [Fragment.placeholdersAll]
  | cons f rest =>
    obtain ⟨hf, hrest⟩ := (Bool.and_eq_true _ _).mp h
    exact forall_mem_append (Fragment.placeholders_nullFree f hf)
      (Fragment.placeholdersAll_nullFree rest hrest)

theorem Link.placeholdersAll_nullFree (chain : List Link) (h : Link.allNullFree chain = true) :
    ∀ x ∈ Link.placeholdersAll chain, x.isNull = false := by
  match chain with
  | [] => simp [Link.placeholdersAll]
  | .mk _ k :: rest =>
    obtain ⟨hk, hrest⟩ := (Bool.and_eq_true _ _).mp h
    exact forall_mem_append (Criterion.placeholders_nullFree k hk)
      (Link.placeholdersAll_nullFree rest hrest)

end

/-- A value that a template of pieces binds is the value of one of the pieces. -/
theorem Template.value_mem_placeholders {ps : List Piece} {p : Parameter} {b : Binding} {v : Json}
    (hb : (p, b) ∈ (ofPieces ps).bindings) (hv : b.value = some v) :
    .value v ∈ Piece.placeholders ps := by
  have hrecorded := recorded_ofPieces ps
  have hlookup : (ofPieces ps).binding? p = some b :=
    (mem_iff_lookup p hrecorded.nodup_parameters b).mp hb
  have hp : p ∈ (ofPieces ps).occurrences :=
    hrecorded.mem_parameters.mp (List.mem_map.mpr ⟨_, hb, rfl⟩)
  cases p with
  | named name =>
    rw [hrecorded.named name hp] at hlookup
    simp [← Option.some.inj hlookup] at hv
  | index n =>
    have hplace : (ofPieces ps).placeholder? (.index n) = some (.value v) := by
      simp [placeholder?, hlookup, hv]
    have hmem : some (.value v) ∈ (ofPieces ps).placeholders :=
      List.mem_map.mpr ⟨_, hp, hplace⟩
    rw [placeholders_ofPieces] at hmem
    simpa using hmem

namespace Render

variable (ctx : Context) (scopes : Scopes)

/-! ## What is written -/

/-- The pieces are others with the tests, in order, in the open places among them. -/
inductive Interspersed : List Piece → List Test → List Piece → Prop
  | nil : Interspersed [] [] []
  | piece {ps ts others} (p : Piece) :
    Interspersed ps ts others → Interspersed (p :: ps) ts (p :: others)
  | test {ps ts others} (t : Test) :
    Interspersed ps ts others →
      Interspersed (t.pieces ctx scopes ++ ps) (t :: ts) (.text "" :: others)

namespace Interspersed

variable {ctx scopes} {ps ps' others others' : List Piece} {ts ts' : List Test}

theorem append (h : Interspersed ctx scopes ps ts others)
    (h' : Interspersed ctx scopes ps' ts' others') :
    Interspersed ctx scopes (ps ++ ps') (ts ++ ts') (others ++ others') := by
  induction h with
  | nil => exact h'
  | piece p _ ih => exact .piece p ih
  | test t _ ih =>
    rw [List.append_assoc]
    exact .test t ih

/-- Pieces without open places. -/
theorem of_pieces (ps : List Piece) : Interspersed ctx scopes ps [] ps := by
  induction ps with
  | nil => exact .nil
  | cons p rest ih => exact .piece p ih

theorem behind (before : List Piece) (h : Interspersed ctx scopes ps ts others) :
    Interspersed ctx scopes (before ++ ps) ts (before ++ others) :=
  (of_pieces before).append h

/-- Pieces in parentheses. -/
theorem surrounded (h : Interspersed ctx scopes ps ts others) :
    Interspersed ctx scopes (.text "(" :: ps ++ [.text ")"]) ts
      (.text "(" :: others ++ [.text ")"]) := by
  simpa using (h.append (of_pieces [.text ")"])).piece (.text "(")

/-- What is written for a test is among the pieces. -/
theorem subset (h : Interspersed ctx scopes ps ts others) {t : Test} (ht : t ∈ ts) :
    t.pieces ctx scopes ⊆ ps := by
  induction h with
  | nil => simp at ht
  | piece p _ ih => exact List.subset_cons_of_subset p (ih ht)
  | test u _ ih =>
    obtain rfl | ht := List.mem_cons.mp ht
    · exact List.subset_append_left _ _
    · exact List.subset_append_of_subset_right _ (ih ht)

end Interspersed

theorem interspersed_operator (op : Operator) :
    Interspersed ctx scopes (operator ctx scopes op) [op.test] [.text ""] := by
  rw [operator_eq_test]
  simpa using Interspersed.nil.test op.test

theorem interspersed_condition (c : Condition) :
    Interspersed ctx scopes (condition ctx scopes c) (c.operators.map Operator.test)
      (condition ctx scopes c.opened) := by
  cases c with
  | text text => exact .of_pieces _
  | operator op => exact interspersed_operator ctx scopes op

mutual

theorem operators_of_not_hasConditions (k : Criterion) (h : k.hasConditions = false) :
    k.operators = [] := by
  cases k with
  | compare left c => simp [Criterion.hasConditions] at h
  | raw fragments => simp [Criterion.hasConditions] at h
  | nested chain => exact allOperators_of_not_anyConditions chain h

/-- A chain without conditions has no operators. -/
theorem allOperators_of_not_anyConditions (chain : List Link)
    (h : Link.anyConditions chain = false) : Link.allOperators chain = [] := by
  match chain with
  | [] => rfl
  | .mk c k :: rest =>
    obtain ⟨hk, hrest⟩ : k.hasConditions = false ∧ Link.anyConditions rest = false := by
      simpa [Link.anyConditions, Link.hasConditions] using h
    rw [Link.allOperators, operators_of_not_hasConditions k hk,
      allOperators_of_not_anyConditions rest hrest, List.append_nil]

end

mutual

theorem interspersed_criterion (k : Criterion) :
    Interspersed ctx scopes (criterion ctx scopes k) (k.operators.map Operator.test)
      (criterion ctx scopes k.opened) := by
  cases k with
  | compare left c =>
    exact ((interspersed_condition ctx scopes c).piece (.text " ")).behind _
  | raw fragments => exact interspersed_fragmentList fragments
  | nested chain => exact (interspersed_links true chain).surrounded

theorem interspersed_fragment (f : Fragment) :
    Interspersed ctx scopes (fragment ctx scopes f) (f.operators.map Operator.test)
      (fragment ctx scopes f.opened) := by
  cases f with
  | text text => exact .of_pieces _
  | expression e => exact .of_pieces _
  | operator op => exact interspersed_operator ctx scopes op
  | value v => exact .of_pieces _
  | criteria chain => exact (interspersed_links true chain).surrounded

theorem interspersed_fragmentList (fs : List Fragment) :
    Interspersed ctx scopes (fragmentList ctx scopes fs)
      ((Fragment.allOperators fs).map Operator.test)
      (fragmentList ctx scopes (Fragment.allOpened fs)) := by
  cases fs with
  | nil => exact .nil
  | cons f rest =>
    rw [fragmentList, Fragment.allOperators, List.map_append]
    exact (interspersed_fragment f).append (interspersed_fragmentList rest)

theorem interspersed_links (first : Bool) (chain : List Link) :
    Interspersed ctx scopes (links ctx scopes first chain)
      ((Link.allOperators chain).map Operator.test)
      (links ctx scopes first (Link.allOpened chain)) := by
  match chain with
  | [] => exact .nil
  | .mk c k :: rest =>
    rw [links, Link.allOperators, List.map_append, Link.allOpened, links,
      Criterion.hasConditions_opened]
    cases hk : k.hasConditions with
    | true =>
      rw [if_pos rfl, if_pos rfl]
      exact ((interspersed_criterion k).behind _).append (interspersed_links false rest)
    | false =>
      -- a link that is skipped has no operators
      rw [if_neg Bool.false_ne_true, if_neg Bool.false_ne_true,
        operators_of_not_hasConditions k hk]
      exact interspersed_links first rest

end

/-- An operand that is compared is written in the test. -/
theorem operand_subset_pieces (t : Test) {o : Operand} (ho : o ∈ t.compared) :
    operand ctx scopes o ⊆ t.pieces ctx scopes := by
  refine List.subset_cons_of_subset _ ?_
  cases t with
  | compare c value => exact List.mem_singleton.mp ho ▸ List.Subset.refl _
  | between negated lower upper =>
    obtain rfl | ho := List.mem_cons.mp ho
    · exact List.subset_append_left _ _
    · obtain rfl := List.mem_singleton.mp ho
      exact List.subset_append_of_subset_right _ (List.subset_cons_self _ _)
  | like negated pattern => exact List.mem_singleton.mp ho ▸ List.Subset.refl _
  | null negated => simp [Test.compared] at ho
  | among negated items => simp [Test.compared] at ho
  | amongNamed negated name => simp [Test.compared] at ho

/-! ## Null safety -/

/-- The test that a concrete null operand leaves of its operator, negated or not. -/
theorem test_of_isNull (op : Operator) {o : Operand} (ho : o ∈ op.operands)
    (hnull : o.isNull = true) :
    op.test = .null op.negated ∨ (∃ items, op.test = .among op.negated items ∧ o ∈ items) ∨
      ∃ other, other.isNull = false ∧
        (op.predicate = .between other o ∧
            op.test = .compare (if op.negated then .lowerOrEqual else .greater) other ∨
          op.predicate = .between o other ∧
            op.test = .compare (if op.negated then .greaterOrEqual else .lower) other) := by
  obtain ⟨p, negated⟩ := op
  have htest : ∀ {t u : Test}, p.test = t → t.negatedWhen negated = u →
      Operator.test ⟨p, negated⟩ = u :=
    fun ht hu => (congrArg (Test.negatedWhen negated) ht).trans hu
  obtain h | ⟨items, h, hitem⟩ | ⟨other, hother, hbound⟩ := p.test_of_isNull ho hnull
  · exact .inl (htest h (by cases negated <;> rfl))
  · exact .inr (.inl ⟨items, htest h (by cases negated <;> rfl), hitem⟩)
  · refine .inr (.inr ⟨other, hother, hbound.imp ?_ ?_⟩)
    · exact fun ⟨hp, h⟩ => ⟨hp, htest h (by cases negated <;> rfl)⟩
    · exact fun ⟨hp, h⟩ => ⟨hp, htest h (by cases negated <;> rfl)⟩

/-- Criteria in which only operands of operators are null bind no null. They are written with the
tests of their operators in the open places, and no test compares or matches with a null: a
concrete null operand leaves a check for null, the word in a list, or a strict comparison with the
other bound of a range, each negated when the operator is. -/
theorem criteria_nullSafe {cs : Criteria} (h : cs.nullFree = true) :
    (∀ p b, (p, b) ∈ (Template.ofPieces (criteria ctx scopes cs)).bindings →
      b.value ≠ some .null) ∧
    Interspersed ctx scopes (criteria ctx scopes cs) (cs.operators.map Operator.test)
      (criteria ctx scopes cs.opened) ∧
    (∀ op ∈ cs.operators, ∀ o ∈ op.test.compared,
      o.isNull = false ∧ .value .null ∉ operand ctx scopes o) ∧
    ∀ op ∈ cs.operators, ∀ o ∈ op.operands, o.isNull = true →
      op.test = .null op.negated ∨
      (∃ items, op.test = .among op.negated items ∧ o ∈ items ∧
        listItem ctx scopes o = [.text "null"]) ∨
      ∃ other, other.isNull = false ∧
        (op.predicate = .between other o ∧
            op.test = .compare (if op.negated then .lowerOrEqual else .greater) other ∨
          op.predicate = .between o other ∧
            op.test = .compare (if op.negated then .greaterOrEqual else .lower) other) := by
  have hplaceholders : Piece.placeholders (criteria ctx scopes cs) = Link.placeholdersAll cs := by
    rw [← Piece.map_marks, criteria, marks_links, Link.map_marksAll]
  have hnull : .value .null ∉ Piece.placeholders (criteria ctx scopes cs) := by
    intro hmem
    rw [hplaceholders] at hmem
    exact Bool.noConfusion (Link.placeholdersAll_nullFree cs h _ hmem)
  have hinterspersed := interspersed_links ctx scopes true cs
  refine ⟨?_, hinterspersed, ?_, ?_⟩
  · intro p b hb hv
    exact hnull (Template.value_mem_placeholders hb hv)
  · intro op hop o ho
    refine ⟨op.compared_test o ho, fun hmem => ?_⟩
    -- a null written in a test would be a placeholder of the criteria
    have hsubset := hinterspersed.subset (List.mem_map.mpr ⟨op, hop, rfl⟩)
    exact hnull (List.mem_filterMap.mpr
      ⟨_, hsubset (operand_subset_pieces ctx scopes op.test ho hmem), rfl⟩)
  · intro op _ o ho hisNull
    have hword : listItem ctx scopes o = [.text "null"] := if_pos hisNull
    exact (test_of_isNull op ho hisNull).imp_right fun hleft => hleft.imp_left
      fun ⟨items, htest, hitem⟩ => ⟨items, htest, hitem, hword⟩

/-- An age that is given, or a range without an end turned around and a null among sizes. -/
private def missingValues : Criteria :=
  [.mk none (.compare (.ofTerm (.raw "age")) (.operator (.notEq (.value .null)))),
    .mk (some .or) (.nested
      [.mk none (.compare (.ofTerm (.raw "year")) (.operator
        (Operator.between (.value (.ofNat 5)) (.value .null)).negate)),
      .mk none (.raw [.text "size ", .operator
        (.inValues [.value (.ofNat 1), .value .null])])])]

/-- Of three nulls none is bound: the numbers are the only values. -/
theorem criteria_nullSafe_missingValues :
    missingValues.nullFree = true ∧
    criteria (.ofCatalog ⟨[]⟩ id) [] missingValues =
      [.text "age", .text " ", .text "is not null", .text " ", .text "or", .text " ", .text "(",
        .text "year", .text " ", .text "<= ", .value (.ofNat 5), .text " ", .text "and", .text " ",
        .text "size ", .text "in (", .value (.ofNat 1), .text ", ", .text "null", .text ")",
        .text ")"] ∧
    (∀ p b, (p, b) ∈ (Template.ofPieces
      (criteria (.ofCatalog ⟨[]⟩ id) [] missingValues)).bindings → b.value ≠ some .null) ∧
    Interspersed (.ofCatalog ⟨[]⟩ id) [] (criteria (.ofCatalog ⟨[]⟩ id) [] missingValues)
      [.null true, .compare .lowerOrEqual (.value (.ofNat 5)),
        .among false [.value (.ofNat 1), .value .null]]
      (criteria (.ofCatalog ⟨[]⟩ id) [] missingValues.opened) := by
  have hfree : missingValues.nullFree = true := by decide
  obtain ⟨hbound, htests, -⟩ := criteria_nullSafe (.ofCatalog ⟨[]⟩ id) [] hfree
  exact ⟨hfree, rfl, hbound, htests⟩

end Render

end SqlGraph
