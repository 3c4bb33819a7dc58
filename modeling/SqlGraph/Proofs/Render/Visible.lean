import SqlGraph.Proofs.Render.Negation
import SqlGraph.Proofs.Template.Places
import SqlGraph.Render.Writer

/-!
# What criteria write

Of a chain the links with conditions are written, with their combinators between them
(`Render.criteria_eq_chained`). Something is shown of each of them, but for a raw criterion whose
fragments are all blank, as it is when there are none. What is blank depends on the form: an empty
text always is, and an empty array is blank where values are written out, as its literal is empty
(`Json.literal_eq_empty_iff`), but not where it gets a place. So whether a chain has conditions
tells whether a form shows something of it, unless such a criterion is all that is written
(`Render.hasConditions_eq_shows`): then a `where` or a `having` is followed by nothing.
-/

namespace SqlGraph

/-! ## What a form shows -/

/-- Whether the segment is a place or a text that is not empty. -/
def Segment.isVisible : Segment → Bool
  | .text s => !(s == "")
  | .parameter _ => true

/-- Whether pieces leave something in what is written of them: text that is not empty, or, where
values and names get places, a place. -/
def PlaceForm.shows : PlaceForm → List Piece → Bool
  | .place, ps => (Template.ofPieces ps).segments.any Segment.isVisible
  | .inline, ps => !(Inline.text ps == "")

mutual

/-- Whether nothing is written of the value when it is written out: an empty array is blank, and so
is an array of one item that is blank. -/
def Json.isBlank : Json → Bool
  | .array items => Json.areBlank items
  | _ => false

/-- Whether nothing is written of the items, with commas between them. -/
def Json.areBlank : List Json → Bool
  | [] => true
  | [v] => v.isBlank
  | _ :: _ :: _ => false

end

/-- Whether nothing is written of the value; a place is written for any value. -/
def PlaceForm.leavesOut : PlaceForm → Json → Bool
  | .place, _ => false
  | .inline, v => v.isBlank

/-! ## Blank criteria -/

/-- Whether the expression is an empty text, or a value of which nothing is written. -/
def Expression.isBlank (form : PlaceForm) : Expression → Bool
  | .mk (.raw s) _ => s == ""
  | .mk (.value v) _ => form.leavesOut v
  | _ => false

/-- Whether the fragment is an empty text, or a value of which nothing is written. -/
def Fragment.isBlank (form : PlaceForm) : Fragment → Bool
  | .text s => s == ""
  | .expression e => e.isBlank form
  | .value v => form.leavesOut v
  | _ => false

/-- Whether the criterion is a raw one that consists of blank fragments. -/
def Criterion.isBlank (form : PlaceForm) : Criterion → Bool
  | .raw fragments => fragments.all (Fragment.isBlank form)
  | _ => false

/-- Whether the only link with conditions is blank. -/
def Criteria.isBlank (form : PlaceForm) (cs : Criteria) : Bool :=
  match cs.filter Link.hasConditions with
  | [link] => link.criterion.isBlank form
  | _ => false

/-! ## Literals are not empty -/

theorem Number.text_ne_empty (n : Number) : n.text ≠ "" := by
  cases n with
  | integer n =>
    cases n with
    | ofNat n => exact Nat.repr_ne_empty
    | negSucc n => exact fun h => absurd (String.append_eq_empty_iff.mp h).1 (by decide)
  | float x =>
    have hpositional : ∀ digits point, DecimalLayout.positional digits point ≠ "" := by
      intro digits point
      unfold DecimalLayout.positional
      split
      · simp [String.append_eq_empty_iff]
      · dsimp only
        split <;> simp [String.append_eq_empty_iff]
    have hscientific : ∀ digits exponent, DecimalLayout.scientific digits exponent ≠ "" := by
      intro digits exponent
      unfold DecimalLayout.scientific
      split <;> simp [String.append_eq_empty_iff]
    show DecimalLayout.text _ x ≠ ""
    unfold DecimalLayout.text
    dsimp only
    split
    · simp [String.append_eq_empty_iff]
    · split <;> simp [String.append_eq_empty_iff, hpositional, hscientific]

theorem Text.quote_ne_empty (s : String) : Text.quote s ≠ "" := by
  intro h
  have hchars := congrArg String.toList h
  simp [Text.quote] at hchars

/-- Only of an empty array, and of an array of such a value alone, the literal is empty. -/
theorem Json.literal_eq_empty_iff : ∀ v : Json, v.literal = "" ↔ v.isBlank = true
  | .null => by simp [Json.literal, Json.isBlank]
  | .bool true => by simp [Json.literal, Json.isBlank]
  | .bool false => by simp [Json.literal, Json.isBlank]
  | .number n => by simp [Json.literal, Json.isBlank, n.text_ne_empty]
  | .string s => by simp [Json.literal, Json.isBlank, Text.quote_ne_empty]
  | .object members => by simp [Json.literal, Json.isBlank, Text.quote_ne_empty]
  | .array [] => by simp [Json.literal, Json.literals, Json.isBlank, Json.areBlank]
  | .array [v] => by
    have hv := Json.literal_eq_empty_iff v
    simpa [Json.literal, Json.literals, Json.isBlank, Json.areBlank] using hv
  | .array (v :: w :: rest) => by
    simp [Json.literal, Json.literals, Json.isBlank, Json.areBlank, String.append_eq_empty_iff]

/-! ## What is shown of pieces -/

/-- Whether something is written of a piece. -/
def Piece.isVisible (form : PlaceForm) : Piece → Bool
  | .text s => !(s == "")
  | .value v => !form.leavesOut v
  | .named _ _ => true
  | .dangling => false

theorem Template.any_isVisible_appendText (s : String) (segments : List Segment) :
    (appendText s segments).any Segment.isVisible =
      (segments.any Segment.isVisible || !(s == "")) := by
  fun_induction appendText s segments with
  | case1 => simp [Segment.isVisible]
  | case2 t =>
    have happend : (t ++ s == "") = (t == "" && s == "") := by
      rw [Bool.eq_iff_iff]
      simp [String.append_eq_empty_iff]
    simp only [List.any_cons, List.any_nil, Segment.isVisible, happend, Bool.not_and, Bool.or_false]
  | case3 segment rest _ ih => rw [List.any_cons, List.any_cons, ih, Bool.or_assoc]

theorem Template.any_isVisible_pushPieces (t : Template) (ps : List Piece) :
    (t.pushPieces ps).segments.any Segment.isVisible =
      (t.segments.any Segment.isVisible || ps.any (Piece.isVisible .place)) := by
  induction ps generalizing t with
  | nil => simp [pushPieces]
  | cons p rest ih =>
    have hp : (t.pushPiece p).segments.any Segment.isVisible =
        (t.segments.any Segment.isVisible || p.isVisible .place) := by
      cases p with
      | text s => exact any_isVisible_appendText s t.segments
      | value v =>
        simp [pushPiece, pushValue, Piece.isVisible, PlaceForm.leavesOut, Segment.isVisible]
      | named n expandable => simp [pushPiece, pushNamed, Piece.isVisible, Segment.isVisible]
      | dangling => simp [pushPiece, Piece.isVisible]
    show ((t.pushPiece p).pushPieces rest).segments.any Segment.isVisible = _
    rw [ih, hp, List.any_cons, Bool.or_assoc]

theorem Inline.text_eq_empty_iff (ps : List Piece) :
    Inline.text ps = "" ↔ ps.any (Piece.isVisible .inline) = false := by
  induction ps with
  | nil => simp [Inline.text]
  | cons p rest ih =>
    have hp : Inline.piece p = "" ↔ p.isVisible .inline = false := by
      cases p with
      | text s => simp [Inline.piece, Piece.isVisible]
      | value v =>
        simp [Inline.piece, Piece.isVisible, PlaceForm.leavesOut, v.literal_eq_empty_iff]
      | named n expandable => simp [Inline.piece, Piece.isVisible, String.append_eq_empty_iff]
      | dangling => simp [Inline.piece, Piece.isVisible]
    rw [List.any_cons, Bool.or_eq_false_iff, ← ih, ← hp, Inline.text, List.map_cons,
      String.join_cons, String.append_eq_empty_iff]
    rfl

/-- A form shows something of pieces exactly when it does of one of them. -/
theorem PlaceForm.shows_eq (form : PlaceForm) (ps : List Piece) :
    form.shows ps = ps.any (Piece.isVisible form) := by
  cases form with
  | place => exact (Template.any_isVisible_pushPieces {} ps).trans (Bool.false_or _)
  | inline =>
    rw [PlaceForm.shows, Bool.eq_iff_iff, Bool.not_eq_true', beq_eq_false_iff_ne, ne_eq,
      Inline.text_eq_empty_iff, Bool.not_eq_false]

namespace Render

variable (ctx : Context) (scopes : Scopes)

/-! ## Chains -/

/-- A link behind another one: its combinator and its criterion. -/
def following (link : Link) : List Piece :=
  combinator link.combinator ++ criterion ctx scopes link.criterion

/-- Links with their combinators between them. -/
def chained : List Link → List Piece
  | [] => []
  | link :: rest => criterion ctx scopes link.criterion ++ rest.flatMap (following ctx scopes)

/-- Links are written as far as they have conditions, each but the first behind its combinator. -/
theorem links_eq_chained (first : Bool) (chain : List Link) :
    links ctx scopes first chain =
      if first then chained ctx scopes (chain.filter Link.hasConditions)
      else (chain.filter Link.hasConditions).flatMap (following ctx scopes) := by
  induction chain generalizing first with
  | nil => cases first <;> rfl
  | cons link rest ih =>
    obtain ⟨c, k⟩ := link
    rw [links, ih false, ih first]
    cases hk : k.hasConditions with
    | true =>
      have hlink : (Link.mk c k).hasConditions = true := hk
      rw [List.filter_cons_of_pos hlink]
      cases first <;> rfl
    | false =>
      have hlink : ¬ (Link.mk c k).hasConditions = true := Bool.eq_false_iff.mp hk
      rw [List.filter_cons_of_neg hlink]
      cases first <;> rfl

theorem criteria_eq_chained (cs : Criteria) :
    criteria ctx scopes cs = chained ctx scopes (cs.filter Link.hasConditions) :=
  links_eq_chained ctx scopes true cs

/-! ## What is shown of criteria -/

section Shown

variable (form : PlaceForm)

theorem isVisible_operator (op : Operator) :
    (operator ctx scopes op).any (Piece.isVisible form) = true := by
  have hkeyword : op.test.keyword ≠ "" := by
    cases op.test with
    | null negated => cases negated <;> decide
    | compare c value => cases c <;> simp [Test.keyword, Comparison.symbol]
    | between negated lower upper => cases negated <;> simp [Test.keyword]
    | among negated items => cases negated <;> simp [Test.keyword]
    | amongNamed negated name => cases negated <;> simp [Test.keyword]
    | like negated pattern => cases negated <;> simp [Test.keyword]
  rw [operator_eq_test, Test.pieces]
  simp [Piece.isVisible, hkeyword]

/-- Of all expressions only empty texts and values that are left out are not shown. -/
theorem isVisible_expression (e : Expression) :
    (expression ctx scopes e).any (Piece.isVisible form) = !e.isBlank form := by
  obtain ⟨t, aliasName⟩ := e
  cases t with
  | column ref => simp [expression, term, column, Piece.isVisible, Expression.isBlank]
  | _ => simp [expression, term, Piece.isVisible, Expression.isBlank]

theorem isVisible_fragment (f : Fragment) :
    (fragment ctx scopes f).any (Piece.isVisible form) = !f.isBlank form := by
  cases f with
  | text s => simp [fragment, Piece.isVisible, Fragment.isBlank]
  | expression e => exact isVisible_expression ctx scopes form e
  | operator op => exact isVisible_operator ctx scopes form op
  | value v => simp [fragment, Piece.isVisible, Fragment.isBlank]
  | criteria chain => rfl

theorem isVisible_fragmentList (fs : List Fragment) :
    (fragmentList ctx scopes fs).any (Piece.isVisible form) =
      !fs.all (Fragment.isBlank form) := by
  induction fs with
  | nil => rfl
  | cons f rest ih =>
    rw [fragmentList, List.any_append, isVisible_fragment, ih, List.all_cons, Bool.not_and]

/-- Of all criteria only blank ones are not shown. -/
theorem shows_criterion (k : Criterion) :
    form.shows (criterion ctx scopes k) = !k.isBlank form := by
  rw [form.shows_eq]
  cases k with
  | compare left c => simp [criterion, Piece.isVisible, Criterion.isBlank]
  | raw fragments => exact isVisible_fragmentList ctx scopes form fragments
  | nested chain => rfl

theorem isVisible_following (link : Link) :
    (following ctx scopes link).any (Piece.isVisible form) = true := by
  simp [following, combinator, Piece.isVisible]

end Shown

end Render

theorem Criteria.hasConditions_eq (cs : Criteria) :
    cs.hasConditions = !(cs.filter Link.hasConditions).isEmpty := by
  unfold hasConditions
  induction cs with
  | nil => rfl
  | cons link rest ih =>
    rw [Link.anyConditions, ih, List.filter_cons]
    cases link.hasConditions <;> rfl

namespace Render

/-- A chain has conditions when a form shows something of it, and otherwise just when all that is
written of it is a blank criterion. -/
theorem hasConditions_cases (form : PlaceForm) (ctx : Context) (scopes : Scopes) (cs : Criteria) :
    cs.hasConditions = (form.shows (criteria ctx scopes cs) || cs.isBlank form) ∧
      (form.shows (criteria ctx scopes cs) && cs.isBlank form) = false := by
  rw [cs.hasConditions_eq, criteria_eq_chained, Criteria.isBlank]
  -- something is shown of a combinator, so only a single link can be blank
  match cs.filter Link.hasConditions with
  | [] => cases form <;> exact ⟨rfl, rfl⟩
  | [link] =>
    have hlink := shows_criterion ctx scopes form link.criterion
    rw [chained, List.flatMap_nil, List.append_nil, hlink]
    cases hblank : link.criterion.isBlank form <;> simp [hblank]
  | link :: other :: rest =>
    have hother := isVisible_following ctx scopes form other
    rw [form.shows_eq, chained, List.flatMap_cons, List.any_append, List.any_append, hother]
    simp

/-- Whether values get places or are written out, a chain has conditions exactly when something is
shown of it, unless all that is written of it is a blank criterion, of which nothing is shown. The
criteria that are written stand with a combinator between each two of them, and of each of them that
is not blank something is shown. So a query has a `where` and a `having` exactly when a condition
follows of which something is shown, unless it is blank. -/
theorem hasConditions_eq_shows (form : PlaceForm) (ctx : Context) (scopes : Scopes)
    (cs : Criteria) :
    (cs.hasConditions = (form.shows (criteria ctx scopes cs) || cs.isBlank form) ∧
      (form.shows (criteria ctx scopes cs) && cs.isBlank form) = false) ∧
    criteria ctx scopes cs = chained ctx scopes (cs.filter Link.hasConditions) ∧
    (∀ k : Criterion, form.shows (criterion ctx scopes k) = !k.isBlank form) ∧
    ∀ q : Query,
      let inner := q.source.scope :: scopes
      let written (clause : Criteria) :=
        form.shows (criteria ctx inner clause) || clause.isBlank form
      query ctx scopes q =
        select ctx inner q ++ fromClause ctx inner q.source ++
          clauseWhen (written q.filter) " where " (criteria ctx inner q.filter) ++
          clauseWhen (!q.groups.isEmpty) " group by " (expressions ctx inner q.groups) ++
          clauseWhen (written q.having) " having " (criteria ctx inner q.having) ++
          clauseWhen (!q.ordering.isEmpty) " order by " (ordering ctx inner q.ordering) ++
          q.limit.elim [] limit := by
  refine ⟨hasConditions_cases form ctx scopes cs, criteria_eq_chained ctx scopes cs,
    shows_criterion ctx scopes form, fun q => ?_⟩
  simp only [query, ← (hasConditions_cases form ctx _ _).1]
  cases q.limit <;> rfl

/-- A blank criterion in front leaves a combinator with nothing before it. -/
example : criteria (.ofCatalog ⟨[]⟩ id) []
    [.mk none (.raw []), .mk (some .or) (.raw [.text "a"])] =
      [.text " ", .text "or", .text " ", .text "a"] := rfl

/-- An empty array is written out as nothing, and gets a place all the same. -/
example :
    let emptyArray : Criteria := [.mk none (.raw [.value (.array [])])]
    let written := criteria (.ofCatalog ⟨[]⟩ id) [] emptyArray
    emptyArray.hasConditions = true ∧ PlaceForm.inline.shows written = false ∧
      PlaceForm.place.shows written = true := by decide

/-- Without fragments a raw criterion is a condition of which no form shows anything: a `where` is
written with nothing behind it. -/
theorem not_exists_forall_hasConditions_shows :
    ¬ ∃ form : PlaceForm, ∀ (ctx : Context) (fragments : List Fragment), .text "" ∉ fragments →
      (Criteria.hasConditions [.mk none (.raw fragments)] = true ↔
        form.shows (criteria ctx [] [.mk none (.raw fragments)]) = true) := by
  rintro ⟨form, h⟩
  have hshown := (h (.ofCatalog ⟨[]⟩ id) [] List.not_mem_nil).mp rfl
  cases form with
  | place => exact Bool.noConfusion hshown
  | inline => exact Bool.noConfusion hshown

end Render

end SqlGraph
