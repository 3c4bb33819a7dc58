import SqlGraph.Proofs.Render.Prepared
import SqlGraph.Proofs.Template.Finalizing

/-!
# Which places expand

Whether a name is to expand is asked at each of its places (`Mark.named`), but a template has one
binding for a name, and keeps one answer for all its places. So a name that stands for a list in an
`in` also takes several places where it is an operand.

`finalize_namedPlace` follows the finalizing of a statement up to one of its named places and on
from there.
-/

namespace SqlGraph

/-- The name that a place is marked with, and whether it is to expand. -/
def Mark.named? : Mark → Option (String × Bool)
  | .value _ => none
  | .named name expandable => some (name, expandable)

/-- The named places of a statement in order, each with whether the name is to expand there. -/
def Catalog.namedPlaces (c : Catalog) (s : Statement) : List (String × Bool) :=
  (c.marks s).filterMap Mark.named?

/-- The name of a placeholder. -/
def Placeholder.name? : Placeholder → Option String
  | .value _ => none
  | .named name => some name

/-- The name of a parameter. -/
def Parameter.name? : Parameter → Option String
  | .index _ => none
  | .named name => some name

/-- The name whose place a segment is. -/
def Segment.name? (segment : Segment) : Option String := segment.parameter?.bind Parameter.name?

theorem Segment.name?_eq_some_iff {segment : Segment} {name : String} :
    segment.name? = some name ↔ segment = .parameter (.named name) := by
  cases segment with
  | text s => simp [name?, parameter?]
  | parameter p => cases p <;> simp [name?, parameter?, Parameter.name?]

/-! ## Names of pieces -/

/-- A name expands when it is to expand at one of its places. -/
theorem Piece.expandable_iff (ps : List Piece) (name : String) :
    Piece.expandable ps name = true ↔ (name, true) ∈ (Piece.marks ps).filterMap Mark.named? := by
  unfold expandable marks
  rw [List.filterMap_filterMap, List.any_eq_true, List.mem_filterMap]
  refine exists_congr fun x => and_congr_right fun _ => ?_
  cases x <;> simp [expands, mark?, Mark.named?]

namespace Template

/-- The names of a template of pieces are those of their places. -/
theorem names_ofPieces (ps : List Piece) :
    (ofPieces ps).segments.filterMap Segment.name? =
      ((Piece.marks ps).filterMap Mark.named?).map Prod.fst := by
  have hread : ∀ p, Parameter.name? p = ((ofPieces ps).placeholder? p).bind Placeholder.name? := by
    intro p
    cases p with
    | named name => rfl
    | index n =>
      show none = (Option.map Placeholder.value _).bind Placeholder.name?
      cases ((ofPieces ps).binding? (.index n)).bind (·.value) <;> rfl
  have hmarks : ∀ m : Mark, m.placeholder.name? = m.named?.map Prod.fst := by
    intro m
    cases m <;> rfl
  calc (ofPieces ps).segments.filterMap Segment.name?
      = (ofPieces ps).occurrences.filterMap Parameter.name? := List.filterMap_filterMap.symm
    _ = (ofPieces ps).placeholders.filterMap fun x => x.bind Placeholder.name? := by
      rw [placeholders, List.filterMap_map]
      exact List.filterMap_congr fun p _ => hread p
    _ = (Piece.placeholders ps).filterMap Placeholder.name? := by
      rw [placeholders_ofPieces, List.filterMap_map]
      rfl
    _ = ((Piece.marks ps).filterMap Mark.named?).map Prod.fst := by
      rw [← Piece.map_marks, List.filterMap_map, List.map_filterMap]
      exact List.filterMap_congr fun m _ => hmarks m

/-! ## Finalizing in two steps -/

section Steps

variable (t : Template) (style : PlaceStyle)

/-- What comes first is written first. -/
theorem finalizeFrom_append_eq_ok {before after : List Segment} {done p : PreparedSql} :
    t.finalizeFrom style done (before ++ after) = .ok p ↔
      ∃ q, t.finalizeFrom style done before = .ok q ∧ t.finalizeFrom style q after = .ok p := by
  induction before generalizing done with
  | nil => simp [finalizeFrom]
  | cons segment rest ih =>
    cases segment with
    | text s => exact ih
    | parameter p =>
      simp only [List.cons_append, finalizeFrom]
      cases placeValues p (t.binding? p) with
      | error e => simp
      | ok values => exact ih

/-- A place is written when its parameter has a value. -/
theorem finalizeFrom_parameter_eq_ok {p : Parameter} {expandable : Bool} {value : Option Json}
    (hbinding : t.binding? p = some ⟨value, expandable⟩) {after : List Segment}
    {done q : PreparedSql} :
    t.finalizeFrom style done (.parameter p :: after) = .ok q ↔
      ∃ v, value = some v ∧
        t.finalizeFrom style (done.places style (expansion expandable v)) after = .ok q := by
  simp only [finalizeFrom, hbinding]
  cases value with
  | none => simp [placeValues_none]
  | some v => simp [placeValues_some]

end Steps

/-- A value takes one place unless it is an array of another length that expands. -/
theorem length_expansion_eq_one_iff (expandable : Bool) (v : Json) :
    (expansion expandable v).length = 1 ↔
      expandable = false ∨ ∀ items, v = .array items → items.length = 1 := by
  cases v <;> cases expandable <;> simp [expansion]

end Template

/-! ## Named places -/

section NamedPlaces

variable {catalog : Catalog} {escape : String → String} {s : Statement} {t : Template}
  (ht : Prepared.statement? catalog escape s = some t)

/-- A name expands when it is to expand at one of the places of the walk. -/
theorem Prepared.expandable_eq (name : String) :
    Piece.expandable (Render.statement (.ofCatalog catalog escape) [] s) name =
      (catalog.namedPlaces s).contains (name, true) := by
  rw [Bool.eq_iff_iff, Piece.expandable_iff, Render.marks_ofCatalog, List.contains_iff_mem]
  rfl

include ht

/-- The named places of a prepared statement are those of the walk. -/
theorem Prepared.names_segments :
    t.segments.filterMap Segment.name? = (catalog.namedPlaces s).map Prod.fst := by
  rw [statement?_eq_some catalog escape s ht, Template.names_ofPieces, Render.marks_ofCatalog]
  rfl

/-- When a statement finalizes, each of its named places takes places for the value that the name
has last: for the items of an array if the name is to expand anywhere in the statement, and else
one place. Whether it is to expand at the place itself does not matter. So there is one place
exactly when the name is to expand nowhere or the value is no array, or one of a single item. -/
theorem Prepared.finalize_namedPlace {values : List (String × Json)} {style : PlaceStyle}
    {p : PreparedSql} (hp : (t.bindAll values).finalize style = .ok p) {k : Nat} {name : String}
    {expandable : Bool} (hk : (catalog.namedPlaces s)[k]? = some (name, expandable)) :
    ∃ before after q v, t.segments = before ++ .parameter (.named name) :: after ∧
      (before.filterMap Segment.name?).length = k ∧
      (t.bindAll values).finalizeFrom style ⟨"", []⟩ before = .ok q ∧
      Template.lastValue? values (.named name) = some v ∧
      let taken := Template.expansion ((catalog.namedPlaces s).contains (name, true)) v
      (t.bindAll values).finalizeFrom style (q.places style taken) after = .ok p ∧
      (taken.length = 1 ↔
        (name, true) ∉ catalog.namedPlaces s ∨ ∀ items, v = .array items → items.length = 1) := by
  have hnames : (t.segments.filterMap Segment.name?)[k]? = some name := by
    rw [names_segments ht, List.getElem?_map, hk]
    rfl
  obtain ⟨before, segment, after, hsegments, hsegment, hcount⟩ :=
    exists_split_of_getElem?_filterMap hnames
  obtain rfl := Segment.name?_eq_some_iff.mp hsegment
  have hbinding : (t.bindAll values).binding? (.named name) =
      some ⟨Template.lastValue? values (.named name),
        (catalog.namedPlaces s).contains (name, true)⟩ := by
    have hmem : .named name ∈ t.occurrences :=
      List.mem_filterMap.mpr ⟨_, hsegments ▸ List.mem_append_right before List.mem_cons_self, rfl⟩
    rw [← expandable_eq]
    rw [statement?_eq_some catalog escape s ht] at hmem ⊢
    exact (Template.recorded_ofPieces _).binding?_bindAll_named values hmem
  -- the run goes up to the place, over it, and on from there
  unfold Template.finalize at hp
  rw [(t.segments_bindAll values).1, hsegments, Template.finalizeFrom_append_eq_ok] at hp
  obtain ⟨q, hbefore, hafter⟩ := hp
  obtain ⟨v, hv, hafter⟩ := (Template.finalizeFrom_parameter_eq_ok _ style hbinding).mp hafter
  refine ⟨before, after, q, v, hsegments, hcount, hbefore, hv, hafter, ?_⟩
  rw [Template.length_expansion_eq_one_iff, ← Bool.not_eq_true, List.contains_iff_mem]

end NamedPlaces

/-- A table of numbers. -/
private def numbers : Catalog :=
  ⟨[{ name := some "numbers", columns := [{ name := "n", type := .integer }] }]⟩

/-- The numbers that equal what one name stands for, or are in what another one stands for. -/
private def oneOrListed (one list : String) : Statement := .query {
  columns := [.column ⟨0, 0⟩]
  source := .ofTable 0
  filter := [.mk none (.compare (.column ⟨0, 0⟩) (.operator (.eq (.named one)))),
    .mk (some .or) (.compare (.column ⟨0, 0⟩) (.operator (.inNamed list)))] }

/-- The template of `oneOrListed`. -/
private def oneOrListedTemplate (one list : String) : Template :=
  Template.ofPieces (Render.statement (.ofCatalog numbers id) [] (oneOrListed one list))

private theorem statement?_oneOrListed (one list : String) :
    Prepared.statement? numbers id (oneOrListed one list) =
      some (oneOrListedTemplate one list) := by
  obtain ⟨t, ht⟩ := Option.isSome_iff_exists.mp
    (Prepared.isSome_statement? numbers id (oneOrListed one list) (by decide) rfl)
  rw [ht, Prepared.statement?_eq_some numbers id _ ht]
  rfl

private theorem segments_oneOrListed :
    (oneOrListedTemplate "ids" "ids").segments =
      [.text "select numbers.n from numbers where numbers.n = ", .parameter (.named "ids"),
        .text " or numbers.n in (", .parameter (.named "ids"), .text ")"] := rfl

/-- A list of two numbers. -/
private def fourAndFive : Json := .array [.ofNat 4, .ofNat 5]

/-- An operand stands for a list in one place under a name of its own, and in two under the name
that `in` uses. -/
theorem Prepared.finalize_namedPlace_numbers :
    (∃ before after, ∃ q : PreparedSql, (oneOrListedTemplate "one" "list").segments =
        before ++ .parameter (.named "one") :: after ∧
      ((oneOrListedTemplate "one" "list").bindAll
        [("one", fourAndFive), ("list", fourAndFive)]).finalizeFrom .positional
          (q.place .positional fourAndFive) after =
        .ok ⟨"select numbers.n from numbers where numbers.n = ? or numbers.n in (?, ?)",
          [fourAndFive, .ofNat 4, .ofNat 5]⟩) ∧
    ∃ before after, ∃ q : PreparedSql, (oneOrListedTemplate "ids" "ids").segments =
        before ++ .parameter (.named "ids") :: after ∧
      (before.filterMap Segment.name?).length = 0 ∧
      ((oneOrListedTemplate "ids" "ids").bindAll [("ids", fourAndFive)]).finalizeFrom .positional
          (q.places .positional [.ofNat 4, .ofNat 5]) after =
        .ok ⟨"select numbers.n from numbers where numbers.n = ?, ? or numbers.n in (?, ?)",
          [.ofNat 4, .ofNat 5, .ofNat 4, .ofNat 5]⟩ := by
  constructor
  · have hok : ((oneOrListedTemplate "one" "list").bindAll
        [("one", fourAndFive), ("list", fourAndFive)]).finalize .positional =
        .ok ⟨"select numbers.n from numbers where numbers.n = ? or numbers.n in (?, ?)",
          [fourAndFive, .ofNat 4, .ofNat 5]⟩ := rfl
    obtain ⟨before, after, q, v, hsegments, -, -, hv, htaken, -⟩ :=
      finalize_namedPlace (statement?_oneOrListed "one" "list") hok (k := 0) rfl
    obtain rfl : fourAndFive = v := Option.some.inj hv
    exact ⟨before, after, q, hsegments, htaken⟩
  · have hok : ((oneOrListedTemplate "ids" "ids").bindAll [("ids", fourAndFive)]).finalize
        .positional =
        .ok ⟨"select numbers.n from numbers where numbers.n = ?, ? or numbers.n in (?, ?)",
          [.ofNat 4, .ofNat 5, .ofNat 4, .ofNat 5]⟩ := rfl
    obtain ⟨before, after, q, v, hsegments, hcount, -, hv, htaken, -⟩ :=
      finalize_namedPlace (statement?_oneOrListed "ids" "ids") hok (k := 0) rfl
    obtain rfl : fourAndFive = v := Option.some.inj hv
    exact ⟨before, after, q, hsegments, hcount, htaken⟩

/-- An operand does not always take one place. -/
theorem Prepared.not_forall_finalize_place :
    ¬ ∀ catalog escape s t, Prepared.statement? catalog escape s = some t →
      ∀ values style p, (t.bindAll values).finalize style = .ok p →
      ∀ (k : Nat) name, (catalog.namedPlaces s)[k]? = some (name, false) →
        ∃ before after q v, t.segments = before ++ .parameter (.named name) :: after ∧
          (before.filterMap Segment.name?).length = k ∧
          (t.bindAll values).finalizeFrom style ⟨"", []⟩ before = .ok q ∧
          (t.bindAll values).finalizeFrom style (q.place style v) after = .ok p := by
  intro hall
  obtain ⟨before, after, q, v, hsegments, hcount, hbefore, hafter⟩ :=
    hall numbers id (oneOrListed "ids" "ids") _ (statement?_oneOrListed "ids" "ids")
      [("ids", fourAndFive)] .positional _ rfl 0 "ids" rfl
  rw [segments_oneOrListed] at hsegments
  -- only the text of the statement comes before its first named place
  match before, hsegments with
  | [], h => exact Segment.noConfusion (List.cons.inj h).1
  | [_], h =>
    obtain ⟨rfl, hrest⟩ := List.cons.inj h
    obtain ⟨-, rfl⟩ := List.cons.inj hrest
    obtain rfl := Except.ok.inj hbefore
    have hlength : 3 = 4 := congrArg (fun p => p.values.length) (Except.ok.inj hafter)
    exact absurd hlength (by decide)
  | _ :: _ :: _, h =>
    obtain ⟨rfl, hrest⟩ := List.cons.inj h
    obtain ⟨rfl, -⟩ := List.cons.inj hrest
    exact Nat.succ_ne_zero _ hcount

end SqlGraph
