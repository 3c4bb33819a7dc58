import SqlGraph.Proofs.Render.Dangling
import SqlGraph.Proofs.Render.Marks

/-!
# What a prepared statement holds

A statement whose references resolve has a prepared and an inline form, and the two tell the
same:

* `prepared_placeholders`, the prepared statement has the placeholders of the walk in its
  segments, and finalizes to the values of the walk when it has no named ones;
* `inline_eq_prepared`, writing the placeholders of the prepared statement out gives the inline
  statement.
-/

namespace SqlGraph

variable (catalog : Catalog) (escape : String → String) (s : Statement)

/-- The prepared form is the template of the pieces. -/
theorem Prepared.statement?_eq_some {t : Template} (h : statement? catalog escape s = some t) :
    t = Template.ofPieces (Render.statement (.ofCatalog catalog escape) [] s) := by
  unfold statement? Template.ofPieces? Piece.resolved? at h
  split at h
  · simp at h
  · exact (Option.some.inj h).symm

/-- A statement whose references resolve has a prepared form. -/
theorem Prepared.isSome_statement? (hlayered : catalog.layered = true)
    (hs : s.resolves catalog catalog.size = true) :
    (statement? catalog escape s).isSome = true := by
  have hresolved :=
    Piece.resolved?_of_dangles (Render.dangles_statement_ofCatalog escape hlayered hs [])
  unfold statement? Template.ofPieces?
  rw [hresolved]
  rfl

/-- A statement whose references resolve has an inline form. -/
theorem Inline.isSome_statement? (hlayered : catalog.layered = true)
    (hs : s.resolves catalog catalog.size = true) :
    (statement? catalog escape s).isSome = true := by
  have hresolved :=
    Piece.resolved?_of_dangles (Render.dangles_statement_ofCatalog escape hlayered hs [])
  unfold statement? text?
  rw [hresolved]
  rfl

/-- The literal of an array is the literals of its items with commas between them. -/
theorem Json.literal_array (items : List Json) :
    (Json.array items).literal = ", ".intercalate (items.map Json.literal) := by
  have hliterals : Json.literals items = items.map Json.literal := by
    induction items with
    | nil => rfl
    | cons v rest ih =>
      unfold Json.literals
      rw [List.map_cons, ih]
  unfold Json.literal
  rw [hliterals]

/-- A prepared statement has the placeholders of the walk, in order. When all of them are values
it finalizes, and the values are bound to the positions from one on. -/
theorem prepared_placeholders :
    (catalog.layered = true → s.resolves catalog catalog.size = true →
      (Prepared.statement? catalog escape s).isSome = true) ∧
    ∀ t, Prepared.statement? catalog escape s = some t →
      t.placeholders = (catalog.placeholders s).map some ∧
      ∀ vs : List Json, catalog.placeholders s = vs.map .value →
        ∀ style, ∃ p, t.finalize style = .ok p ∧
          p.positions = vs.mapIdx fun i v => (i + 1, v) := by
  refine ⟨Prepared.isSome_statement? catalog escape s, fun t ht => ?_⟩
  have hwalk := Render.placeholders_ofCatalog catalog escape s
  rw [Prepared.statement?_eq_some catalog escape s ht]
  refine ⟨?_, fun vs hvs style => ?_⟩
  · rw [Template.placeholders_ofPieces, hwalk]
  · exact Template.finalize_ofPieces (hwalk.trans hvs) style

/-- The orders of a shop, and those among the first three that cost from five to ten. -/
def shop : Catalog := ⟨[
  { name := some "orders"
    columns := [{ name := "id", type := .bigInt }, { name := "total", type := .bigInt }] },
  { name := some "cheap"
    columns := [{ name := "id", type := .bigInt }]
    body := some (.query {
      columns := [.column ⟨0, 0⟩]
      source := .ofTable 0
      filter := [.mk none (.compare (.column ⟨0, 1⟩)
        (.operator (.between (.value (.ofNat 5)) (.value (.ofNat 10)))))]
      limit := some { count := 3 } }) }]⟩

/-- A page of the cheap orders; the null among the numbers is no placeholder. -/
def cheapPage : Statement := .query {
  columns := [.column ⟨1, 0⟩, .ofTerm (.value (.string "cheap"))]
  source := .ofTable 1
  filter := [.mk none (.compare (.column ⟨1, 0⟩)
    (.operator (.inValues [.value (.ofNat 1), .value .null, .value (.ofNat 2)])))]
  limit := some { count := 10, offset := some 20 } }

/-- The derived table of `cheapPage` comes before its own filter, its limit last. -/
theorem prepared_placeholders_cheapPage :
    ∃ t p, Prepared.statement? shop id cheapPage = some t ∧
      t.finalize .numbered = .ok p ∧
      p.positions = [(1, .string "cheap"), (2, .ofNat 5), (3, .ofNat 10), (4, .ofNat 3),
        (5, .ofNat 1), (6, .ofNat 2), (7, .ofNat 10), (8, .ofNat 20)] := by
  obtain ⟨hsome, hall⟩ := prepared_placeholders shop id cheapPage
  obtain ⟨t, ht⟩ := Option.isSome_iff_exists.mp (hsome (by decide) (by decide))
  have hwalk : shop.placeholders cheapPage =
      [Json.string "cheap", .ofNat 5, .ofNat 10, .ofNat 3, .ofNat 1, .ofNat 2, .ofNat 10,
        .ofNat 20].map .value := rfl
  obtain ⟨p, hp, hpositions⟩ := (hall t ht).2 _ hwalk .numbered
  exact ⟨t, p, ht, hp, hpositions⟩

/-- The inline statement is the prepared one with its placeholders written out: values as their
literals, an array as those of its items, and a named one as its name after a colon. -/
theorem inline_eq_prepared :
    Inline.statement? catalog escape s =
      (Prepared.statement? catalog escape s).bind Template.inlined? ∧
    (catalog.layered = true → s.resolves catalog catalog.size = true →
      (Inline.statement? catalog escape s).isSome = true) ∧
    ∀ items, (Json.array items).literal = ", ".intercalate (items.map Json.literal) := by
  have heq : Inline.statement? catalog escape s =
      (Prepared.statement? catalog escape s).bind Template.inlined? := by
    unfold Inline.statement? Inline.text? Prepared.statement? Template.ofPieces?
    cases Piece.resolved? (Render.statement (.ofCatalog catalog escape) [] s) with
    | none => rfl
    | some ps => exact (Template.inlined?_ofPieces ps).symm
  refine ⟨heq, fun hlayered hs => ?_, Json.literal_array⟩
  obtain ⟨t, ht⟩ :=
    Option.isSome_iff_exists.mp (Prepared.isSome_statement? catalog escape s hlayered hs)
  rw [heq, ht, Option.bind_some, Prepared.statement?_eq_some catalog escape s ht,
    Template.inlined?_ofPieces]
  rfl

/-- Both forms of `cheapPage` exist, and writing the placeholders of one out gives the other. -/
theorem inline_eq_prepared_cheapPage :
    ∃ t text, Prepared.statement? shop id cheapPage = some t ∧
      Inline.statement? shop id cheapPage = some text ∧ t.inlined? = some text := by
  obtain ⟨heq, hsome, -⟩ := inline_eq_prepared shop id cheapPage
  obtain ⟨text, htext⟩ := Option.isSome_iff_exists.mp (hsome (by decide) (by decide))
  obtain ⟨t, ht, hinlined⟩ := Option.bind_eq_some_iff.mp (heq.symm.trans htext)
  exact ⟨t, text, ht, htext, hinlined⟩

end SqlGraph
