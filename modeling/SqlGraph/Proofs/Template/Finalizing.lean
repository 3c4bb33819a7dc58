import SqlGraph.Proofs.Template.Bindings

/-!
# Finalizing

A template of pieces, bound and finalized, told by the pieces and the binds alone.

* `Token` is a unit of the finalized text: text as it is, or a place for a value. The text and the
  values of a finalized template come from one list of tokens (`Token.prepared`), in which the place
  that comes k-th is written as the k-th;
* `finalizeFrom_of_bound` and `finalizeFrom_of_unbound` say what finalizing does: all segments are
  written, or the first parameter without value is an error;
* `finalize_bound` is the law of a template that is bound, `finalize_isOk_iff_isBound` the one of
  any template.
-/

namespace SqlGraph

/-! ## Tokens -/

/-- A unit of a finalized text. -/
inductive Token where
  | text (s : String)
  | place (v : Json)

namespace Token

/-- The value that a token is the place of. -/
def value? : Token → Option Json
  | .text _ => none
  | .place v => some v

/-- The values of the places, in order. -/
def values (tokens : List Token) : List Json := tokens.filterMap value?

/-- The text of a token, given its position among the places. -/
def shown (style : PlaceStyle) (position : Nat) : Token → String
  | .text s => s
  | .place _ => style.place position

/-- The text of tokens; a place is written at the position after those of the places before it. -/
def written (style : PlaceStyle) (tokens : List Token) : String :=
  String.join (tokens.mapIdx fun i token =>
    token.shown style ((values (tokens.take i)).length + 1))

/-- Places for values, commas between them. -/
def places (vs : List Json) : List Token := (vs.map .place).intersperse (.text ", ")

/-- Tokens written out, and their values. -/
def prepared (style : PlaceStyle) (tokens : List Token) : PreparedSql :=
  ⟨written style tokens, values tokens⟩

theorem values_append (tokens tokens' : List Token) :
    values (tokens ++ tokens') = values tokens ++ values tokens' := List.filterMap_append

theorem values_places (vs : List Json) : values (places vs) = vs := by
  induction vs with
  | nil => rfl
  | cons v rest ih =>
    cases rest with
    | nil => rfl
    | cons w rest => exact congrArg (v :: ·) ih

section Written

variable (style : PlaceStyle) (tokens : List Token)

/-- One more token comes at the end and leaves the positions of the others. -/
theorem written_concat (token : Token) :
    written style (tokens ++ [token]) =
      written style tokens ++ token.shown style ((values tokens).length + 1) := by
  have htokens := mapIdx_take_concat
    (fun before token => shown style ((values before).length + 1) token) tokens token
  unfold written
  rw [htokens, String.join_append, String.join_cons, String.join_nil, String.append_empty]

theorem prepared_concat_text (s : String) :
    prepared style (tokens ++ [.text s]) = (prepared style tokens).write s := by
  unfold prepared
  rw [written_concat, values_append]
  show PreparedSql.mk _ (values tokens ++ []) = _
  rw [List.append_nil]
  rfl

theorem prepared_concat_place (v : Json) :
    prepared style (tokens ++ [.place v]) = (prepared style tokens).place style v := by
  unfold prepared
  rw [written_concat, values_append]
  rfl

/-- Places for values are written one after the other. -/
theorem prepared_append_places (vs : List Json) :
    prepared style (tokens ++ places vs) = (prepared style tokens).places style vs := by
  induction vs generalizing tokens with
  | nil => rw [show places [] = [] from rfl, List.append_nil, PreparedSql.places]
  | cons v rest ih =>
    cases rest with
    | nil => exact prepared_concat_place style tokens v
    | cons w rest =>
      have hplaces : tokens ++ places (v :: w :: rest) =
          tokens ++ [.place v] ++ [.text ", "] ++ places (w :: rest) := by
        simp [places]
      rw [hplaces, ih, prepared_concat_text, prepared_concat_place, PreparedSql.places]

end Written

end Token

/-! ## Positions -/

namespace PreparedSql

/-- The positions are the numbers from one on. -/
theorem positions_keys (p : PreparedSql) :
    p.positions.map (·.1) = List.range' 1 p.positions.length := by
  refine List.ext_getElem (by simp) fun i _ _ => ?_
  simp [positions, Nat.add_comm]

theorem positions_values (p : PreparedSql) : p.positions.map (·.2) = p.values := by
  refine List.ext_getElem (by simp [positions]) fun i _ _ => ?_
  simp [positions]

end PreparedSql

namespace Template

/-! ## What finalizing does -/

/-- The places that a value takes: those of its items when it is an array that expands. -/
def expansion (expandable : Bool) : Json → List Json
  | .array items => if expandable then items else [.array items]
  | v => [v]

theorem expansion_false (v : Json) : expansion false v = [v] := by
  cases v <;> rfl

/-- The error of a parameter without value. -/
def missing (p : Parameter) (expandable : Bool) : Error :=
  if expandable then .missingExpansionSize p.label else .unboundParameter p.label

/-- Whether a parameter has no value. -/
def isUnbound (t : Template) (p : Parameter) : Bool := (t.value? p).isNone

/-- A segment written after what is written already. -/
def writeSegment (style : PlaceStyle) (values : Parameter → List Json) (done : PreparedSql) :
    Segment → PreparedSql
  | .text s => done.write s
  | .parameter p => done.places style (values p)

theorem placeValues_some (p : Parameter) (v : Json) (expandable : Bool) :
    placeValues p (some ⟨some v, expandable⟩) = .ok (expansion expandable v) := by
  cases v <;> cases expandable <;> rfl

theorem placeValues_none (p : Parameter) (expandable : Bool) :
    placeValues p (some ⟨none, expandable⟩) = .error (missing p expandable) := by
  cases expandable <;> rfl

section FinalizeFrom

variable (t : Template) (style : PlaceStyle)

/-- Segments whose parameters all have values are written one after the other. -/
theorem finalizeFrom_of_bound (values : Parameter → List Json) {segments : List Segment}
    (h : ∀ p ∈ segments.filterMap Segment.parameter?,
      placeValues p (t.binding? p) = .ok (values p)) (done : PreparedSql) :
    t.finalizeFrom style done segments = .ok (segments.foldl (writeSegment style values) done) := by
  induction segments generalizing done with
  | nil => rfl
  | cons segment rest ih =>
    cases segment with
    | text s => exact ih h (done.write s)
    | parameter p =>
      have hp := h p List.mem_cons_self
      have hrest := ih fun q hq => h q (List.mem_cons_of_mem p hq)
      unfold finalizeFrom
      rw [hp]
      exact hrest (done.places style (values p))

/-- The first parameter without value is the error. -/
theorem finalizeFrom_of_unbound {segments : List Segment} {p : Parameter} {expandable : Bool}
    (hfirst : (segments.filterMap Segment.parameter?).find? t.isUnbound = some p)
    (hbinding : t.binding? p = some ⟨none, expandable⟩)
    (hbound : ∀ q ∈ segments.filterMap Segment.parameter?, (t.binding? q).isSome = true)
    (done : PreparedSql) :
    t.finalizeFrom style done segments = .error (missing p expandable) := by
  induction segments generalizing done with
  | nil => simp at hfirst
  | cons segment rest ih =>
    cases segment with
    | text s => exact ih hfirst hbound (done.write s)
    | parameter q =>
      have hlist : (Segment.parameter q :: rest).filterMap Segment.parameter? =
          q :: rest.filterMap Segment.parameter? := rfl
      rw [hlist] at hfirst hbound
      unfold finalizeFrom
      cases hunbound : t.isUnbound q with
      | true =>
        rw [List.find?_cons_of_pos hunbound] at hfirst
        rw [Option.some.inj hfirst, hbinding, placeValues_none]
      | false =>
        rw [List.find?_cons_of_neg (Bool.eq_false_iff.mp hunbound)] at hfirst
        -- the parameter is bound and has a value, so the error is further on
        obtain ⟨⟨value, e⟩, hb⟩ := Option.isSome_iff_exists.mp (hbound q List.mem_cons_self)
        cases value with
        | none => simp [isUnbound, value?, hb] at hunbound
        | some v =>
          rw [hb, placeValues_some]
          exact ih hfirst (fun r hr => hbound r (List.mem_cons_of_mem q hr)) _

end FinalizeFrom

end Template

/-! ## What is written -/

/-- The values that a name takes places for once it is bound. -/
def Piece.boundValues (ps : List Piece) (values : List (String × Json)) (name : String) :
    List Json :=
  match Template.lastValue? values (.named name) with
  | some v => Template.expansion (Piece.expandable ps name) v
  | none => []

/-- The values that a place takes, given those of names. -/
def Placeholder.values (valuesOf : String → List Json) : Placeholder → List Json
  | .value v => [v]
  | .named name => valuesOf name

/-- The tokens of a piece, given the values of names. -/
def Piece.tokens (valuesOf : String → List Json) : Piece → List Token
  | .text s => [.text s]
  | .value v => [.place v]
  | .named name _ => Token.places (valuesOf name)
  | .dangling => []

/-- The values of the tokens are those of the places, in order. -/
theorem Piece.values_tokens (valuesOf : String → List Json) (ps : List Piece) :
    Token.values (ps.flatMap (Piece.tokens valuesOf)) =
      (Piece.placeholders ps).flatMap (Placeholder.values valuesOf) := by
  induction ps with
  | nil => rfl
  | cons x rest ih =>
    rw [List.flatMap_cons, Token.values_append, ih]
    cases x with
    | text s => rfl
    | value v => rfl
    | named name expandable => exact congrArg (· ++ _) (Token.values_places (valuesOf name))
    | dangling => rfl

namespace Template

/-- Text is written behind what the segments write, also when it joins the last one. -/
theorem foldl_appendText (style : PlaceStyle) (values : Parameter → List Json) (s : String)
    (segments : List Segment) (done : PreparedSql) :
    (appendText s segments).foldl (writeSegment style values) done =
      (segments.foldl (writeSegment style values) done).write s := by
  fun_induction appendText s segments generalizing done with
  | case1 => rfl
  | case2 u =>
    show PreparedSql.write done (u ++ s) = (done.write u).write s
    simp [PreparedSql.write, String.append_assoc]
  | case3 segment segments _ ih => exact ih _

/-- The segments of pieces are written as the tokens of the pieces, when each parameter takes the
values of its piece. -/
theorem foldl_segments_ofPieces (style : PlaceStyle) {values : Parameter → List Json}
    {valuesOf : String → List Json} {ps : List Piece}
    (h : (ofPieces ps).occurrences.map values =
      (Piece.placeholders ps).map (Placeholder.values valuesOf)) :
    (ofPieces ps).segments.foldl (writeSegment style values) ⟨"", []⟩ =
      Token.prepared style (ps.flatMap (Piece.tokens valuesOf)) := by
  induction ps using List.reverseRecOn with
  | nil => rfl
  | append_singleton rest x ih =>
    rw [ofPieces_append, Piece.placeholders_append, List.map_append] at h
    rw [ofPieces_append, List.flatMap_append, List.flatMap_singleton]
    generalize ht : ofPieces rest = t at h ih
    show (t.pushPiece x).segments.foldl _ _ = _
    change (t.pushPiece x).occurrences.map values = _ at h
    cases x with
    | text s =>
      have hrest : t.occurrences.map values = _ :=
        (congrArg (List.map values) (occurrences_pushText t s)).symm.trans
          (h.trans (List.append_nil _))
      show (appendText s t.segments).foldl _ _ = _
      rw [foldl_appendText, ih hrest]
      exact (Token.prepared_concat_text style _ s).symm
    | value v =>
      have hlists : t.occurrences.map values ++ [values (.index (t.valueCount + 1))] =
          (Piece.placeholders rest).map (Placeholder.values valuesOf) ++ [[v]] := by
        rw [← List.map_singleton, ← List.map_append, ← occurrences_pushValue t v]
        exact h
      obtain ⟨hrest, hlast⟩ := List.append_inj' hlists rfl
      show (t.segments ++ [_]).foldl _ _ = _
      rw [List.foldl_append, ih hrest]
      show (Token.prepared style _).places style (values (.index (t.valueCount + 1))) = _
      rw [(List.cons.inj hlast).1]
      exact (Token.prepared_concat_place style _ v).symm
    | named name expandable =>
      have hlists : t.occurrences.map values ++ [values (.named name)] =
          (Piece.placeholders rest).map (Placeholder.values valuesOf) ++ [valuesOf name] := by
        rw [← List.map_singleton, ← List.map_append, ← occurrences_pushNamed t name expandable]
        exact h
      obtain ⟨hrest, hlast⟩ := List.append_inj' hlists rfl
      show (t.segments ++ [_]).foldl _ _ = _
      rw [List.foldl_append, ih hrest]
      show (Token.prepared style _).places style (values (.named name)) = _
      rw [(List.cons.inj hlast).1]
      exact (Token.prepared_append_places style _ (valuesOf name)).symm
    | dangling =>
      have hrest : t.occurrences.map values = _ := h.trans (List.append_nil _)
      show t.segments.foldl _ _ = _
      rw [ih hrest]
      exact congrArg (Token.prepared style) (List.append_nil _).symm

/-! ## Bound templates -/

namespace Recorded

variable {ps : List Piece} {t : Template}

/-- In a bound template each place takes the values of its piece. -/
theorem placeValues_of_bound (h : Recorded ps t) {values : List (String × Json)}
    (hbound : (t.bindAll values).isBound = true) {p : Parameter} (hp : p ∈ t.occurrences) :
    ∃ x, t.placeholder? p = some x ∧
      placeValues p ((t.bindAll values).binding? p) =
        .ok (x.values (Piece.boundValues ps values)) := by
  have hvalue := (h.isBound_iff values).mp hbound p hp
  cases p with
  | index n =>
    obtain ⟨v, hv⟩ := h.index n hp
    refine ⟨.value v, by simp [placeholder?, hv], ?_⟩
    rw [binding?_bindAll, hv]
    show placeValues _ (some ⟨some v, false⟩) = _
    -- an array under a number stays one value
    rw [placeValues_some, expansion_false]
    rfl
  | named name =>
    refine ⟨.named name, rfl, ?_⟩
    have hbinding := h.binding?_bindAll_named values hp
    cases hlast : lastValue? values (.named name) with
    | none => simp [value?, hbinding, hlast] at hvalue
    | some v =>
      have hvalues : Piece.boundValues ps values name =
          expansion (Piece.expandable ps name) v := by
        unfold Piece.boundValues
        rw [hlast]
      rw [hbinding, hlast, placeValues_some]
      exact congrArg Except.ok hvalues.symm

/-- A template that is not bound fails at its first name without value. -/
theorem finalize_of_not_bound (h : Recorded ps t) {values : List (String × Json)}
    (hnot : ¬ (t.bindAll values).isBound = true) (style : PlaceStyle) :
    ∃ name, (t.bindAll values).parameters.find? (t.bindAll values).isUnbound =
        some (.named name) ∧
      (t.bindAll values).finalize style =
        .error (missing (.named name) (Piece.expandable ps name)) := by
  have hoccurrences := t.occurrences_bindAll values
  rw [h.isBound_iff values] at hnot
  have hsome : (t.occurrences.find? (t.bindAll values).isUnbound).isSome = true := by
    rw [List.find?_isSome]
    by_contra hall
    refine hnot fun p hp => Option.isSome_iff_ne_none.mpr fun hnone => hall ⟨p, hp, ?_⟩
    unfold isUnbound
    rw [hnone]
    rfl
  obtain ⟨p, hfirst⟩ := Option.isSome_iff_exists.mp hsome
  have hp : p ∈ t.occurrences := List.mem_of_find?_eq_some hfirst
  have hunbound : (t.bindAll values).isUnbound p = true := List.find?_some hfirst
  cases p with
  | index n =>
    obtain ⟨v, hv⟩ := h.binding?_bindAll_index values hp
    simp [isUnbound, value?, hv] at hunbound
  | named name =>
    have hbinding := h.binding?_bindAll_named values hp
    have hlast : lastValue? values (.named name) = none := by
      simpa [isUnbound, value?, hbinding] using hunbound
    rw [hlast] at hbinding
    refine ⟨name, ?_, finalizeFrom_of_unbound _ style ?_ hbinding ?_ _⟩
    · rw [t.parameters_bindAll values, h.parameters_eq, find?_eraseDups]
      exact hfirst
    · show (t.bindAll values).occurrences.find? _ = _
      rw [hoccurrences]
      exact hfirst
    · intro q hq
      have hmem : q ∈ t.occurrences := hoccurrences ▸ hq
      cases q with
      | index n =>
        obtain ⟨v, hv⟩ := h.binding?_bindAll_index values hmem
        exact Option.isSome_of_eq_some hv
      | named other => exact Option.isSome_of_eq_some (h.binding?_bindAll_named values hmem)

end Recorded

/-- A template of pieces that is bound finalizes to the tokens of the pieces. -/
theorem finalize_of_bound {ps : List Piece} {values : List (String × Json)}
    (hbound : ((ofPieces ps).bindAll values).isBound = true) (style : PlaceStyle) :
    ((ofPieces ps).bindAll values).finalize style =
      .ok (Token.prepared style (ps.flatMap (Piece.tokens (Piece.boundValues ps values)))) := by
  have h := recorded_ofPieces ps
  have hsegments := ((ofPieces ps).segments_bindAll values).1
  -- what a parameter takes places for is read off the place it stands at
  let taken : Parameter → List Json := fun p =>
    (((ofPieces ps).placeholder? p).map (Placeholder.values (Piece.boundValues ps values))).getD []
  have htaken : ∀ p ∈ (ofPieces ps).segments.filterMap Segment.parameter?,
      placeValues p (((ofPieces ps).bindAll values).binding? p) = .ok (taken p) := by
    intro p hp
    obtain ⟨x, hx, hvalues⟩ := h.placeValues_of_bound hbound hp
    rw [hvalues]
    show _ = Except.ok (((ofPieces ps).placeholder? p).map _ |>.getD [])
    rw [hx]
    rfl
  have hplaces : (ofPieces ps).occurrences.map taken =
      (Piece.placeholders ps).map (Placeholder.values (Piece.boundValues ps values)) := by
    have hplaceholders := congrArg
      (List.map fun x => (x.map (Placeholder.values (Piece.boundValues ps values))).getD [])
      (placeholders_ofPieces ps)
    rw [placeholders, List.map_map, List.map_map] at hplaceholders
    exact hplaceholders
  unfold finalize
  rw [hsegments, finalizeFrom_of_bound _ style taken htaken, foldl_segments_ofPieces style hplaces]

/-- Once all names are bound, a template of pieces finalizes in both styles, to the same values at
the positions from one on: those of the places in order, an array bound to a name that expands at
one of its places being taken item by item, any other value as one. The text is that of the pieces,
each place replaced by as many places as it has values, commas between them, and the k-th place of
the whole text is written as the k-th. -/
theorem finalize_bound (ps : List Piece) (values : List (String × Json))
    (hbound : ((ofPieces ps).bindAll values).isBound = true) :
    ∃ positions : List (Nat × Json),
      positions.map (·.1) = List.range' 1 positions.length ∧
      positions.map (·.2) =
        (Piece.placeholders ps).flatMap (Placeholder.values (Piece.boundValues ps values)) ∧
      ∀ style, ∃ p, ((ofPieces ps).bindAll values).finalize style = .ok p ∧
        p.positions = positions ∧
        p.sql = Token.written style (ps.flatMap (Piece.tokens (Piece.boundValues ps values))) := by
  let tokens := ps.flatMap (Piece.tokens (Piece.boundValues ps values))
  have hpositions : ∀ style,
      (Token.prepared style tokens).positions = (Token.prepared .positional tokens).positions :=
    fun _ => rfl
  refine ⟨(Token.prepared .positional tokens).positions, PreparedSql.positions_keys _, ?_,
    fun style => ⟨_, finalize_of_bound hbound style, hpositions style, rfl⟩⟩
  rw [PreparedSql.positions_values]
  exact Piece.values_tokens _ ps

/-- A list that expands from its second place on, an empty list, and an array that does not. -/
def listedPieces : List Piece :=
  [.text "a = ", .named "ids" false, .text " and a in (", .named "ids" true, .text ") or b in (",
    .named "none" true, .text ") or c = ", .value (.array [.ofNat 7, .ofNat 8])]

/-- Both places of the list expand, and what follows them is numbered on. -/
theorem finalize_bound_listedPieces :
    ∃ p, ((ofPieces listedPieces).bindAll
        [("none", .array []), ("ids", .array [.ofNat 4, .ofNat 5])]).finalize .numbered = .ok p ∧
      p.sql = "a = $1, $2 and a in ($3, $4) or b in () or c = $5" ∧
      p.positions.map (·.2) =
        [.ofNat 4, .ofNat 5, .ofNat 4, .ofNat 5, .array [.ofNat 7, .ofNat 8]] := by
  obtain ⟨positions, -, hvalues, hstyles⟩ := finalize_bound listedPieces
    [("none", .array []), ("ids", .array [.ofNat 4, .ofNat 5])] rfl
  obtain ⟨p, hp, hpositions, hsql⟩ := hstyles .numbered
  refine ⟨p, hp, hsql.trans ?_, ?_⟩
  · decide
  · rw [hpositions, hvalues]
    rfl

/-! ## Templates bound or not -/

/-- Pieces are pushed and names are bound in any order of names. The parameters are those of the
segments in the order they first occur, each once. Finalizing succeeds exactly when all have a
value; else it fails with the first parameter that has none, which is a name, and the error says
whether one of the places of the name expands. Of the binds only the last one of each name that
occurs matters: binds of different names commute, and binding a name that does not occur changes
nothing. -/
theorem finalize_isOk_iff_isBound (ps : List Piece) (values : List (String × Json)) :
    let t := (ofPieces ps).bindAll values
    (t.parameters = t.occurrences.eraseDups ∧ t.parameters.Nodup) ∧
    (∀ style, (t.finalize style).isOk = true ↔ t.isBound = true) ∧
    (∀ style e, t.finalize style = .error e →
      ∃ name, t.parameters.find? t.isUnbound = some (.named name) ∧
        e = if Piece.expandable ps name then .missingExpansionSize name
          else .unboundParameter name) ∧
    (∀ values', (∀ name, .named name ∈ t.parameters →
        lastValue? values' (.named name) = lastValue? values (.named name)) →
      (ofPieces ps).bindAll values' = t) ∧
    (∀ name v name' v', name ≠ name' →
      (t.bind name v).bind name' v' = (t.bind name' v').bind name v) ∧
    (∀ name v, .named name ∉ t.parameters → t.bind name v = t) := by
  intro t
  have h := recorded_ofPieces ps
  have hparameters : t.parameters = (ofPieces ps).parameters := parameters_bindAll _ values
  have hoccurrences : t.occurrences = (ofPieces ps).occurrences := occurrences_bindAll _ values
  have hbound : ∀ style, t.isBound = true → ∃ p, t.finalize style = .ok p :=
    fun style hbound => ⟨_, finalize_of_bound hbound style⟩
  refine ⟨⟨?_, ?_⟩, fun style => ⟨fun hok => ?_, fun hall => ?_⟩, fun style e he => ?_,
    fun values' hlast => h.bindAll_congr fun p hp => ?_, fun name v name' v' hne => ?_,
    fun name v hname => ?_⟩
  · rw [hparameters, hoccurrences]
    exact h.parameters_eq
  · rw [hparameters]
    exact h.nodup_parameters
  · by_contra hnot
    obtain ⟨name, -, herror⟩ := h.finalize_of_not_bound hnot style
    rw [herror] at hok
    exact Bool.false_ne_true hok
  · obtain ⟨p, hp⟩ := hbound style hall
    rw [hp]
    rfl
  · have hnot : ¬ t.isBound = true := by
      intro hall
      obtain ⟨p, hp⟩ := hbound style hall
      rw [hp] at he
      exact nomatch he
    obtain ⟨name, hfirst, herror⟩ := h.finalize_of_not_bound hnot style
    have heq : e = missing (.named name) (Piece.expandable ps name) :=
      Except.error.inj (he.symm.trans herror)
    exact ⟨name, hfirst, heq⟩
  · cases p with
    | index n => rfl
    | named name => exact hlast name (hparameters ▸ hp)
  · exact h.bind_comm values hne v v'
  · rw [hparameters] at hname
    exact h.bind_of_not_mem values hname v

/-- The list without value is the error, as a list that expands although its first place does
not. -/
theorem finalize_isOk_iff_isBound_listedPieces :
    ∃ e, ((ofPieces listedPieces).bindAll [("none", .null)]).finalize .positional = .error e ∧
      e = .missingExpansionSize "ids" := by
  obtain ⟨-, hok, herror, -⟩ := finalize_isOk_iff_isBound listedPieces [("none", .null)]
  have hnot : ¬ (((ofPieces listedPieces).bindAll [("none", .null)]).finalize
      .positional).isOk = true := (hok .positional).not.mpr (by decide)
  cases hfinalize : ((ofPieces listedPieces).bindAll [("none", .null)]).finalize .positional with
  | ok p =>
    rw [hfinalize] at hnot
    exact absurd rfl hnot
  | error e =>
    obtain ⟨name, hfirst, he⟩ := herror .positional e hfinalize
    have hname : name = "ids" := Parameter.named.inj (Option.some.inj (hfirst.symm.trans rfl))
    refine ⟨e, rfl, ?_⟩
    rw [he, hname]
    rfl

end Template

end SqlGraph
