import Mathlib.Data.List.Basic
import SqlGraph.Render.Inline
import SqlGraph.Template.Finalize
import SqlGraph.Template.Prepared

/-!
# The places of a template

Reading a template back: the parameters of its segments in order (`occurrences`), what each one
stands for (`placeholder?`), and the text with every place written out (`inlined?`). For a
template built from pieces all three are told by the pieces:

* `placeholders_ofPieces`, the places are the values and names of the pieces, in order;
* `inlined?_ofPieces`, writing the places out gives the inline text of the pieces;
* `finalize_of_values`, a template whose places are all values finalizes to those values.

What carries them is `Numbered`: the numbers in use are the ones given out so far, so that a value
pushed later never changes what an earlier place stands for.
-/

namespace SqlGraph

/-- What stands at a place: a value, or a name bound later. -/
inductive Placeholder where
  | value (v : Json)
  | named (name : String)

/-- A place written out: the literal of its value, or its name after a colon. -/
def Placeholder.inlined : Placeholder → String
  | .value v => v.literal
  | .named name => ":" ++ name

/-- What a piece leaves a place for. -/
def Piece.placeholder? : Piece → Option Placeholder
  | .value v => some (.value v)
  | .named name _ => some (.named name)
  | .text _ => none
  | .dangling => none

/-- The places that pieces leave, in order. -/
def Piece.placeholders (ps : List Piece) : List Placeholder := ps.filterMap Piece.placeholder?

theorem Piece.placeholders_append (ps qs : List Piece) :
    Piece.placeholders (ps ++ qs) = Piece.placeholders ps ++ Piece.placeholders qs :=
  List.filterMap_append

theorem Inline.text_append (ps qs : List Piece) :
    Inline.text (ps ++ qs) = Inline.text ps ++ Inline.text qs := by
  rw [Inline.text, List.map_append, String.join_append]
  rfl

/-- The parameter of a segment. -/
def Segment.parameter? : Segment → Option Parameter
  | .text _ => none
  | .parameter p => some p

namespace Template

/-- The parameters of the segments, in order. -/
def occurrences (t : Template) : List Parameter := t.segments.filterMap Segment.parameter?

/-- What a parameter stands for; nothing when it is a number without value. -/
def placeholder? (t : Template) : Parameter → Option Placeholder
  | .index n => ((t.binding? (.index n)).bind (·.value)).map .value
  | .named name => some (.named name)

/-- The places of the segments, in order. -/
def placeholders (t : Template) : List (Option Placeholder) := t.occurrences.map t.placeholder?

/-- A segment with its place written out. -/
def inlinedSegment? (t : Template) : Segment → Option String
  | .text s => some s
  | .parameter p => (t.placeholder? p).map Placeholder.inlined

/-- Segments written one after the other, absent when one of them is. -/
def joinSegments? (write : Segment → Option String) : List Segment → Option String
  | [] => some ""
  | segment :: rest =>
    (write segment).bind fun text => (joinSegments? write rest).map fun texts => text ++ texts

/-- The text with every place written out, absent when a number has no value. -/
def inlined? (t : Template) : Option String := joinSegments? t.inlinedSegment? t.segments

/-! ## Bindings -/

/-- The numbers in use were given out before, and stand for one place each. -/
structure Numbered (t : Template) : Prop where
  le_of_mem : ∀ n, Parameter.index n ∈ t.occurrences → n ≤ t.valueCount
  le_of_binding : ∀ n b, t.binding? (.index n) = some b → n ≤ t.valueCount
  not_expandable : ∀ n b, t.binding? (.index n) = some b → b.expandable = false

/-- Changing one binding leaves the others. -/
theorem lookup_modifyBinding_ne {p q : Parameter} (f : Binding → Binding) (hne : q ≠ p)
    (bindings : List (Parameter × Binding)) :
    (modifyBinding p f bindings).lookup q = bindings.lookup q := by
  induction bindings with
  | nil => rfl
  | cons entry rest ih =>
    obtain ⟨r, b⟩ := entry
    unfold modifyBinding
    by_cases hr : r = p
    · subst hr
      rw [if_pos rfl, List.lookup_cons, List.lookup_cons, beq_false_of_ne hne]
    · rw [if_neg hr, List.lookup_cons, List.lookup_cons, ih]

/-- One more place of a name leaves the bindings of all other parameters. -/
theorem lookup_mergeNamed_ne {p q : Parameter} (expandable : Bool) (hne : q ≠ p)
    (bindings : List (Parameter × Binding)) :
    (mergeNamed p expandable bindings).lookup q = bindings.lookup q := by
  unfold mergeNamed
  cases bindings.lookup p with
  | some _ => exact lookup_modifyBinding_ne _ hne bindings
  | none =>
    show (bindings ++ _).lookup q = _
    rw [List.lookup_append, List.lookup_cons, beq_false_of_ne hne, List.lookup_nil, Option.or_none]

@[simp] theorem binding?_pushText (t : Template) (s : String) (p : Parameter) :
    (t.pushText s).binding? p = t.binding? p := rfl

@[simp] theorem binding?_index_pushNamed (t : Template) (name : String) (expandable : Bool)
    (n : Nat) : (t.pushNamed name expandable).binding? (.index n) = t.binding? (.index n) :=
  lookup_mergeNamed_ne expandable (by simp) t.bindings

/-- A value is bound under the next number. -/
theorem binding?_pushValue (t : Template) (v : Json) (p : Parameter) :
    (t.pushValue v).binding? p =
      (t.binding? p).or (if p = .index (t.valueCount + 1) then some ⟨some v, false⟩ else none) := by
  unfold binding? pushValue
  show (t.bindings ++ _).lookup _ = _
  rw [List.lookup_append]
  by_cases hp : p = .index (t.valueCount + 1)
  · simp [hp]
  · rw [List.lookup_cons, beq_false_of_ne hp, List.lookup_nil, if_neg hp]

/-! ## Segments -/

private theorem filterMap_appendText (s : String) (segments : List Segment) :
    (appendText s segments).filterMap Segment.parameter? =
      segments.filterMap Segment.parameter? := by
  fun_induction appendText s segments with
  | case1 => rfl
  | case2 => rfl
  | case3 segment rest _ ih => rw [List.filterMap_cons, List.filterMap_cons, ih]

@[simp] theorem occurrences_pushText (t : Template) (s : String) :
    (t.pushText s).occurrences = t.occurrences := filterMap_appendText s t.segments

@[simp] theorem occurrences_pushValue (t : Template) (v : Json) :
    (t.pushValue v).occurrences = t.occurrences ++ [.index (t.valueCount + 1)] := by
  simp [occurrences, pushValue, Segment.parameter?]

@[simp] theorem occurrences_pushNamed (t : Template) (name : String) (expandable : Bool) :
    (t.pushNamed name expandable).occurrences = t.occurrences ++ [.named name] := by
  simp [occurrences, pushNamed, Segment.parameter?]

/-- The next number is not in use. -/
theorem Numbered.next_not_mem {t : Template} (ht : t.Numbered) :
    Parameter.index (t.valueCount + 1) ∉ t.occurrences := by
  intro hmem
  have hle := ht.le_of_mem _ hmem
  omega

/-- The next number is not bound. -/
theorem Numbered.binding?_next {t : Template} (ht : t.Numbered) :
    t.binding? (.index (t.valueCount + 1)) = none := by
  cases hbinding : t.binding? (.index (t.valueCount + 1)) with
  | none => rfl
  | some b =>
    have hle := ht.le_of_binding _ b hbinding
    omega

/-- A value gets the next number. -/
private theorem Numbered.pushValue {t : Template} (ht : t.Numbered) (v : Json) :
    (t.pushValue v).Numbered where
  le_of_mem n hn := by
    rw [occurrences_pushValue, List.mem_append, List.mem_singleton] at hn
    show n ≤ t.valueCount + 1
    rcases hn with hold | hnew
    · have hle := ht.le_of_mem n hold
      omega
    · exact Nat.le_of_eq (Parameter.index.inj hnew)
  le_of_binding n b hb := by
    show n ≤ t.valueCount + 1
    rw [binding?_pushValue] at hb
    cases hold : t.binding? (.index n) with
    | some _ =>
      have hle := ht.le_of_binding n _ hold
      omega
    | none =>
      rw [hold, Option.none_or, Option.ite_none_right_eq_some] at hb
      exact Nat.le_of_eq (Parameter.index.inj hb.1)
  not_expandable n b hb := by
    rw [binding?_pushValue] at hb
    cases hold : t.binding? (.index n) with
    | some _ =>
      rw [hold, Option.some_or] at hb
      exact ht.not_expandable n b (hold.trans hb)
    | none =>
      rw [hold, Option.none_or, Option.ite_none_right_eq_some] at hb
      rw [← Option.some.inj hb.2]

/-- Every piece keeps the numbers in use. -/
theorem Numbered.pushPiece {t : Template} (ht : t.Numbered) (p : Piece) :
    (t.pushPiece p).Numbered := by
  cases p with
  | text s =>
    exact ⟨fun n hn => ht.le_of_mem n (occurrences_pushText t s ▸ hn), ht.le_of_binding,
      ht.not_expandable⟩
  | value v => exact ht.pushValue v
  | named name expandable =>
    refine ⟨fun n hn => ht.le_of_mem n ?_, fun n b hb => ht.le_of_binding n b ?_,
      fun n b hb => ht.not_expandable n b ?_⟩
    · have hmem : Parameter.index n ∈ (t.pushNamed name expandable).occurrences := hn
      simpa using hmem
    · exact binding?_index_pushNamed t name expandable n ▸ hb
    · exact binding?_index_pushNamed t name expandable n ▸ hb
  | dangling => exact ht

private theorem Numbered.pushPieces {t : Template} (ht : t.Numbered) (ps : List Piece) :
    (t.pushPieces ps).Numbered := by
  induction ps generalizing t with
  | nil => exact ht
  | cons x rest ih => exact ih (ht.pushPiece x)

/-- The empty template has no number in use. -/
theorem numbered_empty : ({} : Template).Numbered where
  le_of_mem n hn := by simp [occurrences] at hn
  le_of_binding n b hb := by simp [binding?] at hb
  not_expandable n b hb := by simp [binding?] at hb

/-! ## What the places stand for -/

/-- No piece changes what a parameter in use stands for. -/
private theorem placeholder?_pushPiece {t : Template} (x : Piece) {p : Parameter}
    (hp : p ∈ t.occurrences) (ht : t.Numbered) :
    (t.pushPiece x).placeholder? p = t.placeholder? p := by
  cases p with
  | named name => rfl
  | index n =>
    cases x with
    | text s => rfl
    | value v =>
      -- the new value is bound under a number that is not in use
      have hne : n ≠ t.valueCount + 1 := fun heq => ht.next_not_mem (heq ▸ hp)
      simp [pushPiece, placeholder?, binding?_pushValue, hne]
    | named name expandable => simp [pushPiece, placeholder?]
    | dangling => rfl

/-- A value stands for itself under its new number. -/
private theorem placeholder?_pushValue_next {t : Template} (ht : t.Numbered) (v : Json) :
    (t.pushValue v).placeholder? (.index (t.valueCount + 1)) = some (.value v) := by
  simp [placeholder?, binding?_pushValue, ht.binding?_next]

/-- A piece adds its place after the others. -/
private theorem placeholders_pushPiece {t : Template} (ht : t.Numbered) (x : Piece) :
    (t.pushPiece x).placeholders = t.placeholders ++ x.placeholder?.toList.map some := by
  have hold : t.occurrences.map (t.pushPiece x).placeholder? = t.placeholders :=
    List.map_congr_left fun p hp => placeholder?_pushPiece x hp ht
  cases x with
  | text s =>
    show (t.pushText s).occurrences.map _ = _
    rw [occurrences_pushText, hold]
    exact (List.append_nil _).symm
  | value v =>
    show (t.pushValue v).occurrences.map _ = _
    rw [occurrences_pushValue, List.map_append, hold]
    exact congrArg (fun o => t.placeholders ++ [o]) (placeholder?_pushValue_next ht v)
  | named name expandable =>
    show (t.pushNamed name expandable).occurrences.map _ = _
    rw [occurrences_pushNamed, List.map_append, hold]
    rfl
  | dangling => exact (List.append_nil _).symm

private theorem placeholders_pushPieces {t : Template} (ht : t.Numbered) (ps : List Piece) :
    (t.pushPieces ps).placeholders = t.placeholders ++ (Piece.placeholders ps).map some := by
  induction ps generalizing t with
  | nil => exact (List.append_nil _).symm
  | cons x rest ih =>
    show ((t.pushPiece x).pushPieces rest).placeholders = _
    rw [ih (ht.pushPiece x), placeholders_pushPiece ht x, List.append_assoc, ← List.map_append]
    cases x <;> rfl

/-- The places of the template of pieces are those that the pieces leave. -/
theorem placeholders_ofPieces (ps : List Piece) :
    (ofPieces ps).placeholders = (Piece.placeholders ps).map some :=
  placeholders_pushPieces numbered_empty ps

/-- Pieces appended to a template of pieces come after them. -/
theorem ofPieces_append (ps qs : List Piece) : ofPieces (ps ++ qs) = (ofPieces ps).pushPieces qs :=
  List.foldl_append

/-! ## Places written out -/

section Join

variable {write write' : Segment → Option String}

/-- Only the text of the segments at hand matters. -/
private theorem joinSegments?_congr {segments : List Segment}
    (h : ∀ segment ∈ segments, write segment = write' segment) :
    joinSegments? write segments = joinSegments? write' segments := by
  induction segments with
  | nil => rfl
  | cons segment rest ih =>
    have hrest := ih fun other hother => h other (List.mem_cons_of_mem segment hother)
    unfold joinSegments?
    rw [h segment List.mem_cons_self, hrest]

/-- One more segment adds its text at the end. -/
private theorem joinSegments?_concat {last : Segment} {s : String} (hlast : write last = some s)
    (segments : List Segment) :
    joinSegments? write (segments ++ [last]) = (joinSegments? write segments).map (· ++ s) := by
  induction segments with
  | nil => simp [joinSegments?, hlast]
  | cons segment rest ih =>
    rw [List.cons_append]
    unfold joinSegments?
    rw [ih]
    cases write segment with
    | none => rfl
    | some text => cases joinSegments? write rest <;> simp [String.append_assoc]

/-- Appended text comes at the end, also when it goes into the last segment. -/
private theorem joinSegments?_appendText (hwrite : ∀ s, write (.text s) = some s) (s : String)
    (segments : List Segment) :
    joinSegments? write (appendText s segments) = (joinSegments? write segments).map (· ++ s) := by
  fun_induction appendText s segments with
  | case1 => simp [joinSegments?, hwrite]
  | case2 t => simp [joinSegments?, hwrite]
  | case3 segment rest _ ih =>
    unfold joinSegments?
    rw [ih]
    cases write segment with
    | none => rfl
    | some text => cases joinSegments? write rest <;> simp [String.append_assoc]

end Join

/-- A piece adds its inline text at the end. -/
private theorem inlined?_pushPiece {t : Template} (ht : t.Numbered) (x : Piece) :
    (t.pushPiece x).inlined? = t.inlined?.map (· ++ Inline.piece x) := by
  have hold : joinSegments? (t.pushPiece x).inlinedSegment? t.segments = t.inlined? := by
    refine joinSegments?_congr fun segment hsegment => ?_
    cases segment with
    | text s => rfl
    | parameter p =>
      have hp : p ∈ t.occurrences := List.mem_filterMap.mpr ⟨_, hsegment, rfl⟩
      exact congrArg (Option.map Placeholder.inlined) (placeholder?_pushPiece x hp ht)
  cases x with
  | text s =>
    show joinSegments? _ (appendText s t.segments) = _
    rw [joinSegments?_appendText fun _ => rfl, hold]
    rfl
  | value v =>
    have hlast : (t.pushPiece (.value v)).inlinedSegment?
        (.parameter (.index (t.valueCount + 1))) = some v.literal :=
      congrArg (Option.map Placeholder.inlined) (placeholder?_pushValue_next ht v)
    show joinSegments? _ (t.segments ++ [_]) = _
    rw [joinSegments?_concat hlast, hold]
    rfl
  | named name expandable =>
    have hlast : (t.pushPiece (.named name expandable)).inlinedSegment?
        (.parameter (.named name)) = some (":" ++ name) := rfl
    show joinSegments? _ (t.segments ++ [_]) = _
    rw [joinSegments?_concat hlast, hold]
    rfl
  | dangling =>
    show t.inlined? = _
    cases t.inlined? <;> simp [Inline.piece]

private theorem inlined?_pushPieces {t : Template} (ht : t.Numbered) (ps : List Piece) :
    (t.pushPieces ps).inlined? = t.inlined?.map (· ++ Inline.text ps) := by
  induction ps generalizing t with
  | nil =>
    show t.inlined? = _
    cases t.inlined? <;> simp [Inline.text]
  | cons x rest ih =>
    show ((t.pushPiece x).pushPieces rest).inlined? = _
    rw [ih (ht.pushPiece x), inlined?_pushPiece ht x, Option.map_map]
    have htext : Inline.text (x :: rest) = Inline.piece x ++ Inline.text rest := by
      simp [Inline.text]
    rw [htext]
    congr 1
    funext done
    exact String.append_assoc

/-- The template of pieces, written out, is the inline text of the pieces. -/
theorem inlined?_ofPieces (ps : List Piece) : (ofPieces ps).inlined? = some (Inline.text ps) := by
  rw [ofPieces, inlined?_pushPieces numbered_empty]
  simp [inlined?, joinSegments?]

/-! ## Finalizing values -/

/-- A parameter that stands for a value is bound to it, in one place. -/
theorem Numbered.binding?_of_placeholder? {t : Template} (ht : t.Numbered)
    {p : Parameter} {v : Json} (h : t.placeholder? p = some (.value v)) :
    t.binding? p = some ⟨some v, false⟩ := by
  cases p with
  | named name => simp [placeholder?] at h
  | index n =>
    cases hb : t.binding? (.index n) with
    | none => simp [placeholder?, hb] at h
    | some b =>
      have hexpandable := ht.not_expandable n b hb
      obtain ⟨value, expandable⟩ := b
      cases value with
      | none => simp [placeholder?, hb] at h
      | some w =>
        obtain rfl : w = v := by simpa [placeholder?, hb] using h
        obtain rfl : expandable = false := hexpandable
        rfl

/-- Segments whose parameters are bound to plain values finalize, to those values in order. -/
private theorem finalizeFrom_of_values (t : Template) (style : PlaceStyle) (done : PreparedSql)
    {segments : List Segment} {vs : List Json}
    (h : (segments.filterMap Segment.parameter?).map t.binding? =
      vs.map fun v => some ⟨some v, false⟩) :
    ∃ p, t.finalizeFrom style done segments = .ok p ∧ p.values = done.values ++ vs := by
  induction segments generalizing done vs with
  | nil =>
    obtain rfl : vs = [] := by simpa using h.symm
    exact ⟨done, rfl, (List.append_nil _).symm⟩
  | cons segment rest ih =>
    cases segment with
    | text s => exact ih (done.write s) h
    | parameter p =>
      cases vs with
      | nil => simp [Segment.parameter?] at h
      | cons v vs =>
        obtain ⟨hp, hrest⟩ := List.cons.inj h
        obtain ⟨q, hq, hvalues⟩ := ih (done.place style v) hrest
        -- an array under a plain binding stays one value
        have hplaces : placeValues p (t.binding? p) = .ok [v] := by
          rw [hp]
          cases v <;> rfl
        refine ⟨q, ?_, ?_⟩
        · unfold finalizeFrom
          rw [hplaces]
          exact hq
        · rw [hvalues, PreparedSql.place, List.append_assoc]
          rfl

/-- A template of pieces that leave places for values only finalizes, and binds each value to its
position. -/
theorem finalize_ofPieces {ps : List Piece} {vs : List Json}
    (h : Piece.placeholders ps = vs.map .value) (style : PlaceStyle) :
    ∃ p, (ofPieces ps).finalize style = .ok p ∧
      p.positions = vs.mapIdx fun i v => (i + 1, v) := by
  have hnumbered : (ofPieces ps).Numbered := numbered_empty.pushPieces ps
  have hplaces := placeholders_ofPieces ps
  rw [h] at hplaces
  -- the places stand for the values, and only a plain binding stands for a value
  have hbindings : (ofPieces ps).occurrences.map (ofPieces ps).binding? =
      vs.map fun v => some ⟨some v, false⟩ := by
    apply List.ext_getElem?
    intro i
    have hi := congrArg (·[i]?) hplaces
    simp only [placeholders, List.getElem?_map] at hi ⊢
    cases hp : (ofPieces ps).occurrences[i]? with
    | none => cases hv : vs[i]? <;> simp [hp, hv] at hi ⊢
    | some p =>
      cases hv : vs[i]? with
      | none => simp [hp, hv] at hi
      | some v =>
        simp only [hp, hv, Option.map_some, Option.some.injEq] at hi
        exact congrArg some (hnumbered.binding?_of_placeholder? hi)
  obtain ⟨p, hp, hvalues⟩ := finalizeFrom_of_values (ofPieces ps) style ⟨"", []⟩ hbindings
  refine ⟨p, hp, ?_⟩
  rw [PreparedSql.positions, hvalues, List.nil_append]

end Template

end SqlGraph
