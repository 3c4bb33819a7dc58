import SqlGraph.Proofs.Lists
import SqlGraph.Proofs.Template.Places

/-!
# The bindings of a template

A template keeps its places in its segments and the values of its parameters in its bindings. For a
template built from pieces the two tell the same story (`Recorded`): the parameters bound are those
of the segments in the order they first occur, a number has its value, and a name has none yet and
is expandable as soon as one of its pieces is.

Binding names changes values only, and of the values bound to a name the last one stays
(`binding?_bindAll`). Templates with the same parameters and the same binding for each of them are
the same (`ext_of_binding?`), so the values that names have last are all that matters
(`Recorded.bindAll_congr`).
-/

namespace SqlGraph

/-! ## Names that expand -/

/-- Whether a piece is a place of a name that expands. -/
def Piece.expands (name : String) : Piece → Bool
  | .named other expandable => other == name && expandable
  | _ => false

/-- Whether a name expands at one of the pieces. -/
def Piece.expandable (ps : List Piece) (name : String) : Bool := ps.any (Piece.expands name)

theorem Piece.expandable_concat (ps : List Piece) (x : Piece) (name : String) :
    Piece.expandable (ps ++ [x]) name = (Piece.expandable ps name || x.expands name) := by
  simp [expandable]

namespace Template

/-! ## Lists of bindings -/

section Lists

variable (p : Parameter) (f : Binding → Binding) (bindings : List (Parameter × Binding))

theorem keys_modifyBinding :
    (modifyBinding p f bindings).map (·.1) = bindings.map (·.1) := by
  fun_induction modifyBinding p f bindings with
  | case1 => rfl
  | case2 => rfl
  | case3 q b rest _ ih => rw [List.map_cons, List.map_cons, ih]

theorem lookup_modifyBinding_self :
    (modifyBinding p f bindings).lookup p = (bindings.lookup p).map f := by
  fun_induction modifyBinding p f bindings with
  | case1 => rfl
  | case2 b rest => simp
  | case3 q b rest hne ih =>
    rw [List.lookup_cons, List.lookup_cons, beq_false_of_ne (Ne.symm hne), ih]

/-- A parameter has a binding when it is one of the keys. -/
theorem lookup_isSome_iff_mem :
    (bindings.lookup p).isSome = true ↔ p ∈ bindings.map (·.1) := by
  rw [List.lookup_isSome_iff, List.mem_map]
  constructor
  · rintro ⟨entry, hentry, hkey⟩
    exact ⟨entry, hentry, (beq_iff_eq.mp hkey).symm⟩
  · rintro ⟨entry, hentry, hkey⟩
    exact ⟨entry, hentry, beq_iff_eq.mpr hkey.symm⟩

/-- One more place of a parameter lists it after the others, unless it is there already. -/
theorem keys_mergeNamed (expandable : Bool) :
    (mergeNamed p expandable bindings).map (·.1) =
      if p ∈ bindings.map (·.1) then bindings.map (·.1) else bindings.map (·.1) ++ [p] := by
  have hiff := lookup_isSome_iff_mem p bindings
  unfold mergeNamed
  cases hlookup : bindings.lookup p with
  | some b =>
    rw [hlookup] at hiff
    rw [if_pos (hiff.mp rfl)]
    exact keys_modifyBinding p _ bindings
  | none =>
    rw [hlookup] at hiff
    rw [if_neg fun hmem => Bool.false_ne_true (hiff.mpr hmem)]
    exact List.map_append

theorem lookup_mergeNamed_self (expandable : Bool) :
    (mergeNamed p expandable bindings).lookup p =
      some (match bindings.lookup p with
        | some b => { b with expandable := b.expandable || expandable }
        | none => ⟨none, expandable⟩) := by
  unfold mergeNamed
  cases hlookup : bindings.lookup p with
  | some b =>
    show (modifyBinding p _ bindings).lookup p = _
    rw [lookup_modifyBinding_self, hlookup]
    rfl
  | none =>
    show (bindings ++ _).lookup p = _
    rw [List.lookup_append, hlookup]
    simp

/-- With distinct keys, an entry is the one that is looked up. -/
theorem mem_iff_lookup {bindings : List (Parameter × Binding)}
    (hnodup : (bindings.map (·.1)).Nodup) (b : Binding) :
    (p, b) ∈ bindings ↔ bindings.lookup p = some b := by
  induction bindings with
  | nil => simp
  | cons entry rest ih =>
    obtain ⟨q, c⟩ := entry
    obtain ⟨hfirst, hrest⟩ := List.nodup_cons.mp hnodup
    rw [List.lookup_cons, List.mem_cons, Prod.mk.injEq]
    by_cases hpq : p = q
    · subst hpq
      have hnot : (p, b) ∉ rest := fun hmem => hfirst (List.mem_map.mpr ⟨_, hmem, rfl⟩)
      simp [hnot, eq_comm]
    · rw [beq_false_of_ne hpq]
      simpa [hpq] using ih hrest

/-- Bindings with the same distinct keys and the same value for each are the same. -/
theorem bindings_ext {bindings bindings' : List (Parameter × Binding)}
    (hkeys : bindings.map (·.1) = bindings'.map (·.1)) (hnodup : (bindings.map (·.1)).Nodup)
    (hlookup : ∀ p ∈ bindings.map (·.1), bindings.lookup p = bindings'.lookup p) :
    bindings = bindings' := by
  have hentries : ∀ entries : List (Parameter × Binding), (entries.map (·.1)).Nodup →
      entries.map some = (entries.map (·.1)).map fun p => (entries.lookup p).map (p, ·) := by
    intro entries hentries
    rw [List.map_map]
    refine List.map_congr_left fun entry hentry => ?_
    have hself := (mem_iff_lookup entry.1 hentries entry.2).mp hentry
    simp [hself]
  refine (List.map_inj_right fun _ _ => Option.some.inj).mp ?_
  rw [hentries bindings hnodup, hentries bindings' (hkeys ▸ hnodup), ← hkeys]
  exact List.map_congr_left fun p hp => by rw [hlookup p hp]

end Lists

/-! ## What is pushed -/

/-- What the bindings of a template say about the pieces that were pushed to it. -/
structure Recorded (ps : List Piece) (t : Template) : Prop where
  numbered : t.Numbered
  /-- the parameters bound are those of the segments, in the order they first occur -/
  parameters_eq : t.parameters = t.occurrences.eraseDups
  /-- a number has its value -/
  index : ∀ n, .index n ∈ t.occurrences → ∃ v, t.binding? (.index n) = some ⟨some v, false⟩
  /-- a name has no value and is expandable as soon as one of its pieces is -/
  named : ∀ name, .named name ∈ t.occurrences →
    t.binding? (.named name) = some ⟨none, Piece.expandable ps name⟩
  /-- a name that expands occurs -/
  occurs : ∀ name, Piece.expandable ps name = true → .named name ∈ t.occurrences

namespace Recorded

variable {ps : List Piece} {t : Template}

theorem nodup_parameters (h : Recorded ps t) : t.parameters.Nodup := by
  rw [h.parameters_eq]
  exact nodup_eraseDups _

theorem mem_parameters (h : Recorded ps t) {p : Parameter} :
    p ∈ t.parameters ↔ p ∈ t.occurrences := by
  rw [h.parameters_eq]
  exact List.mem_eraseDups

/-- A parameter that does not occur is not bound. -/
theorem binding?_eq_none (h : Recorded ps t) {p : Parameter} (hp : p ∉ t.occurrences) :
    t.binding? p = none := by
  have hkeys := (lookup_isSome_iff_mem p t.bindings).not.mpr (h.mem_parameters.not.mpr hp)
  exact Option.not_isSome_iff_eq_none.mp hkeys

private theorem empty : Recorded [] {} where
  numbered := numbered_empty
  parameters_eq := rfl
  index n hn := by simp [occurrences] at hn
  named name hname := by simp [occurrences] at hname
  occurs name hname := by simp [Piece.expandable] at hname

private theorem pushText (h : Recorded ps t) (s : String) :
    Recorded (ps ++ [.text s]) (t.pushText s) := by
  have hexpandable : Piece.expandable (ps ++ [.text s]) = Piece.expandable ps := by
    funext name
    rw [Piece.expandable_concat]
    exact Bool.or_false _
  constructor
  · exact h.numbered.pushPiece (.text s)
  · rw [occurrences_pushText]
    exact h.parameters_eq
  · rw [occurrences_pushText]
    exact h.index
  · rw [occurrences_pushText, hexpandable]
    exact h.named
  · rw [occurrences_pushText, hexpandable]
    exact h.occurs

private theorem pushValue (h : Recorded ps t) (v : Json) :
    Recorded (ps ++ [.value v]) (t.pushValue v) := by
  have hexpandable : Piece.expandable (ps ++ [.value v]) = Piece.expandable ps := by
    funext name
    rw [Piece.expandable_concat]
    exact Bool.or_false _
  have hnext := h.numbered.next_not_mem
  constructor
  · exact h.numbered.pushPiece (.value v)
  · have hparameters : (t.pushValue v).parameters = t.parameters ++ [.index (t.valueCount + 1)] :=
      List.map_append
    rw [hparameters, occurrences_pushValue, eraseDups_concat, h.parameters_eq,
      if_neg (List.contains_iff_mem.not.mpr hnext)]
  · intro n hn
    rw [occurrences_pushValue, List.mem_append, List.mem_singleton] at hn
    rw [binding?_pushValue]
    rcases hn with hold | hnew
    · obtain ⟨w, hw⟩ := h.index n hold
      exact ⟨w, by rw [hw, Option.some_or]⟩
    · exact ⟨v, by rw [hnew, h.numbered.binding?_next, Option.none_or, if_pos rfl]⟩
  · intro name hname
    have hold : .named name ∈ t.occurrences := by simpa using hname
    rw [binding?_pushValue, h.named name hold, hexpandable, Option.some_or]
  · intro name hname
    rw [hexpandable] at hname
    simpa using h.occurs name hname

private theorem pushNamed (h : Recorded ps t) (name : String) (expandable : Bool) :
    Recorded (ps ++ [.named name expandable]) (t.pushNamed name expandable) := by
  have hparameters : (t.pushNamed name expandable).parameters =
      if .named name ∈ t.parameters then t.parameters else t.parameters ++ [.named name] :=
    keys_mergeNamed (.named name) t.bindings expandable
  have hself : Piece.expandable (ps ++ [.named name expandable]) name =
      (Piece.expandable ps name || expandable) := by
    rw [Piece.expandable_concat]
    simp [Piece.expands]
  have hother : ∀ other, other ≠ name →
      Piece.expandable (ps ++ [.named name expandable]) other = Piece.expandable ps other := by
    intro other hne
    rw [Piece.expandable_concat]
    simp [Piece.expands, Ne.symm hne]
  constructor
  · exact h.numbered.pushPiece (.named name expandable)
  · rw [hparameters, occurrences_pushNamed, eraseDups_concat]
    simp only [h.mem_parameters, List.contains_iff_mem, ← h.parameters_eq]
  · intro n hn
    rw [binding?_index_pushNamed]
    exact h.index n (by simpa using hn)
  · intro other hmem
    by_cases heq : other = name
    · subst heq
      show (mergeNamed _ expandable t.bindings).lookup _ = _
      rw [lookup_mergeNamed_self, hself]
      by_cases hold : .named other ∈ t.occurrences
      · have hbinding : t.bindings.lookup (.named other) = _ := h.named other hold
        rw [hbinding]
      · have hbinding : t.bindings.lookup (.named other) = _ := h.binding?_eq_none hold
        have hfirst : Piece.expandable ps other = false :=
          Bool.eq_false_iff.mpr fun hexpands => hold (h.occurs other hexpands)
        rw [hbinding, hfirst, Bool.false_or]
    · have hne : Parameter.named other ≠ .named name := fun hp => heq (Parameter.named.inj hp)
      have hold : .named other ∈ t.occurrences := by simpa [heq] using hmem
      show (mergeNamed _ expandable t.bindings).lookup _ = _
      rw [lookup_mergeNamed_ne expandable hne, hother other heq]
      exact h.named other hold
  · intro other hexpands
    rw [occurrences_pushNamed, List.mem_append, List.mem_singleton]
    by_cases heq : other = name
    · exact .inr (congrArg Parameter.named heq)
    · rw [hother other heq] at hexpands
      exact .inl (h.occurs other hexpands)

end Recorded

/-- The bindings of a template of pieces. -/
theorem recorded_ofPieces (ps : List Piece) : Recorded ps (ofPieces ps) := by
  induction ps using List.reverseRecOn with
  | nil => exact .empty
  | append_singleton rest x ih =>
    rw [ofPieces_append]
    cases x with
    | text s => exact ih.pushText s
    | value v => exact ih.pushValue v
    | named name expandable => exact ih.pushNamed name expandable
    | dangling =>
      have hexpandable : Piece.expandable (rest ++ [.dangling]) = Piece.expandable rest := by
        funext name
        rw [Piece.expandable_concat]
        exact Bool.or_false _
      exact ⟨ih.numbered, ih.parameters_eq, ih.index, hexpandable ▸ ih.named,
        hexpandable ▸ ih.occurs⟩

/-! ## What is bound -/

/-- The value that a parameter is bound to last; numbers are never bound by name. -/
def lastValue? (values : List (String × Json)) : Parameter → Option Json
  | .index _ => none
  | .named name => values.reverse.lookup name

/-- A name that is bound once more has the new value, and the others keep theirs. -/
theorem lastValue?_concat (values : List (String × Json)) (name : String) (v : Json)
    (p : Parameter) :
    lastValue? (values ++ [(name, v)]) p =
      if p = .named name then some v else lastValue? values p := by
  cases p with
  | index n => rfl
  | named other =>
    by_cases hother : other = name
    · simp [lastValue?, hother]
    · simp [lastValue?, List.lookup_cons, beq_false_of_ne hother, hother]

/-- The value of a parameter, once it has one. -/
def value? (t : Template) (p : Parameter) : Option Json := (t.binding? p).bind (·.value)

section Bind

variable (t : Template) (values : List (String × Json))

theorem bindAll_concat (name : String) (v : Json) :
    t.bindAll (values ++ [(name, v)]) = (t.bindAll values).bind name v := List.foldl_append

/-- Binding names leaves the segments and the numbers given out. -/
theorem segments_bindAll :
    (t.bindAll values).segments = t.segments ∧ (t.bindAll values).valueCount = t.valueCount := by
  induction values using List.reverseRecOn with
  | nil => exact ⟨rfl, rfl⟩
  | append_singleton rest entry ih =>
    rw [bindAll_concat]
    exact ih

theorem occurrences_bindAll : (t.bindAll values).occurrences = t.occurrences :=
  congrArg (List.filterMap Segment.parameter?) (t.segments_bindAll values).1

theorem parameters_bindAll : (t.bindAll values).parameters = t.parameters := by
  induction values using List.reverseRecOn with
  | nil => rfl
  | append_singleton rest entry ih =>
    rw [bindAll_concat, ← ih]
    exact keys_modifyBinding _ _ _

/-- The value bound last takes the place of the value there was. -/
theorem binding?_bindAll (p : Parameter) :
    (t.bindAll values).binding? p =
      (t.binding? p).map fun b => { b with value := (lastValue? values p).or b.value } := by
  induction values using List.reverseRecOn with
  | nil =>
    have hnone : lastValue? [] p = none := by cases p <;> rfl
    show t.binding? p = _
    cases t.binding? p <;> simp [hnone]
  | append_singleton rest entry ih =>
    obtain ⟨name, v⟩ := entry
    rw [bindAll_concat]
    rw [lastValue?_concat]
    by_cases hp : p = .named name
    · rw [if_pos hp]
      show (modifyBinding _ _ (t.bindAll rest).bindings).lookup p = _
      rw [← hp, lookup_modifyBinding_self]
      change Option.map _ ((t.bindAll rest).binding? p) = _
      rw [ih]
      cases t.binding? p <;> rfl
    · rw [if_neg hp, ← ih]
      exact lookup_modifyBinding_ne _ hp _

end Bind

/-- Templates with the same segments, parameters and bindings are the same. -/
theorem ext_of_binding? {t t' : Template} (hsegments : t.segments = t'.segments)
    (hcount : t.valueCount = t'.valueCount) (hparameters : t.parameters = t'.parameters)
    (hnodup : t.parameters.Nodup) (hbinding : ∀ p ∈ t.parameters, t.binding? p = t'.binding? p) :
    t = t' := by
  obtain ⟨segments, bindings, valueCount⟩ := t
  obtain ⟨segments', bindings', valueCount'⟩ := t'
  obtain rfl : segments = segments' := hsegments
  obtain rfl : valueCount = valueCount' := hcount
  obtain rfl : bindings = bindings' := bindings_ext hparameters hnodup hbinding
  rfl

namespace Recorded

variable {ps : List Piece} {t : Template}

/-- Only the value that each parameter is bound to last matters. -/
theorem bindAll_congr (h : Recorded ps t) {values values' : List (String × Json)}
    (hlast : ∀ p ∈ t.parameters, lastValue? values' p = lastValue? values p) :
    t.bindAll values' = t.bindAll values := by
  obtain ⟨hsegments, hcount⟩ := t.segments_bindAll values
  obtain ⟨hsegments', hcount'⟩ := t.segments_bindAll values'
  have hparameters' := t.parameters_bindAll values'
  refine ext_of_binding? (hsegments'.trans hsegments.symm) (hcount'.trans hcount.symm)
    (hparameters'.trans (t.parameters_bindAll values).symm) (hparameters' ▸ h.nodup_parameters) ?_
  intro p hp
  rw [hparameters'] at hp
  rw [binding?_bindAll, binding?_bindAll, hlast p hp]

/-- Binds of different names commute. -/
theorem bind_comm (h : Recorded ps t) (values : List (String × Json)) {name name' : String}
    (hne : name ≠ name') (v v' : Json) :
    ((t.bindAll values).bind name v).bind name' v' =
      ((t.bindAll values).bind name' v').bind name v := by
  rw [← bindAll_concat, ← bindAll_concat, ← bindAll_concat, ← bindAll_concat]
  refine h.bindAll_congr fun p _ => ?_
  simp only [lastValue?_concat]
  by_cases hp : p = .named name
  · have hp' : p ≠ .named name' := fun heq => hne (Parameter.named.inj (hp.symm.trans heq))
    rw [if_pos hp, if_pos hp, if_neg hp']
  · rw [if_neg hp, if_neg hp]

/-- Binding a name that does not occur changes nothing. -/
theorem bind_of_not_mem (h : Recorded ps t) (values : List (String × Json)) {name : String}
    (hname : .named name ∉ t.parameters) (v : Json) :
    (t.bindAll values).bind name v = t.bindAll values := by
  rw [← bindAll_concat]
  refine h.bindAll_congr fun p hp => ?_
  have hne : p ≠ .named name := fun heq => hname (heq ▸ hp)
  rw [lastValue?_concat, if_neg hne]

/-- A number keeps its value. -/
theorem binding?_bindAll_index (h : Recorded ps t) (values : List (String × Json)) {n : Nat}
    (hn : .index n ∈ t.occurrences) :
    ∃ v, (t.bindAll values).binding? (.index n) = some ⟨some v, false⟩ := by
  obtain ⟨v, hv⟩ := h.index n hn
  exact ⟨v, by rw [binding?_bindAll, hv]; rfl⟩

/-- A name has the value it was bound to last. -/
theorem binding?_bindAll_named (h : Recorded ps t) (values : List (String × Json)) {name : String}
    (hname : .named name ∈ t.occurrences) :
    (t.bindAll values).binding? (.named name) =
      some ⟨lastValue? values (.named name), Piece.expandable ps name⟩ := by
  rw [binding?_bindAll, h.named name hname, Option.map_some, Option.or_none]

/-- All parameters have values when all those that occur do. -/
theorem isBound_iff (h : Recorded ps t) (values : List (String × Json)) :
    (t.bindAll values).isBound = true ↔
      ∀ p ∈ t.occurrences, ((t.bindAll values).value? p).isSome = true := by
  have hparameters := t.parameters_bindAll values
  have hnodup : (t.bindAll values).parameters.Nodup := hparameters ▸ h.nodup_parameters
  unfold isBound
  rw [List.all_eq_true]
  constructor
  · intro hall p hp
    have hkey : p ∈ (t.bindAll values).parameters := hparameters ▸ h.mem_parameters.mpr hp
    obtain ⟨⟨q, b⟩, hentry, rfl⟩ := List.mem_map.mp hkey
    have hbinding : (t.bindAll values).binding? q = some b := (mem_iff_lookup q hnodup b).mp hentry
    unfold value?
    rw [hbinding]
    exact hall (q, b) hentry
  · rintro hall ⟨p, b⟩ hentry
    have hkey : p ∈ (t.bindAll values).parameters := List.mem_map.mpr ⟨_, hentry, rfl⟩
    rw [hparameters] at hkey
    have hbinding : (t.bindAll values).binding? p = some b := (mem_iff_lookup p hnodup b).mp hentry
    have hvalue := hall p (h.mem_parameters.mp hkey)
    unfold value? at hvalue
    rw [hbinding] at hvalue
    exact hvalue

end Recorded

end Template

end SqlGraph
