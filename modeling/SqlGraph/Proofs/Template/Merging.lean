import SqlGraph.Proofs.Template.Bindings

/-!
# Merging templates

One template behind another: the numbers of the second go on from those of the first, texts that
meet are joined, and a name that both have is bound once, expandable when it is so in one of them
(`Template.merge`). What the first one holds stays as it is, but for names that become expandable
(`Template.continues_merge`).

Pushing pieces to a template merges it with the template of the pieces
(`Template.pushPieces_eq_merge`).
-/

namespace SqlGraph

/-- A number goes up, a name stays. -/
def Parameter.shift (k : Nat) : Parameter → Parameter
  | .index n => .index (k + n)
  | .named name => .named name

/-- The segment of a template that comes behind others. -/
def Segment.shift (k : Nat) : Segment → Segment
  | .text s => .text s
  | .parameter p => .parameter (p.shift k)

namespace Template

/-- Segments behind others, texts that meet joined. -/
def appendSegments (before : List Segment) : List Segment → List Segment
  | .text s :: rest => appendText s before ++ rest
  | after => before ++ after

/-- One more binding: that of a number comes last, a name is bound once. -/
def mergeBinding (k : Nat) (bindings : List (Parameter × Binding)) :
    Parameter × Binding → List (Parameter × Binding)
  | (.index n, b) => bindings ++ [(.index (k + n), b)]
  | (.named name, b) => mergeNamed (.named name) b.expandable bindings

/-- A template behind another one. -/
def merge (t u : Template) : Template where
  segments := appendSegments t.segments (u.segments.map (Segment.shift t.valueCount))
  bindings := u.bindings.foldl (mergeBinding t.valueCount) t.bindings
  valueCount := t.valueCount + u.valueCount

/-- Templates one behind the other with a text between them. -/
def joined (separator : String) : List Template → Template
  | [] => {}
  | [t] => t
  | t :: u :: rest => (t.pushText separator).merge (joined separator (u :: rest))

/-! ## Going on from a template -/

/-- Bindings that go on from others: these come first, and only a name may become expandable. -/
structure Keeps (bindings bindings' : List (Parameter × Binding)) : Prop where
  keys : bindings.map (·.1) <+: bindings'.map (·.1)
  index : ∀ n b, bindings.lookup (.index n) = some b → bindings'.lookup (.index n) = some b
  named : ∀ name b, bindings.lookup (.named name) = some b →
    ∃ e, bindings'.lookup (.named name) = some { b with expandable := b.expandable || e }

/-- A template that goes on from another one: text may be added to its last segment and segments
behind it, and of its bindings nothing changes but that a name may become expandable. -/
structure Continues (t t' : Template) : Prop where
  segments : ∃ more, t'.segments = appendSegments t.segments more
  bindings : Keeps t.bindings t'.bindings

/-! ## Segments -/

section Segments

variable (s : String) (before : List Segment)

theorem appendText_appendText (s' : String) (segments : List Segment) :
    appendText s (appendText s' segments) = appendText (s' ++ s) segments := by
  fun_induction appendText s' segments with
  | case1 => rfl
  | case2 t => simp [appendText, String.append_assoc]
  | case3 segment rest hlast ih =>
    -- the rest is not empty, so the first segment is not the last one
    have hne : ∀ s segments, appendText s segments ≠ [] := by
      intro s segments
      fun_cases appendText s segments <;> simp
    rw [appendText.eq_3 _ _ _ hlast, ← ih]
    exact appendText.eq_3 _ _ _ fun t _ hnil => hne _ _ hnil

/-- Text goes to the last segment. -/
theorem appendText_append {after : List Segment} (hafter : after ≠ []) :
    appendText s (before ++ after) = before ++ appendText s after := by
  induction before with
  | nil => rfl
  | cons segment rest ih =>
    rw [List.cons_append, appendText.eq_3, ih, List.cons_append]
    exact fun t _ hnil => hafter (List.append_eq_nil_iff.mp hnil).2

theorem appendSegments_appendText (after : List Segment) :
    appendSegments before (appendText s after) = appendText s (appendSegments before after) := by
  match after with
  | [] => simp [appendSegments, appendText]
  | [.text s'] =>
    simp only [appendText, appendSegments, List.append_nil]
    exact (appendText_appendText s s' before).symm
  | .text s' :: segment :: rest =>
    rw [appendText.eq_3 _ _ _ (by simp), appendSegments, appendSegments]
    exact (appendText_append s _ (List.cons_ne_nil segment rest)).symm
  | .parameter p :: rest =>
    rw [appendText.eq_3 _ _ _ (by simp)]
    show before ++ _ = appendText s (before ++ _)
    rw [appendText_append s before (List.cons_ne_nil _ rest), appendText.eq_3 _ _ _ (by simp)]

theorem appendSegments_concat (after : List Segment) (p : Parameter) :
    appendSegments before (after ++ [.parameter p]) =
      appendSegments before after ++ [.parameter p] := by
  match after with
  | [] => simp [appendSegments]
  | .text s :: rest => simp [appendSegments]
  | .parameter q :: rest => simp [appendSegments]

theorem map_shift_appendText (k : Nat) (segments : List Segment) :
    (appendText s segments).map (Segment.shift k) =
      appendText s (segments.map (Segment.shift k)) := by
  fun_induction appendText s segments with
  | case1 => rfl
  | case2 t => rfl
  | case3 segment rest hlast ih =>
    rw [List.map_cons, List.map_cons, ih, appendText.eq_3]
    intro t htext hnil
    cases segment with
    | text s' => exact hlast s' rfl (List.map_eq_nil_iff.mp hnil)
    | parameter p => simp [Segment.shift] at htext

end Segments

/-! ## Bindings -/

section Bindings

variable {p : Parameter} {bindings : List (Parameter × Binding)}

/-- A place of a parameter that is bound changes its binding only. -/
theorem mergeNamed_of_mem (e : Bool) (hp : (bindings.lookup p).isSome = true) :
    mergeNamed p e bindings =
      modifyBinding p (fun b => { b with expandable := b.expandable || e }) bindings := by
  obtain ⟨b, hb⟩ := Option.isSome_iff_exists.mp hp
  rw [mergeNamed, hb]

/-- A place of a parameter that is not bound lists it last. -/
theorem mergeNamed_of_not_mem (e : Bool) (hp : (bindings.lookup p).isSome = false) :
    mergeNamed p e bindings = bindings ++ [(p, ⟨none, e⟩)] := by
  rw [mergeNamed, Option.isNone_iff_eq_none.mp (Option.isSome_eq_false_iff.mp hp)]

theorem modifyBinding_append (f : Binding → Binding) (hp : (bindings.lookup p).isSome = true)
    (more : List (Parameter × Binding)) :
    modifyBinding p f (bindings ++ more) = modifyBinding p f bindings ++ more := by
  induction bindings with
  | nil => simp at hp
  | cons entry rest ih =>
    obtain ⟨q, b⟩ := entry
    by_cases hq : q = p
    · simp [modifyBinding, hq]
    · rw [List.lookup_cons, beq_false_of_ne (Ne.symm hq)] at hp
      simp [modifyBinding, hq, ih hp]

theorem modifyBinding_concat (f : Binding → Binding) (hp : (bindings.lookup p).isSome = false)
    (b : Binding) : modifyBinding p f (bindings ++ [(p, b)]) = bindings ++ [(p, f b)] := by
  induction bindings with
  | nil => simp [modifyBinding]
  | cons entry rest ih =>
    obtain ⟨q, c⟩ := entry
    by_cases hq : p = q
    · simp [hq] at hp
    · rw [List.lookup_cons, beq_false_of_ne hq] at hp
      simp [modifyBinding, Ne.symm hq, ih hp]

theorem modifyBinding_modifyBinding_self (f g : Binding → Binding)
    (bindings : List (Parameter × Binding)) :
    modifyBinding p f (modifyBinding p g bindings) = modifyBinding p (f ∘ g) bindings := by
  fun_induction modifyBinding p g bindings with
  | case1 => rfl
  | case2 => simp [modifyBinding]
  | case3 q b rest hq ih => simp [modifyBinding, hq, ih]

/-- Changes that commute may be made in any order. -/
theorem modifyBinding_comm {q : Parameter} {f g : Binding → Binding}
    (hcomm : ∀ b, f (g b) = g (f b)) (bindings : List (Parameter × Binding)) :
    modifyBinding p f (modifyBinding q g bindings) =
      modifyBinding q g (modifyBinding p f bindings) := by
  induction bindings with
  | nil => rfl
  | cons entry rest ih =>
    obtain ⟨r, b⟩ := entry
    by_cases hq : r = q
    · subst hq
      by_cases hp : r = p <;> simp [modifyBinding, hp, hcomm]
    · by_cases hp : r = p
      · subst hp
        simp [modifyBinding, hq]
      · simp [modifyBinding, hq, hp, ih]

/-- Places of one parameter are merged in one go. -/
theorem mergeNamed_mergeNamed_self (e e' : Bool) :
    mergeNamed p e (mergeNamed p e' bindings) = mergeNamed p (e' || e) bindings := by
  have hbound : ((mergeNamed p e' bindings).lookup p).isSome = true := by
    rw [lookup_mergeNamed_self]
    rfl
  rw [mergeNamed_of_mem e hbound]
  cases hp : (bindings.lookup p).isSome with
  | false =>
    rw [mergeNamed_of_not_mem _ hp, mergeNamed_of_not_mem _ hp, modifyBinding_concat _ hp]
  | true =>
    rw [mergeNamed_of_mem _ hp, mergeNamed_of_mem _ hp, modifyBinding_modifyBinding_self]
    congr 1
    funext c
    simp [Bool.or_assoc]

/-- What has a binding keeps it. -/
theorem lookup_mergeBinding_isSome (k : Nat) (entry : Parameter × Binding)
    (hp : (bindings.lookup p).isSome = true) :
    ((mergeBinding k bindings entry).lookup p).isSome = true := by
  rw [lookup_isSome_iff_mem] at hp ⊢
  obtain ⟨q, b⟩ := entry
  cases q with
  | index n =>
    show p ∈ (bindings ++ _).map _
    rw [List.map_append]
    exact List.mem_append_left _ hp
  | named name =>
    show p ∈ (mergeNamed _ _ bindings).map _
    rw [keys_mergeNamed]
    split
    · exact hp
    · exact List.mem_append_left _ hp

/-- One more place of a parameter that is bound may as well come before other bindings. -/
theorem mergeBinding_mergeNamed (k : Nat) (e : Bool) (entry : Parameter × Binding)
    (hp : (bindings.lookup p).isSome = true) :
    mergeBinding k (mergeNamed p e bindings) entry =
      mergeNamed p e (mergeBinding k bindings entry) := by
  have hkept := lookup_mergeBinding_isSome k entry hp
  rw [mergeNamed_of_mem e hkept, mergeNamed_of_mem e hp]
  obtain ⟨q, b⟩ := entry
  cases q with
  | index n => exact (modifyBinding_append _ hp _).symm
  | named name =>
    -- the change binds nothing new, so the name is bound before it exactly when it is after it
    have hsame : ∀ f, ((modifyBinding p f bindings).lookup (.named name)).isSome =
        (bindings.lookup (.named name)).isSome := by
      intro f
      rw [Bool.eq_iff_iff, lookup_isSome_iff_mem, lookup_isSome_iff_mem, keys_modifyBinding]
    show mergeNamed _ _ _ = modifyBinding _ _ (mergeNamed _ _ _)
    cases hname : (bindings.lookup (.named name)).isSome with
    | true =>
      rw [mergeNamed_of_mem _ hname, mergeNamed_of_mem _ ((hsame _).trans hname)]
      exact modifyBinding_comm (fun c => by simp [Bool.or_right_comm]) bindings
    | false =>
      rw [mergeNamed_of_not_mem _ hname, mergeNamed_of_not_mem _ ((hsame _).trans hname)]
      exact (modifyBinding_append _ hp _).symm

theorem foldl_mergeBinding_mergeNamed (k : Nat) (e : Bool) (more : List (Parameter × Binding))
    (hp : (bindings.lookup p).isSome = true) :
    more.foldl (mergeBinding k) (mergeNamed p e bindings) =
      mergeNamed p e (more.foldl (mergeBinding k) bindings) := by
  induction more generalizing bindings with
  | nil => rfl
  | cons entry rest ih =>
    rw [List.foldl_cons, List.foldl_cons, mergeBinding_mergeNamed k e entry hp]
    exact ih (lookup_mergeBinding_isSome k entry hp)

/-- A place of a name is merged with the bindings of the second template or with those of both. -/
theorem foldl_mergeBinding_named (k : Nat) (name : String) (e : Bool)
    (more : List (Parameter × Binding)) :
    (mergeNamed (.named name) e more).foldl (mergeBinding k) bindings =
      mergeNamed (.named name) e (more.foldl (mergeBinding k) bindings) := by
  cases hbound : (more.lookup (.named name)).isSome with
  | false =>
    rw [mergeNamed_of_not_mem e hbound, List.foldl_append]
    rfl
  | true =>
    rw [mergeNamed_of_mem e hbound]
    induction more generalizing bindings with
    | nil => simp at hbound
    | cons entry rest ih =>
      obtain ⟨q, c⟩ := entry
      by_cases hq : q = .named name
      · subst hq
        rw [modifyBinding, if_pos rfl, List.foldl_cons, List.foldl_cons]
        show rest.foldl _ (mergeNamed _ (c.expandable || e) bindings) =
          mergeNamed _ e (rest.foldl _ (mergeNamed _ c.expandable bindings))
        rw [← mergeNamed_mergeNamed_self, foldl_mergeBinding_mergeNamed]
        rw [lookup_mergeNamed_self]
        rfl
      · rw [List.lookup_cons, beq_false_of_ne (Ne.symm hq)] at hbound
        rw [modifyBinding, if_neg hq, List.foldl_cons, List.foldl_cons]
        exact ih hbound

end Bindings

namespace Keeps

variable {a b c : List (Parameter × Binding)}

theorem refl (bindings : List (Parameter × Binding)) : Keeps bindings bindings where
  keys := List.prefix_rfl
  index _ _ h := h
  named _ b h := ⟨false, by simpa using h⟩

theorem trans (hab : Keeps a b) (hbc : Keeps b c) : Keeps a c where
  keys := hab.keys.trans hbc.keys
  index n x h := hbc.index n x (hab.index n x h)
  named name x h := by
    obtain ⟨e, he⟩ := hab.named name x h
    obtain ⟨e', he'⟩ := hbc.named name _ he
    exact ⟨e || e', by simpa [Bool.or_assoc] using he'⟩

/-- Bindings behind others leave them as they are. -/
theorem append (bindings more : List (Parameter × Binding)) :
    Keeps bindings (bindings ++ more) where
  keys := by simp
  index n b h := by rw [List.lookup_append, h, Option.some_or]
  named name b h := ⟨false, by rw [List.lookup_append, h, Option.some_or, Bool.or_false]⟩

/-- One more place of a name concerns no other parameter. -/
theorem mergeNamed (name : String) (e : Bool) (bindings : List (Parameter × Binding)) :
    Keeps bindings (Template.mergeNamed (.named name) e bindings) where
  keys := by
    rw [keys_mergeNamed]
    split
    · exact List.prefix_rfl
    · exact List.prefix_append _ _
  index n b h := by rw [lookup_mergeNamed_ne e (by simp), h]
  named other b h := by
    by_cases heq : other = name
    · subst heq
      exact ⟨e, by rw [lookup_mergeNamed_self, h]⟩
    · have hne : Parameter.named other ≠ .named name := fun hp => heq (Parameter.named.inj hp)
      exact ⟨false, by rw [lookup_mergeNamed_ne e hne, h, Bool.or_false]⟩

theorem mergeBinding (k : Nat) (bindings : List (Parameter × Binding))
    (entry : Parameter × Binding) : Keeps bindings (Template.mergeBinding k bindings entry) := by
  obtain ⟨p, b⟩ := entry
  cases p with
  | index n => exact append bindings _
  | named name => exact mergeNamed name b.expandable bindings

theorem foldl_mergeBinding (k : Nat) (more bindings : List (Parameter × Binding)) :
    Keeps bindings (more.foldl (Template.mergeBinding k) bindings) := by
  induction more generalizing bindings with
  | nil => exact refl bindings
  | cons entry rest ih => exact (mergeBinding k bindings entry).trans (ih _)

end Keeps

/-- What comes behind a template goes on from it. -/
theorem continues_merge (t u : Template) : t.Continues (t.merge u) where
  segments := ⟨_, rfl⟩
  bindings := Keeps.foldl_mergeBinding t.valueCount u.bindings t.bindings

/-! ## Pieces -/

section Pieces

variable (t u : Template)

/-- A piece comes last in the merged template when it comes last in the second one. -/
theorem merge_pushPiece (x : Piece) : t.merge (u.pushPiece x) = (t.merge u).pushPiece x := by
  cases x with
  | text s =>
    simp only [pushPiece, pushText, merge, map_shift_appendText, appendSegments_appendText]
  | value v =>
    simp only [pushPiece, pushValue, merge, List.map_append, List.foldl_append, List.map_cons,
      List.map_nil, Segment.shift, appendSegments_concat]
    rfl
  | named name e =>
    simp only [pushPiece, pushNamed, merge, List.map_append, List.map_cons, List.map_nil,
      Segment.shift, appendSegments_concat, foldl_mergeBinding_named]
    rfl
  | dangling => rfl

/-- Nothing comes behind a template. -/
theorem merge_empty : t.merge {} = t := by
  simp [merge, appendSegments]

/-- Pushing pieces merges the template with that of the pieces. -/
theorem pushPieces_eq_merge (ps : List Piece) : t.pushPieces ps = t.merge (ofPieces ps) := by
  induction ps using List.reverseRecOn with
  | nil => exact t.merge_empty.symm
  | append_singleton rest x ih =>
    rw [ofPieces_append]
    show List.foldl _ _ _ = t.merge ((ofPieces rest).pushPiece x)
    rw [List.foldl_append, merge_pushPiece, ← ih]
    rfl

/-- Templates of pieces with a text between them are the template of all the pieces. -/
theorem joined_map_ofPieces (separator : String) (items : List (List Piece)) :
    joined separator (items.map ofPieces) = ofPieces (Render.separated separator items) := by
  induction items with
  | nil => rfl
  | cons ps rest ih =>
    cases rest with
    | nil => rw [Render.separated_singleton, List.map_cons, List.map_nil, joined]
    | cons qs rest =>
      rw [Render.separated_cons_cons, ofPieces_append, List.map_cons, List.map_cons, joined,
        ← List.map_cons, ih, ← pushPieces_eq_merge]
      rfl

end Pieces

end Template
end SqlGraph
