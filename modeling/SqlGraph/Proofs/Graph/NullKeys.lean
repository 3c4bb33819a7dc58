import SqlGraph.Graph.Traversal

/-!
# Rows and relations without a key

A row of an outer join has nulls where there is no partner. A factory makes no bean of a row of
which some key column is null, and nothing else of the row is read for it then. So deleting such
rows from a result changes nothing (`Transformer.Thinned.traverseFrom_eq`), and a relation that is
null-keyed on a row may as well not be there, at every depth (`Transformer.transform_pruned`). The
main statement is `nullKeyed_inert`.
-/

namespace SqlGraph.Graph

variable {α σ ω : Type}

/-! ## Null-keyed rows -/

/-- Whether the key columns of a row can all be read and some of them is null. -/
def Factory.isNullKeyed (f : Factory α) (row : Row) : Bool :=
  match f.keyColumns with
  | none => false
  | some labels =>
    match readAll row labels with
    | .error _ => false
    | .ok values => (Key.mk values).isNull

theorem Factory.isNullKeyed_iff {f : Factory α} {row : Row} :
    f.isNullKeyed row = true ↔ ∃ labels values, f.keyColumns = some labels ∧
      readAll row labels = .ok values ∧ Json.null ∈ values := by
  have hnull : ∀ v : Json, v.isNull = true ↔ v = .null := by
    intro v
    cases v <;> simp [Json.isNull]
  unfold isNullKeyed
  cases f.keyColumns with
  | none => simp
  | some labels =>
    cases hvalues : readAll row labels with
    | error e => simp [hvalues]
    | ok values => simp [hvalues, Key.isNull, hnull]

theorem readAll_congr {row row' : Row} {labels : List String}
    (h : ∀ label ∈ labels, row' label = row label) : readAll row' labels = readAll row labels := by
  induction labels with
  | nil => rfl
  | cons label rest ih =>
    rw [readAll, readAll, h label List.mem_cons_self,
      ih fun other hother => h other (List.mem_cons_of_mem label hother)]

/-- Rows that agree on the key columns are null-keyed alike. -/
theorem Factory.isNullKeyed_congr {f : Factory α} {row row' : Row}
    (h : ∀ labels, f.keyColumns = some labels → ∀ label ∈ labels, row' label = row label) :
    f.isNullKeyed row' = f.isNullKeyed row := by
  unfold isNullKeyed
  cases hcolumns : f.keyColumns with
  | none => rfl
  | some labels => simp only [readAll_congr (h labels hcolumns)]

/-- A null-keyed row gives no bean and leaves everything as it is. -/
theorem Factory.produce_of_isNullKeyed {f : Factory α} {row : Row} (h : f.isNullKeyed row = true)
    (s : State α) : f.produce row s = (.ok none, s) := by
  unfold isNullKeyed at h
  unfold produce
  cases hlabels : f.keyColumns with
  | none => simp [hlabels] at h
  | some labels =>
    cases hvalues : readAll row labels with
    | error e => simp [hlabels, hvalues] at h
    | ok values =>
      simp only [hlabels, hvalues] at h
      simp only [hvalues, h, if_true]

/-- Of a null-keyed row neither columns nor relations are read. -/
theorem Transformer.transform_of_isNullKeyed {t : Transformer α} {row : Row}
    (h : t.factory.isNullKeyed row = true) (s : State α) : t.transform row s = (.ok none, s) := by
  obtain ⟨factory, columns, relations⟩ := t
  rw [transform, factory.produce_of_isNullKeyed h]
  rfl

/-- A relation that is null-keyed on the row leaves its owner, the beans and the marks as they are,
whatever its columns and its own relations are. -/
theorem Relation.assemble_of_isNullKeyed {target : Transformer α} {row : Row}
    (h : target.factory.isNullKeyed row = true) (id : RelationId) (fixer : Fixer α)
    (policy : Policy) (owner : BeanId) (s : State α) :
    (Relation.mk id target fixer policy).assemble owner row s = (.ok (), s) := by
  rw [assemble, target.transform_of_isNullKeyed h]
  rfl

/-! ## Deleting rows -/

/-- What is left of a result when null-keyed rows are deleted, some or all of them. -/
inductive Transformer.Thinned (t : Transformer α) :
    List (Except Error Row) → List (Except Error Row) → Prop where
  | nil : t.Thinned [] []
  | keep (item : Except Error Row) {feed feed' : List (Except Error Row)}
    (h : t.Thinned feed feed') : t.Thinned (item :: feed) (item :: feed')
  | delete {row : Row} {feed feed' : List (Except Error Row)}
    (hrow : t.factory.isNullKeyed row = true) (h : t.Thinned feed feed') :
    t.Thinned (.ok row :: feed) feed'

/-- A traversal goes over null-keyed rows as if they were not there. -/
theorem Transformer.Thinned.traverseFrom_eq {t : Transformer α}
    {feed feed' : List (Except Error Row)} (h : t.Thinned feed feed')
    (acc : Accumulator (Delivery α) σ ω) (seed : σ) (s : State α) :
    t.traverseFrom acc seed feed' s = t.traverseFrom acc seed feed s := by
  induction h generalizing seed s with
  | nil => rfl
  | keep item _ ih =>
    cases item with
    | error e => rfl
    | ok row =>
      unfold traverseFrom Outcome.andThen
      rcases t.transform row s with ⟨error | root, s₁⟩
      · rfl
      · cases root with
        | none => exact ih seed s₁
        | some bean =>
          rcases hdeliver : deliver acc seed bean s₁ with ⟨error | seed, s₂⟩
          · simp [hdeliver]
          · simpa [hdeliver] using ih seed s₂
  | @delete row feed feed' hrow _ ih =>
    rw [ih, traverseFrom, transform_of_isNullKeyed hrow]
    rfl

/-! ## Leaving relations out -/

mutual

/-- The transformer without the relations that are null-keyed on the row, at every depth. -/
def Transformer.pruned (row : Row) : Transformer α → Transformer α
  | .mk factory columns relations => .mk factory columns (prunedAll row relations)

/-- The relation pruned, if it is not null-keyed on the row itself. -/
def Relation.pruned? (row : Row) : Relation α → Option (Relation α)
  | .mk id target fixer policy =>
    if target.factory.isNullKeyed row then none
    else some (.mk id (target.pruned row) fixer policy)

/-- The relations that are left of a list. -/
def prunedAll (row : Row) : List (Relation α) → List (Relation α)
  | [] => []
  | r :: rest => (r.pruned? row).toList ++ prunedAll row rest

end

mutual

/-- Relations that are null-keyed on a row may as well not be there. -/
theorem Transformer.transform_pruned (row : Row) (t : Transformer α) (s : State α) :
    (t.pruned row).transform row s = t.transform row s := by
  obtain ⟨factory, columns, relations⟩ := t
  simp only [Transformer.pruned, Transformer.transform, assembleAll_pruned row relations]

theorem assembleAll_pruned (row : Row) (relations : List (Relation α)) (owner : BeanId)
    (s : State α) :
    assembleAll (prunedAll row relations) owner row s = assembleAll relations owner row s := by
  match relations with
  | [] => rfl
  | .mk id target fixer policy :: rest =>
    have htarget := Transformer.transform_pruned row target
    have hrest := assembleAll_pruned row rest owner
    simp only [prunedAll, Relation.pruned?]
    split
    · next hnull =>
      rw [assembleAll, Relation.assemble_of_isNullKeyed hnull]
      exact hrest s
    · simp only [Option.toList_some, List.singleton_append, assembleAll, Relation.assemble,
        htarget, hrest]

end

/-! ## Null-keyed rows and relations are inert -/

/-- Whatever the accumulator, deleting rows that are null-keyed for the root changes neither the
result of a traversal, nor its error, nor the beans and the context that it leaves. A relation that
is null-keyed on a row leaves everything as it is, and so it does on every row with the same key
columns: no other column is read, and none of its own relations are assembled. What a transformer
makes of a row is what it makes without such relations, at every depth. -/
theorem nullKeyed_inert (t : Transformer α) :
    (∀ {σ ω : Type} (acc : Accumulator (Delivery α) σ ω) {feed feed' : List (Except Error Row)},
      t.Thinned feed feed' → ∀ heap, t.traverse acc feed' heap = t.traverse acc feed heap) ∧
    (∀ (target : Transformer α) (row : Row), target.factory.isNullKeyed row = true →
      ∀ row' : Row, (∀ labels, target.factory.keyColumns = some labels →
        ∀ label ∈ labels, row' label = row label) →
      ∀ id fixer policy owner (s : State α),
        (Relation.mk id target fixer policy).assemble owner row' s = (.ok (), s)) ∧
    ∀ (row : Row) (s : State α), (t.pruned row).transform row s = t.transform row s := by
  refine ⟨fun acc _ _ h heap => h.traverseFrom_eq acc acc.supply { heap := heap }, ?_,
    fun row => t.transform_pruned row⟩
  intro target row hnull row' hagree
  exact Relation.assemble_of_isNullKeyed ((Factory.isNullKeyed_congr hagree).trans hnull)

/-- An article of a parcel. -/
private def article : Transformer (Option BeanId) := .mk ⟨1, some ["article"], fun _ => none⟩ [] []

/-- A parcel, known by country and number, whose weight has to be an integer, with its article. -/
private def parcel : Transformer (Option BeanId) :=
  .mk ⟨0, some ["country", "number"], fun _ => none⟩ [.typed "weight" .int64 fun _ a => a]
    [.mk 0 article (.one ⟨id, fun link _ => link⟩) .eachRow]

private def parcelRow (country number weight item : Json) : Row := fun label =>
  match label with
  | "country" => .ok country
  | "number" => .ok number
  | "weight" => .ok weight
  | "article" => .ok item
  | _ => .error (.columnNotFound label)

private def sent : Row := parcelRow (.string "de") (.ofNat 1) (.ofNat 5) .null

/-- A row without country whose weight is no integer, but with an article. -/
private def unsent : Row := parcelRow .null (.ofNat 2) (.string "heavy") (.ofNat 7)

/-- A row of which nothing but the article can be read. -/
private def torn : Row := fun label =>
  if label = "article" then .ok .null else .error (.columnNotFound label)

/-- A row without country may go, although its weight cannot be read and it has an article, and a
parcel without article is left as it is, although nothing else can be read. -/
theorem nullKeyed_inert_parcel :
    parcel.Thinned [.ok sent, .ok unsent] [.ok sent] ∧
      parcel.list [.ok sent] {} = parcel.list [.ok sent, .ok unsent] {} ∧
      article.factory.isNullKeyed sent = true ∧
      (Relation.mk 0 article (.one ⟨id, fun link _ => link⟩) .eachRow).assemble 0 torn {} =
        (.ok (), {}) := by
  have hthinned : parcel.Thinned [.ok sent, .ok unsent] [.ok sent] :=
    .keep _ (.delete rfl .nil)
  have hkey : ∀ labels, article.factory.keyColumns = some labels →
      ∀ label ∈ labels, torn label = sent label := by
    rintro labels ⟨⟩ label hlabel
    rw [List.mem_singleton.mp hlabel]
    rfl
  obtain ⟨hrows, hrelations, -⟩ := nullKeyed_inert parcel
  exact ⟨hthinned, hrows _ hthinned {}, rfl,
    hrelations article sent rfl torn hkey 0 _ _ 0 {}⟩

end SqlGraph.Graph
