import SqlGraph.Proofs.JoinTree.Aliases

/-!
# Labels of the columns of a join tree

A label is the alias of a node and the name of a column with an underscore between them. Aliases
are pairwise distinct, yet two labels may still be the same text: where the alias of one node goes
on with an underscore and some text, the column of the other may start with that text. `Clash`
says so on names alone, and a label stands for the column of one node exactly when nothing in the
tree clashes with it.
-/

namespace SqlGraph

/-- The names of the columns of a table, in order. -/
def Catalog.columnNames (c : Catalog) (id : TableId) : List String :=
  (((c.table? id).map (·.columns)).getD []).map (·.name)

namespace JoinTree

/-! ## Equal labels -/

/-- The longer alias `b` takes over, after an underscore, what the column `x` starts with. -/
def Clash (a x b y : String) : Prop := ∃ s, b = a ++ "_" ++ s ∧ x = s ++ "_" ++ y

/-- Joining with a separator is ambiguous in one way only: the separator found first may be one
inside a part. -/
private theorem append_cons_eq_iff {α : Type} {sep : α} {a b x y : List α} :
    a ++ sep :: x = b ++ sep :: y ↔
      (a = b ∧ x = y) ∨ (∃ s, b = a ++ sep :: s ∧ x = s ++ sep :: y) ∨
        (∃ s, a = b ++ sep :: s ∧ y = s ++ sep :: x) := by
  constructor
  · intro h
    rcases List.append_eq_append_iff.mp h with ⟨s, hb, hx⟩ | ⟨s, ha, hy⟩
    · cases s with
      | nil =>
        left
        simpa [eq_comm] using And.intro hb hx
      | cons e s =>
        obtain ⟨rfl, htail⟩ := List.cons.inj hx
        exact .inr (.inl ⟨s, hb, htail⟩)
    · cases s with
      | nil =>
        left
        simpa [eq_comm] using And.intro ha hy
      | cons e s =>
        obtain ⟨rfl, htail⟩ := List.cons.inj hy
        exact .inr (.inr ⟨s, ha, htail⟩)
  · rintro (⟨rfl, rfl⟩ | ⟨s, rfl, rfl⟩ | ⟨s, rfl, rfl⟩)
    · rfl
    · simp
    · simp

/-- The clash of two pairs of names, character by character. -/
private theorem clash_iff_toList {a x b y : String} :
    Clash a x b y ↔ ∃ s, b.toList = a.toList ++ '_' :: s ∧ x.toList = s ++ '_' :: y.toList := by
  constructor
  · rintro ⟨s, rfl, rfl⟩
    exact ⟨s.toList, by simp, by simp⟩
  · rintro ⟨s, hb, hx⟩
    refine ⟨String.ofList s, String.ext ?_, String.ext ?_⟩
    · simpa using hb
    · simpa using hx

/-- Two labels are the same text when alias and column are the same, or when they clash. -/
theorem append_underscore_eq_iff {a x b y : String} :
    a ++ "_" ++ x = b ++ "_" ++ y ↔ (a = b ∧ x = y) ∨ Clash a x b y ∨ Clash b y a x := by
  have hlist : a ++ "_" ++ x = b ++ "_" ++ y ↔
      a.toList ++ '_' :: x.toList = b.toList ++ '_' :: y.toList := by
    rw [← String.toList_inj]
    simp
  rw [hlist, append_cons_eq_iff, clash_iff_toList, clash_iff_toList, String.toList_inj,
    String.toList_inj]

/-- An alias does not clash with itself. -/
theorem not_clash_self (a x y : String) : ¬ Clash a x a y := by
  rw [clash_iff_toList]
  rintro ⟨s, ha, -⟩
  have hlength := congrArg List.length ha
  simp only [List.length_append, List.length_cons] at hlength
  omega

/-! ## The projection of a tree -/

/-- Among items with distinct names, a filter on the name of one keeps that one alone. -/
private theorem filter_mapIdx_eq_singleton {α β γ : Type} {g : α → γ} {f : Nat → α → β}
    {keep : β → Bool} {xs : List α} {p : Nat} {x : α} (hnodup : (xs.map g).Nodup)
    (hx : xs[p]? = some x) (hkeep : ∀ q y, keep (f q y) = true ↔ g y = g x) :
    (xs.mapIdx f).filter keep = [f p x] := by
  induction xs generalizing f p with
  | nil => simp at hx
  | cons y ys ih =>
    obtain ⟨hy, hys⟩ := List.nodup_cons.mp hnodup
    rw [List.mapIdx_cons]
    cases p with
    | zero =>
      -- the item is the first, and the names of the others differ from its own
      obtain rfl : y = x := by simpa using hx
      have hrest : (ys.mapIdx fun i => f (i + 1)).filter keep = [] := by
        rw [List.filter_eq_nil_iff]
        intro b hb
        obtain ⟨i, hi, rfl⟩ := List.mem_mapIdx.mp hb
        rw [hkeep]
        intro hsame
        exact hy (hsame ▸ List.mem_map.mpr ⟨ys[i], List.getElem_mem hi, rfl⟩)
      rw [List.filter_cons_of_pos ((hkeep 0 y).mpr rfl), hrest]
    | succ p =>
      have hx' : ys[p]? = some x := by simpa using hx
      have hother : ¬ keep (f 0 y) = true := by
        rw [hkeep]
        intro hsame
        exact hy (hsame ▸ List.mem_map.mpr ⟨x, List.mem_of_getElem? hx', rfl⟩)
      rw [List.filter_cons_of_neg hother]
      exact ih hys hx' fun q y => hkeep (q + 1) y

/-- The columns of a node, projected one by one. -/
private theorem selectNode_eq {c : Catalog} {n : JoinNode} {table : Table}
    (htable : c.table? n.table = some table) :
    selectNode c n = table.columns.mapIdx fun p column =>
      (Expression.column ⟨n.table, p⟩).aliased (label n column.name) := by
  apply List.ext_getElem?
  intro p
  have hcolumn : c.column? ⟨n.table, p⟩ = table.columns[p]? := by
    simp [Catalog.column?, htable]
  by_cases hp : p < table.columns.length
  · simp [selectNode, Catalog.columnsOf, htable, hcolumn, hp]
  · simp [selectNode, Catalog.columnsOf, htable, hp]

/-- Whether a projected expression has the label. -/
private def hasLabel (l : String) (e : Expression) : Bool := e.aliasName == some l

/-- Of the columns of its own node, a column alone has its label. -/
private theorem filter_selectNode_self {c : Catalog} {n : JoinNode} {table : Table}
    (htable : c.table? n.table = some table) (hdistinct : (table.columns.map (·.name)).Nodup)
    {p : Nat} {column : Column} (hcolumn : table.columns[p]? = some column) :
    (selectNode c n).filter (hasLabel (label n column.name)) =
      [(Expression.column ⟨n.table, p⟩).aliased (label n column.name)] := by
  rw [selectNode_eq htable]
  refine filter_mapIdx_eq_singleton hdistinct hcolumn fun q other => ?_
  simp [hasLabel, Expression.aliased, Expression.aliasName, label]

/-- The labels that a node projects, one for each of its columns. -/
private theorem map_aliasName_selectNode (c : Catalog) (n : JoinNode) :
    (selectNode c n).map (·.aliasName) =
      (c.columnNames n.table).map fun d => some (label n d) := by
  cases htable : c.table? n.table with
  | none => simp [selectNode, Catalog.columnsOf, Catalog.columnNames, htable]
  | some table =>
    rw [selectNode_eq htable]
    apply List.ext_getElem?
    intro p
    cases hp : table.columns[p]? with
    | none => simp [Catalog.columnNames, htable, hp]
    | some column =>
      simp [Catalog.columnNames, htable, hp, Expression.aliased, Expression.aliasName]

/-- Another node projects the label of a column exactly when one of its columns clashes. -/
private theorem filter_selectNode_eq_nil_iff {c : Catalog} {n m : JoinNode} {x : String}
    (hne : n.aliasName ≠ m.aliasName) :
    (selectNode c m).filter (hasLabel (label n x)) = [] ↔
      ∀ d ∈ c.columnNames m.table,
        ¬ Clash n.aliasName x m.aliasName d ∧ ¬ Clash m.aliasName d n.aliasName x := by
  have hlabel : ∀ d, label m d = label n x ↔
      Clash n.aliasName x m.aliasName d ∨ Clash m.aliasName d n.aliasName x := by
    intro d
    rw [eq_comm, label, label, append_underscore_eq_iff]
    simp [hne]
  have hmem : (∃ e ∈ selectNode c m, hasLabel (label n x) e = true) ↔
      ∃ d ∈ c.columnNames m.table, label m d = label n x := by
    have hmap : some (label n x) ∈ (selectNode c m).map (·.aliasName) ↔
        some (label n x) ∈ (c.columnNames m.table).map fun d => some (label m d) := by
      rw [map_aliasName_selectNode]
    simpa [hasLabel] using hmap
  rw [List.filter_eq_nil_iff]
  constructor
  · intro hnone d hd
    rw [← not_or, ← hlabel]
    intro hsame
    obtain ⟨e, he, hhas⟩ := hmem.mpr ⟨d, hd, hsame⟩
    exact hnone e he hhas
  · intro hfree e he hhas
    obtain ⟨d, hd, hsame⟩ := hmem.mp ⟨e, he, hhas⟩
    rw [hlabel] at hsame
    exact hsame.elim (hfree d hd).1 (hfree d hd).2

/-- The labels of a node, looked up by the name of a column. -/
private theorem lookup_labels {columns : List Column} {n : JoinNode} {x : String}
    (hx : x ∈ columns.map (·.name)) :
    (columns.map fun column => (column.name, label n column.name)).lookup x =
      some (label n x) := by
  induction columns with
  | nil => simp at hx
  | cons column rest ih =>
    by_cases hname : x = column.name
    · simp [hname]
    · have hrest : x ∈ rest.map (·.name) := by simpa [hname] using hx
      rw [List.map_cons, List.lookup_cons, beq_false_of_ne hname]
      exact ih hrest

/-- Around one item nothing else stands. -/
private theorem append_cons_eq_singleton_iff {α : Type} {xs ys : List α} {a : α} :
    xs ++ a :: ys = [a] ↔ xs = [] ∧ ys = [] := by
  constructor
  · intro h
    have hlength := congrArg List.length h
    simp only [List.length_append, List.length_cons, List.length_nil] at hlength
    exact ⟨List.eq_nil_of_length_eq_zero (by omega), List.eq_nil_of_length_eq_zero (by omega)⟩
  · rintro ⟨rfl, rfl⟩
    rfl

/-! ## Unique labels -/

/-- The label of a column of a node stands in the projection of the tree once, on that column,
exactly when no column of the tree clashes with it. -/
theorem filter_selectAll_eq_singleton_iff {start c : Catalog} {t : JoinTree}
    (hstart : start.DistinctColumns) (ht : Built start t c) {n : JoinNode} (hn : n ∈ t.nodes)
    {table : Table} (htable : c.table? n.table = some table) {p : Nat} {column : Column}
    (hcolumn : table.columns[p]? = some column) :
    ∃ labels l, t.columnLabels c n.name = .ok labels ∧ labels.lookup column.name = some l ∧
      ((t.selectAll c).filter (fun e => e.aliasName == some l) =
          [(Expression.column ⟨n.table, p⟩).aliased l] ↔
        ∀ m ∈ t.nodes, ∀ d ∈ c.columnNames m.table,
          ¬ Clash n.aliasName column.name m.aliasName d ∧
            ¬ Clash m.aliasName d n.aliasName column.name) := by
  have hmem : column ∈ table.columns := List.mem_of_getElem? hcolumn
  have hdistinct := ht.distinctColumns hstart table (List.mem_of_getElem? htable)
  refine ⟨table.columns.map fun column => (column.name, label n column.name),
    label n column.name, ?_, lookup_labels (List.mem_map.mpr ⟨column, hmem, rfl⟩), ?_⟩
  · simp [columnLabels, ht.node?_name hn, htable]
  -- the node stands at one place of the tree, as no other has its alias
  obtain ⟨before, after, hnodes⟩ := List.append_of_mem hn
  have haliases : (before ++ n :: after).map (·.aliasName) |>.Nodup :=
    hnodes ▸ ht.wellFormed.aliases_nodup
  have hother : ∀ m ∈ before ++ after, n.aliasName ≠ m.aliasName := by
    intro m hm hsame
    rw [List.map_append, List.map_cons, List.nodup_middle, ← List.map_append] at haliases
    exact (List.nodup_cons.mp haliases).1 (hsame ▸ List.mem_map.mpr ⟨m, hm, rfl⟩)
  -- what is kept of the nodes before and after it is what clashes
  have hfilter : (t.selectAll c).filter (hasLabel (label n column.name)) =
      before.flatMap (fun m => (selectNode c m).filter (hasLabel (label n column.name))) ++
        (Expression.column ⟨n.table, p⟩).aliased (label n column.name) ::
          after.flatMap fun m => (selectNode c m).filter (hasLabel (label n column.name)) := by
    rw [selectAll, hnodes, List.filter_flatMap, List.flatMap_append, List.flatMap_cons,
      filter_selectNode_self htable hdistinct hcolumn]
    rfl
  have hnil : ∀ ms : List JoinNode, (∀ m ∈ ms, n.aliasName ≠ m.aliasName) →
      (ms.flatMap (fun m => (selectNode c m).filter (hasLabel (label n column.name))) = [] ↔
        ∀ m ∈ ms, ∀ d ∈ c.columnNames m.table,
          ¬ Clash n.aliasName column.name m.aliasName d ∧
            ¬ Clash m.aliasName d n.aliasName column.name) := by
    intro ms hms
    rw [List.flatMap_eq_nil_iff]
    exact forall₂_congr fun m hm => filter_selectNode_eq_nil_iff (hms m hm)
  show (t.selectAll c).filter (hasLabel (label n column.name)) = _ ↔ _
  rw [hfilter, hnodes, append_cons_eq_singleton_iff,
    hnil before fun m hm => hother m (List.mem_append_left _ hm),
    hnil after fun m hm => hother m (List.mem_append_right _ hm),
    List.forall_mem_append, List.forall_mem_cons]
  constructor
  · rintro ⟨hbefore, hafter⟩
    exact ⟨hbefore, fun d _ => ⟨not_clash_self _ _ _, not_clash_self _ _ _⟩, hafter⟩
  · rintro ⟨hbefore, -, hafter⟩
    exact ⟨hbefore, hafter⟩

/-! ## People and their addresses -/

/-- A table of people and one of addresses, where a person may refer to an address. -/
def people : Catalog := ⟨[
  { name := some "person"
    columns := [{ name := "id", type := .bigInt }, { name := "address_id", type := .bigInt }] },
  { name := some "address"
    columns := [{ name := "id", type := .bigInt }, { name := "city", type := .text }] }]⟩

/-- People joined with the address they refer to. -/
def homes : JoinTree := ⟨[
  { name := "who", table := 0, aliasName := "person" },
  { name := "home", table := 1, aliasName := "person_address"
    link := some ⟨"who", .inner, [⟨0, 1⟩], [⟨1, 0⟩]⟩ }]⟩

/-- Both tables name their columns differently. -/
private theorem people_distinctColumns : people.DistinctColumns := by
  unfold Catalog.DistinctColumns
  decide

/-- The tree of homes is built by one join. -/
private theorem homes_built : Built people homes people := by
  have hjoin : (ofRoot people "who" 0).join people "who" "home" .inner [⟨0, 1⟩] [⟨1, 0⟩] =
      .ok ⟨1, homes, people⟩ := rfl
  exact .join (.root "who" (by decide)) (by decide) hjoin

/-- The city of a home clashes with no column, so its label stands once, on the city. -/
theorem filter_selectAll_city :
    people.DistinctColumns ∧ Built people homes people ∧
      (homes.selectAll people).filter (fun e => e.aliasName == some "person_address_city") =
        [(Expression.column ⟨1, 1⟩).aliased "person_address_city"] := by
  have hcity : people.tables[1].columns[1]? = some { name := "city", type := .text } := rfl
  obtain ⟨labels, l, hlabels, hl, hunique⟩ :=
    filter_selectAll_eq_singleton_iff (n := homes.nodes[1]) people_distinctColumns homes_built
      (List.getElem_mem _) rfl hcity
  obtain rfl : [("id", "person_address_id"), ("city", "person_address_city")] = labels :=
    Except.ok.inj hlabels
  obtain rfl : "person_address_city" = l := Option.some.inj hl
  refine ⟨people_distinctColumns, homes_built, hunique.mpr fun m hm d hd => ?_⟩
  have hlabel : m.aliasName ++ "_" ++ d = "person_address" ++ "_" ++ "city" →
      m.aliasName = "person_address" ∧ d = "city" := by
    revert hd d m
    decide
  constructor
  · intro hclash
    have hsame := hlabel (append_underscore_eq_iff.mpr (.inr (.inr hclash)))
    rw [hsame.1] at hclash
    exact not_clash_self _ _ _ hclash
  · intro hclash
    have hsame := hlabel (append_underscore_eq_iff.mpr (.inr (.inl hclash)))
    rw [hsame.1] at hclash
    exact not_clash_self _ _ _ hclash

/-- The address that a person refers to and the number of the address joined are both labelled
`person_address_id`, so labels are not unique in every tree. -/
theorem not_forall_label_unique :
    ¬ ∀ (start c : Catalog) (t : JoinTree), start.DistinctColumns → Built start t c →
      ∀ n ∈ t.nodes, ∀ (table : Table) (p : Nat) (column : Column),
        c.table? n.table = some table → table.columns[p]? = some column →
          ∃ labels l, t.columnLabels c n.name = .ok labels ∧
            labels.lookup column.name = some l ∧
            (t.selectAll c).filter (fun e => e.aliasName == some l) =
              [(Expression.column ⟨n.table, p⟩).aliased l] := by
  intro hall
  obtain ⟨labels, l, hlabels, hl, hunique⟩ := hall people people homes people_distinctColumns
    homes_built homes.nodes[1] (List.getElem_mem _) _ 0 { name := "id", type := .bigInt } rfl rfl
  obtain rfl : [("id", "person_address_id"), ("city", "person_address_city")] = labels :=
    Except.ok.inj hlabels
  obtain rfl : "person_address_id" = l := Option.some.inj hl
  have htwice : ((homes.selectAll people).filter fun e =>
      e.aliasName == some "person_address_id").length = 2 := rfl
  rw [hunique] at htwice
  simp at htwice

end JoinTree

end SqlGraph
