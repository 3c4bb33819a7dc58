import SqlGraph.Proofs.JoinTree.Aliases

/-!
# Joins are all or nothing

A caller holds a tree and its catalog and sees both change while a join is made: a table is cloned,
an alias is taken, a node is added. Here a join is run as the steps it is made of
(`Workspace.join`), in their order; what a step has written stays written when a later one fails.

The steps that can fail come before the first one that writes, so together they do what
`JoinTree.join` says or nothing at all (`Workspace.run_join`), and a join that fails might as well
not have been asked for.
-/

namespace SqlGraph
namespace JoinTree

/-! ## When a join fails -/

section Errors

variable {t : JoinTree} {c : Catalog} {parent name : String} {direction : Direction}
  {left right : List ColumnRef} {e : Error}

theorem node?_eq_none_iff : t.node? name = none ↔ ∀ n ∈ t.nodes, n.name ≠ name := by
  simp [node?]

/-- A name that is there comes before a parent that is not and before a missing table. -/
theorem join_eq_error_iff :
    t.join c parent name direction left right = .error e ↔
      e = .duplicateJoin name ∧ t.node? name ≠ none ∨
        e = .unknownJoin parent ∧ t.node? name = none ∧ (t.node? parent = none ∨ right = []) := by
  unfold join
  cases hname : t.node? name with
  | some _ => simp [eq_comm]
  | none =>
    cases hparent : t.node? parent with
    | none => simp [eq_comm]
    | some p =>
      cases right with
      | nil => simp [eq_comm]
      | cons first rest => simp

end Errors

/-! ## When a join is made -/

theorem containsTable_iff {t : JoinTree} {table : TableId} :
    t.containsTable table = true ↔ ∃ n ∈ t.nodes, n.table = table := by
  simp [containsTable]

/-- A join that is made adds a node under an alias of its own, for the table that the right columns
designate or for a clone of it. -/
theorem join_appends {t : JoinTree} {c : Catalog} {parent name : String} {direction : Direction}
    {left right : List ColumnRef} {j : Joined}
    (h : t.join c parent name direction left right = .ok j) :
    ∃ n first, right.head? = some first ∧ j.tree = ⟨t.nodes ++ [n]⟩ ∧ n.name = name ∧
      n.table = j.table ∧ n.aliasName ∉ t.aliases ∧
      (j.table, j.catalog) =
        if t.containsTable first.table then c.cloneTable first.table else (first.table, c) := by
  obtain ⟨p, first, link, -, -, hfirst, -, hdesignated, htree⟩ := join_cases h
  refine ⟨_, first, hfirst, htree, rfl, rfl, freshAlias_not_mem _ _, ?_⟩
  obtain ⟨hin, hcloned⟩ | ⟨hnew, hsame⟩ := hdesignated
  · rw [if_pos hin, hcloned]
  · rw [hnew, hsame]
    rfl

/-! ## Workspaces -/

/-- A tree and its catalog as a caller holds them, with the aliases taken so far. -/
structure Workspace where
  nodes : List JoinNode
  taken : List String
  catalog : Catalog

/-- A step gives a result or an error, and what it has written stays written either way. -/
abbrev Step := ExceptT Error (StateM Workspace)

/-- The result of a step, and the workspace that it leaves. -/
def Step.run {α : Type} (step : Step α) (w : Workspace) : Except Error α × Workspace :=
  Id.run (StateT.run (ExceptT.run step) w)

namespace Step

variable {α β : Type} (w : Workspace)

@[simp] theorem run_pure (a : α) : Step.run (pure a) w = (.ok a, w) := rfl

@[simp] theorem run_throw (e : Error) : Step.run (throw e : Step α) w = (.error e, w) := rfl

@[simp] theorem run_get : Step.run get w = (.ok w, w) := rfl

/-- A step is followed by the next one unless it fails. -/
@[simp] theorem run_bind (step : Step α) (next : α → Step β) :
    Step.run (step >>= next) w =
      match step.run w with
      | (.ok a, w) => (next a).run w
      | (.error e, w) => (.error e, w) := by
  unfold Step.run
  rw [ExceptT.run_bind, StateT.run_bind]
  rcases (ExceptT.run step).run w with ⟨a | e, after⟩ <;> rfl

@[simp] theorem run_map (f : α → β) (step : Step α) :
    Step.run (f <$> step) w = (step.run w).map (Except.map f) id := by
  rw [map_eq_pure_bind, run_bind]
  rcases step.run w with ⟨a | e, after⟩ <;> rfl

end Step

namespace Workspace

/-- The aliases of a tree are those of its nodes. -/
def of (t : JoinTree) (c : Catalog) : Workspace := ⟨t.nodes, t.aliases, c⟩

/-- The tree of the nodes. -/
def tree (w : Workspace) : JoinTree := ⟨w.nodes⟩

/-! ## Steps -/

/-- Registers a copy of a table. -/
def cloneTable (id : TableId) : Step TableId := do
  let w ← get
  let (clone, catalog) := w.catalog.cloneTable id
  set { w with catalog }
  return clone

/-- The table that the right columns designate, and these columns on it; a table that the tree has
already is cloned. -/
def designate (parent : String) (right : List ColumnRef) : Step (TableId × List ColumnRef) := do
  match right.head? with
  | none => throw (.unknownJoin parent)
  | some first =>
    if (← get).tree.containsTable first.table then
      let clone ← cloneTable first.table
      return (clone, rebase clone right)
    else
      return (first.table, right)

/-- Takes an alias that is free. -/
def takeAlias (base : String) : Step String := do
  let w ← get
  let aliasName := freshAlias w.taken base
  set { w with taken := w.taken ++ [aliasName] }
  return aliasName

/-- Adds a node at the end. -/
def addNode (n : JoinNode) : Step Unit := modify fun w => { w with nodes := w.nodes ++ [n] }

/-- A join under a name, as it is asked for. -/
def join (name : String) (link : JoinLink) : Step TableId := do
  let t := (← get).tree
  if (t.node? name).isSome then
    throw (.duplicateJoin name)
  match t.node? link.parent with
  | none => throw (.unknownJoin link.parent)
  | some p =>
    let (table, right) ← designate link.parent link.right
    let aliasName ← takeAlias (p.aliasName ++ "_" ++ (← get).catalog.nameOf table)
    addNode {
      name, table, aliasName, link := some { link with left := rebase p.table link.left, right } }
    return table

/-- The results of joins asked for one after the other, and what they leave. -/
def joinEach : List (String × JoinLink) → Workspace → List (Except Error TableId) × Workspace
  | [], w => ([], w)
  | (name, link) :: rest, w =>
    let (result, w) := (join name link).run w
    let (results, w) := joinEach rest w
    (result :: results, w)

/-! ## What the steps do together -/

section Steps

variable (w : Workspace)

@[simp] theorem run_cloneTable (id : TableId) : (cloneTable id).run w =
    (.ok (w.catalog.cloneTable id).1, { w with catalog := (w.catalog.cloneTable id).2 }) := rfl

@[simp] theorem run_takeAlias (base : String) : (takeAlias base).run w =
    (.ok (freshAlias w.taken base), { w with taken := w.taken ++ [freshAlias w.taken base] }) := rfl

@[simp] theorem run_addNode (n : JoinNode) :
    (addNode n).run w = (.ok (), { w with nodes := w.nodes ++ [n] }) := rfl

end Steps

theorem joinEach_cons (name : String) (link : JoinLink) (rest : List (String × JoinLink))
    (w : Workspace) : joinEach ((name, link) :: rest) w =
      (((join name link).run w).1 :: (joinEach rest ((join name link).run w).2).1,
        (joinEach rest ((join name link).run w).2).2) := rfl

section Join

variable (t : JoinTree) (c : Catalog) (name : String) (link : JoinLink)

/-- The steps make a join as a whole, or leave everything as it was. -/
theorem run_join : (join name link).run (of t c) =
    match t.join c link.parent name link.direction link.left link.right with
    | .error e => (.error e, of t c)
    | .ok j => (.ok j.table, of j.tree j.catalog) := by
  obtain ⟨parent, direction, left, right⟩ := link
  unfold join JoinTree.join
  -- the exits in their order: the first three come before anything is written
  cases hname : t.node? name with
  | some _ => simp [of, tree, hname]
  | none =>
    cases hparent : t.node? parent with
    | none => simp [of, tree, hname, hparent]
    | some p =>
      cases hfirst : right.head? with
      | none => simp [of, tree, hname, hparent, hfirst, designate]
      | some first =>
        cases hin : t.containsTable first.table with
        | true => simp [of, tree, aliases, hname, hparent, hfirst, designate, hin, Except.map]
        | false => simp [of, tree, aliases, hname, hparent, hfirst, designate, hin, Except.map]

/-- A join as a whole is read off its steps. -/
theorem join_eq_map_run :
    t.join c link.parent name link.direction link.left link.right =
      ((join name link).run (of t c)).1.map fun table => ⟨table,
        ((join name link).run (of t c)).2.tree, ((join name link).run (of t c)).2.catalog⟩ := by
  rw [run_join]
  cases t.join c link.parent name link.direction link.left link.right <;> rfl

theorem run_join_error_iff {e : Error} : ((join name link).run (of t c)).1 = .error e ↔
    t.join c link.parent name link.direction link.left link.right = .error e := by
  rw [run_join]
  cases t.join c link.parent name link.direction link.left link.right <;> simp

/-- A join that fails does nothing. -/
theorem run_join_of_error {e : Error} (h : ((join name link).run (of t c)).1 = .error e) :
    (join name link).run (of t c) = (.error e, of t c) := by
  rw [run_join_error_iff] at h
  rw [run_join, h]

/-- A join that succeeds leaves the tree and the catalog that it leads to. -/
theorem run_join_of_ok {table : TableId} (h : ((join name link).run (of t c)).1 = .ok table) :
    ∃ j, t.join c link.parent name link.direction link.left link.right = .ok j ∧
      j.table = table ∧ ((join name link).run (of t c)).2 = of j.tree j.catalog := by
  have hrun := run_join t c name link
  cases hjoin : t.join c link.parent name link.direction link.left link.right with
  | error e =>
    rw [hrun, hjoin] at h
    exact nomatch h
  | ok j =>
    rw [hjoin] at hrun
    exact ⟨j, rfl, Except.ok.inj ((congrArg Prod.fst hrun).symm.trans h), congrArg Prod.snd hrun⟩

/-- Joins asked for after one that fails turn out as if it had not been asked for. -/
theorem joinEach_of_error {e : Error} (h : ((join name link).run (of t c)).1 = .error e)
    (later : List (String × JoinLink)) : joinEach ((name, link) :: later) (of t c) =
      (.error e :: (joinEach later (of t c)).1, (joinEach later (of t c)).2) := by
  rw [joinEach_cons, run_join_of_error t c name link h]

end Join

/-- A join fails because of its name exactly when a node has the name, and else because of its
parent exactly when no node has that name or there are no right columns. Then nothing has changed,
and joins asked for later turn out as if the failed one had not been asked for. Otherwise one node
is added under a new alias behind the others, which stay as they are; the catalog stays as it is,
unless a node has the table of the first right column, in which case a copy of that table is added
to it. This is what `JoinTree.join` gives. -/
theorem join_allOrNothing (t : JoinTree) (c : Catalog) (name : String) (link : JoinLink) :
    let result := ((join name link).run (of t c)).1
    let after := ((join name link).run (of t c)).2
    (result = .error (.duplicateJoin name) ↔ ∃ n ∈ t.nodes, n.name = name) ∧
    (result = .error (.unknownJoin link.parent) ↔
      (∀ n ∈ t.nodes, n.name ≠ name) ∧
        ((∀ n ∈ t.nodes, n.name ≠ link.parent) ∨ link.right = [])) ∧
    (∀ e, result = .error e → (e = .duplicateJoin name ∨ e = .unknownJoin link.parent) ∧
      after = of t c ∧ ∀ later, joinEach ((name, link) :: later) (of t c) =
        (.error e :: (joinEach later (of t c)).1, (joinEach later (of t c)).2)) ∧
    (∀ table, result = .ok table → ∃ n first, link.right.head? = some first ∧
      after = of ⟨t.nodes ++ [n]⟩ after.catalog ∧ n.name = name ∧ n.table = table ∧
      n.aliasName ∉ t.aliases ∧
      ((∀ m ∈ t.nodes, m.table ≠ first.table) → table = first.table ∧ after.catalog = c) ∧
      ∀ m ∈ t.nodes, m.table = first.table → ∀ original, c.table? first.table = some original →
        table = c.size ∧ after.catalog = ⟨c.tables ++ [original]⟩) ∧
    t.join c link.parent name link.direction link.left link.right =
      result.map fun table => ⟨table, after.tree, after.catalog⟩ := by
  intro result after
  have hfails : ∀ e, result = .error e ↔
      t.join c link.parent name link.direction link.left link.right = .error e :=
    fun e => run_join_error_iff t c name link
  refine ⟨?_, ?_, fun e he => ⟨?_, ?_, joinEach_of_error t c name link he⟩,
    fun table htable => ?_, ?_⟩
  · rw [hfails, join_eq_error_iff]
    simp [node?_eq_none_iff]
  · rw [hfails, join_eq_error_iff]
    simp [node?_eq_none_iff]
  · rw [hfails, join_eq_error_iff] at he
    exact he.imp And.left And.left
  · exact congrArg Prod.snd (run_join_of_error t c name link he)
  · obtain ⟨j, hjoin, rfl, hafter⟩ := run_join_of_ok t c name link htable
    have hcatalog : after.catalog = j.catalog := congrArg Workspace.catalog hafter
    obtain ⟨n, first, hfirst, htree, hname, hn, halias, hdesignated⟩ := join_appends hjoin
    refine ⟨n, first, hfirst, ?_, hname, hn, halias, fun hnew => ?_,
      fun m hm hmtable original horiginal => ?_⟩
    · rw [hcatalog, ← htree]
      exact hafter
    · rw [if_neg (mt containsTable_iff.mp (by simpa using hnew))] at hdesignated
      rw [hcatalog]
      exact Prod.mk.inj hdesignated
    · rw [if_pos (containsTable_iff.mpr ⟨m, hm, hmtable⟩),
        Catalog.cloneTable, horiginal] at hdesignated
      rw [hcatalog]
      exact Prod.mk.inj hdesignated
  · exact join_eq_map_run t c name link

/-- People who refer to a friend. -/
private def people : Catalog := ⟨[
  { name := some "person"
    columns := [{ name := "id", type := .bigInt }, { name := "friend_id", type := .bigInt }] }]⟩

/-- A join by which a friend is found, unless its right columns are missing. -/
private def towardsFriend (parent : String) (right : List ColumnRef) : JoinLink :=
  ⟨parent, .leftOuter, [⟨0, 1⟩], right⟩

/-- A name used again, an unknown parent and missing columns leave no trace in the alias and the
clone of the join that follows. -/
theorem join_allOrNothing_people :
    joinEach [("me", towardsFriend "me" [⟨0, 0⟩]), ("friend", towardsFriend "nobody" [⟨0, 0⟩]),
        ("friend", towardsFriend "me" []), ("friend", towardsFriend "me" [⟨0, 0⟩])]
        (of (ofRoot people "me" 0) people) =
      ([.error (.duplicateJoin "me"), .error (.unknownJoin "nobody"), .error (.unknownJoin "me"),
          .ok 1],
        of ⟨[{ name := "me", table := 0, aliasName := "person" },
          { name := "friend", table := 1, aliasName := "person_person"
            link := some ⟨"me", .leftOuter, [⟨0, 1⟩], [⟨1, 0⟩]⟩ }]⟩
          ⟨people.tables ++ people.tables⟩) := by
  have hlater : ∀ name link e,
      ((join name link).run (of (ofRoot people "me" 0) people)).1 = .error e →
      ∀ later, joinEach ((name, link) :: later) (of (ofRoot people "me" 0) people) =
        (.error e :: (joinEach later (of (ofRoot people "me" 0) people)).1,
          (joinEach later (of (ofRoot people "me" 0) people)).2) := fun name link e he =>
    ((join_allOrNothing (ofRoot people "me" 0) people name link).2.2.1 e he).2.2
  rw [hlater "me" _ (.duplicateJoin "me") rfl, hlater "friend" _ (.unknownJoin "nobody") rfl,
    hlater "friend" _ (.unknownJoin "me") rfl]
  rfl

end Workspace
end JoinTree
end SqlGraph
