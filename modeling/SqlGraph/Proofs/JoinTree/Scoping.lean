import SqlGraph.Proofs.JoinTree.Stored
import SqlGraph.Proofs.Render.Scopes

/-!
# From clauses of join trees

`Joins` builds a tree by joins and keeps what each of them was asked for: the caller may name
columns of the original where the parent or the joined table is a clone, so what is stored may
differ from what was given.

The main statement is `toFrom_wellScoped`: the clause lists the tables of the nodes under their own
aliases, and each condition compares columns of a table listed before with columns of the table
joined, at the positions given.
-/

namespace SqlGraph
namespace JoinTree

/-! ## The clause, node by node -/

section AddNode

variable (f : FromClause) (n : JoinNode)

/-- The table of a node goes by the alias of the node, and other tables by theirs. -/
theorem find?_aliases_addNode (id : TableId) :
    (addNode f n).aliases.find? id =
      if id = n.table then some n.aliasName else f.aliases.find? id := by
  have haliases : (addNode f n).aliases = f.aliases.insert n.table n.aliasName := by
    unfold addNode
    cases n.link <;> rfl
  rw [haliases, TableMap.find?_insert]

/-- A linked node adds the table of its right columns. -/
theorem tables_addNode_of_link {l : JoinLink} (h : n.link = some l) {first : ColumnRef}
    (hfirst : l.right.head? = some first) :
    (addNode f n).tables = f.tables ++ [first.table] := by
  obtain ⟨hroot, hjoins⟩ := addNode_of_link f n h
  have hright : Join.rightTable? (.key l.direction l.left l.right) = some first.table := by
    show l.right.head?.map (·.table) = some first.table
    rw [hfirst]
    rfl
  unfold FromClause.tables
  rw [hroot, hjoins, List.filterMap_append, List.filterMap_cons_some hright, List.filterMap_nil,
    List.append_assoc]

end AddNode

/-! ## Joins as they are asked for -/

/-- The trees built from a root table by joins that succeed, with what each join was asked for: the
name of its node and the link, whose right columns are those of one table of the catalog. Between
two joins the catalog may grow. -/
inductive Joins (start : Catalog) (rootName : String) (root : TableId) :
    List (String × JoinLink) → JoinTree → Catalog → Prop where
  | root (hroot : root < start.size) :
    Joins start rootName root [] (ofRoot start rootName root) start
  | grow {asked : List (String × JoinLink)} {t : JoinTree} {c later : Catalog}
    (ht : Joins start rootName root asked t c) (hle : c.size ≤ later.size) :
    Joins start rootName root asked t later
  | join {asked : List (String × JoinLink)} {t : JoinTree} {c : Catalog} {name : String}
    {link : JoinLink} {table : TableId} {j : Joined}
    (ht : Joins start rootName root asked t c) (hright : ∀ ref ∈ link.right, ref.table = table)
    (htable : table < c.size)
    (hjoin : t.join c link.parent name link.direction link.left link.right = .ok j) :
    Joins start rootName root (asked ++ [(name, link)]) j.tree j.catalog

/-- A join of the clause as it was asked for: its parent is a node listed before it, its left
columns are those of the parent and its right ones its own, at the positions given. -/
def AsAsked (t : JoinTree) (i : Nat) (name : String) (link : JoinLink) : Prop :=
  ∃ k ≤ i, ∃ p n, t.nodes[k]? = some p ∧ p.name = link.parent ∧
    t.nodes[i + 1]? = some n ∧ n.name = name ∧
    t.toFrom.tables[k]? = some p.table ∧ t.toFrom.tables[i + 1]? = some n.table ∧
    ∃ left right, t.toFrom.joins[i]? = some (.key link.direction left right) ∧
      (∀ ref ∈ left, ref.table = p.table) ∧ left.map (·.position) = link.left.map (·.position) ∧
      (∀ ref ∈ right, ref.table = n.table) ∧ right.map (·.position) = link.right.map (·.position)

namespace Joins

variable {start c : Catalog} {rootName : String} {root : TableId}
  {asked : List (String × JoinLink)} {t : JoinTree}

/-- Such trees are attached to their root. -/
theorem attached (h : Joins start rootName root asked t c) : Attached asked t := by
  induction h with
  | root => exact .root start rootName root
  | grow _ _ ih => exact ih
  | join _ _ _ hjoin ih => exact ih.join hjoin

/-- Each join is asked for with right columns of one table. -/
theorem right_table (h : Joins start rootName root asked t c) {name : String} {link : JoinLink}
    (hmem : (name, link) ∈ asked) : ∃ table, ∀ ref ∈ link.right, ref.table = table := by
  induction h with
  | root => simp at hmem
  | grow _ _ ih => exact ih hmem
  | @join asked t c newName newLink table j ht hright htable hjoin ih =>
    obtain hold | hnew := List.mem_append.mp hmem
    · exact ih hold
    · obtain ⟨rfl, rfl⟩ := Prod.mk.inj (List.mem_singleton.mp hnew)
      exact ⟨table, hright⟩

/-- Such trees are well-formed. -/
theorem wellFormed (h : Joins start rootName root asked t c) : WellFormed t c := by
  induction h with
  | root hroot => exact WellFormed.ofRoot hroot
  | grow _ hle ih => exact ih.grow hle
  | join _ hright htable hjoin ih =>
    refine (ih.join (fun first hfirst => ?_) hjoin).1
    rw [hright first (List.mem_of_head? hfirst)]
    exact htable

/-- The clause has the tables of the nodes, in the order in which they were joined. -/
theorem tables_toFrom (h : Joins start rootName root asked t c) :
    t.toFrom.tables = t.nodes.map (·.table) ∧ t.toFrom.root = some root := by
  induction h with
  | root => exact ⟨rfl, rfl⟩
  | grow _ _ ih => exact ih
  | @join asked t c name link table j ht hright htable hjoin ih =>
    obtain ⟨n, left, right, htree, -, hlink, -, -, first, hfirst, hown⟩ := join_link hjoin
    rw [htree, toFrom_concat]
    refine ⟨?_, (addNode_of_link t.toFrom n hlink).1.trans ih.2⟩
    rw [tables_addNode_of_link t.toFrom n hlink hfirst, hown, ih.1, List.map_append]
    rfl

/-- The clause names the table of each node by the alias of the node, and no other table. -/
theorem aliases_toFrom (h : Joins start rootName root asked t c) (id : TableId) (a : String) :
    t.toFrom.aliases.find? id = some a ↔ ∃ n ∈ t.nodes, n.table = id ∧ n.aliasName = a := by
  induction h with
  | root =>
    show (addNode {} ⟨rootName, root, start.nameOf root, none⟩).aliases.find? id = some a ↔ _
    rw [find?_aliases_addNode]
    by_cases hid : id = root
    · simp [ofRoot, hid]
    · simp only [ofRoot, hid, if_false, List.mem_singleton, exists_eq_left, Ne.symm hid, false_and]
      exact iff_of_false (Option.some_ne_none a).symm not_false
  | grow _ _ ih => exact ih
  | @join asked t c name link table j ht hright htable hjoin ih =>
    obtain ⟨n, -, -, htree, -⟩ := join_link hjoin
    have hdistinct := (Joins.join ht hright htable hjoin).wellFormed.tables_nodup
    rw [htree, List.map_append, List.map_singleton] at hdistinct
    -- no node joined before has the table of the new one
    have hnew : ∀ m ∈ t.nodes, m.table ≠ n.table := fun m hm =>
      (List.nodup_append.mp hdistinct).2.2 _ (List.mem_map_of_mem hm) _ (List.mem_singleton_self _)
    rw [htree, toFrom_concat, find?_aliases_addNode]
    by_cases hid : id = n.table
    · rw [if_pos hid, Option.some.injEq]
      constructor
      · intro ha
        exact ⟨n, List.mem_append_right _ (List.mem_singleton_self n), hid.symm, ha⟩
      · rintro ⟨m, hm, hmid, ha⟩
        rcases List.mem_append.mp hm with hold | hlast
        · exact absurd (hmid.trans hid) (hnew m hold)
        · rw [← List.mem_singleton.mp hlast, ha]
    · rw [if_neg hid, ih]
      constructor
      · rintro ⟨m, hm, hboth⟩
        exact ⟨m, List.mem_append_left _ hm, hboth⟩
      · rintro ⟨m, hm, hmid, ha⟩
        rcases List.mem_append.mp hm with hold | hlast
        · exact ⟨m, hold, hmid, ha⟩
        · rw [List.mem_singleton.mp hlast] at hmid
          exact absurd hmid.symm hid

/-- Each join of the clause is as it was asked for. -/
theorem asAsked (h : Joins start rootName root asked t c) {i : Nat} {name : String}
    {link : JoinLink} (hi : asked[i]? = some (name, link)) : AsAsked t i name link := by
  obtain ⟨n, left, right, hstored⟩ := h.attached.exists_stored hi
  obtain ⟨k, hk, p, hp, hparent, rfl⟩ := hstored.parent
  obtain ⟨table, hright⟩ := h.right_table (List.mem_of_getElem? hi)
  have htableAt : ∀ (m : JoinNode) (i : Nat), t.nodes[i]? = some m →
      t.toFrom.tables[i]? = some m.table := by
    intro m i hm
    rw [h.tables_toFrom.1, List.getElem?_map, hm]
    rfl
  exact ⟨k, hk, p, n, hp, hparent, hstored.node, hstored.name_eq, htableAt p k hp,
    htableAt n (i + 1) hstored.node, _, right, hstored.join, fun _ => table_of_mem_rebase,
    hstored.map_position_left, fun _ => hstored.table_of_mem_right hright,
    hstored.map_position_right⟩

end Joins

/-! ## Well-scoped clauses -/

/-- For a tree built by joins that succeed, whatever they were asked for, the clause lists the
tables of the nodes, which are pairwise different, in the order in which they were joined, and
gives each the alias of its own node. Each of its joins compares columns of a table listed before,
that of the parent, with columns of the table joined, and the columns are at the positions asked
for, also where the parent or the joined table is a clone. -/
theorem toFrom_wellScoped {start c : Catalog} {rootName : String} {root : TableId}
    {asked : List (String × JoinLink)} {t : JoinTree}
    (h : Joins start rootName root asked t c) :
    t.toFrom.root = some root ∧ t.toFrom.tables = t.nodes.map (·.table) ∧
      (t.nodes.map (·.table)).Nodup ∧ t.nodes.length = asked.length + 1 ∧
      t.toFrom.joins.length = asked.length ∧
      (∀ id a, t.toFrom.aliases.find? id = some a ↔
        ∃ n ∈ t.nodes, n.table = id ∧ n.aliasName = a) ∧
      ∀ i name link, asked[i]? = some (name, link) → AsAsked t i name link := by
  obtain ⟨htables, hroot⟩ := h.tables_toFrom
  obtain ⟨hjoins, hnodes⟩ := h.attached.lengths
  exact ⟨hroot, htables, h.wellFormed.tables_nodup, hnodes, hjoins, h.aliases_toFrom,
    fun i name link hi => h.asAsked hi⟩

/-- People who refer to a friend. -/
private def befriended : Catalog := ⟨[
  { name := some "person"
    columns := [{ name := "id", type := .bigInt }, { name := "friend_id", type := .bigInt }] }]⟩

/-- The friend of a person, the columns of both given as those of the one table of people. -/
private def friendOf (parent : String) (direction : Direction) : JoinLink :=
  ⟨parent, direction, [⟨0, 1⟩], [⟨0, 0⟩]⟩

/-- A person, a friend, and a friend of that friend. -/
private def friendsTree : JoinTree := ⟨[
  { name := "me", table := 0, aliasName := "person" },
  { name := "friend", table := 1, aliasName := "person_person"
    link := some ⟨"me", .leftOuter, [⟨0, 1⟩], [⟨1, 0⟩]⟩ },
  { name := "further", table := 2, aliasName := "person_person_person"
    link := some ⟨"friend", .inner, [⟨1, 1⟩], [⟨2, 0⟩]⟩ }]⟩

/-- Each join clones the table of people, and the friends of a friend are found through the clone
that stands for the friend. -/
theorem toFrom_wellScoped_friends :
    ∃ c, Joins befriended "me" 0
        [("friend", friendOf "me" .leftOuter), ("further", friendOf "friend" .inner)]
        friendsTree c ∧
      friendsTree.toFrom.tables = [0, 1, 2] ∧
      AsAsked friendsTree 1 "further" (friendOf "friend" .inner) := by
  have hright : ∀ parent direction, ∀ ref ∈ (friendOf parent direction).right, ref.table = 0 := by
    intro parent direction ref href
    rw [List.mem_singleton.mp href]
  have hstart : Joins befriended "me" 0 [] (ofRoot befriended "me" 0) befriended :=
    .root (by decide)
  have hfriend : (ofRoot befriended "me" 0).join befriended (friendOf "me" .leftOuter).parent
      "friend" (friendOf "me" .leftOuter).direction (friendOf "me" .leftOuter).left
      (friendOf "me" .leftOuter).right =
        .ok ⟨1, ⟨friendsTree.nodes.take 2⟩, (befriended.cloneTable 0).2⟩ := rfl
  have hfurther : JoinTree.join ⟨friendsTree.nodes.take 2⟩ (befriended.cloneTable 0).2
      (friendOf "friend" .inner).parent "further" (friendOf "friend" .inner).direction
      (friendOf "friend" .inner).left (friendOf "friend" .inner).right =
        .ok ⟨2, friendsTree, ((befriended.cloneTable 0).2.cloneTable 0).2⟩ := rfl
  have h := (hstart.join (hright _ _) (by decide) hfriend).join (hright _ _) (by decide) hfurther
  obtain ⟨-, htables, -, -, -, -, hasked⟩ := toFrom_wellScoped h
  exact ⟨_, h, htables, hasked 1 _ _ rfl⟩

end JoinTree
end SqlGraph
