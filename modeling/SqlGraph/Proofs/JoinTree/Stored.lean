import SqlGraph.Proofs.JoinTree.Aliases

/-!
# Joins as they are stored

A from clause is built node by node (`toFrom_concat`), and so is its tree by the joins asked for
(`Attached`). A join keeps the positions of the columns it is asked for with: the left ones are read
on the table of the parent, the right ones on the table of the new node when that is a clone.
`Attached.exists_stored` finds each join of the clause as it was asked for.
-/

namespace SqlGraph
namespace JoinTree

/-! ## The clause, node by node -/

/-- One more node is added to the clause of the nodes before it. -/
theorem toFrom_concat (nodes : List JoinNode) (n : JoinNode) :
    toFrom ⟨nodes ++ [n]⟩ = addNode (toFrom ⟨nodes⟩) n := List.foldl_concat _ _ _ _

/-- A linked node is joined behind the others. -/
theorem addNode_of_link (f : FromClause) (n : JoinNode) {l : JoinLink} (h : n.link = some l) :
    (addNode f n).root = f.root ∧
      (addNode f n).joins = f.joins ++ [.key l.direction l.left l.right] := by
  unfold addNode
  rw [h]
  exact ⟨rfl, rfl⟩

/-! ## Columns on another table -/

theorem table_of_mem_rebase {table : TableId} {columns : List ColumnRef} {ref : ColumnRef}
    (h : ref ∈ rebase table columns) : ref.table = table := by
  obtain ⟨c, -, rfl⟩ := List.mem_map.mp h
  rfl

theorem map_position_rebase (table : TableId) (columns : List ColumnRef) :
    (rebase table columns).map (·.position) = columns.map (·.position) := by
  unfold rebase
  rw [List.map_map]
  rfl

/-! ## Joins that succeed -/

/-- A join that succeeds adds one node. Its link has the left columns on the table of the parent,
and the right ones as given or on the table of the node, which the first of them has in any case. -/
theorem join_link {t : JoinTree} {c : Catalog} {name : String} {link : JoinLink} {j : Joined}
    (h : t.join c link.parent name link.direction link.left link.right = .ok j) :
    ∃ n left right, j.tree = ⟨t.nodes ++ [n]⟩ ∧ n.name = name ∧
      n.link = some { link with left, right } ∧
      (∃ p ∈ t.nodes, p.name = link.parent ∧ left = rebase p.table link.left) ∧
      (right = link.right ∨ right = rebase n.table link.right) ∧
      ∃ first, right.head? = some first ∧ first.table = n.table := by
  obtain ⟨p, first, stored, -, hp, hfirst, rfl, hdesignated, htree⟩ := join_cases h
  obtain ⟨hpmem, hpname⟩ := node?_eq_some hp
  refine ⟨_, _, _, htree, rfl, rfl, ⟨p, hpmem, hpname, rfl⟩, ?_⟩
  obtain ⟨hin, -⟩ | ⟨hnew, hsame⟩ := hdesignated
  · rw [if_pos hin]
    refine ⟨.inr rfl, { first with table := j.table }, ?_, rfl⟩
    rw [rebase, List.head?_map, hfirst]
    rfl
  · rw [hnew]
    exact ⟨.inl rfl, first, hfirst, (Prod.mk.inj hsame).1.symm⟩

/-- The trees built from a root table by joins that succeed, whatever columns these are asked for
with: what each one was asked for, in their order. Any catalog may be at hand for a join. -/
inductive Attached : List (String × JoinLink) → JoinTree → Prop where
  | root (c : Catalog) (name : String) (root : TableId) : Attached [] (ofRoot c name root)
  | join {asked : List (String × JoinLink)} {t : JoinTree} {c : Catalog} {name : String}
    {link : JoinLink} {j : Joined} (ht : Attached asked t)
    (hjoin : t.join c link.parent name link.direction link.left link.right = .ok j) :
    Attached (asked ++ [(name, link)]) j.tree

/-- The `i`-th join of the clause, against what it was asked for: the node that it joins has the
name, its parent is a node listed before, and its columns are at the positions given. -/
structure Stored (t : JoinTree) (i : Nat) (name : String) (link : JoinLink) (n : JoinNode)
    (left right : List ColumnRef) : Prop where
  node : t.nodes[i + 1]? = some n
  name_eq : n.name = name
  link_eq : n.link = some { link with left, right }
  /-- the left columns are read on the table of the parent -/
  parent : ∃ k ≤ i, ∃ p, t.nodes[k]? = some p ∧ p.name = link.parent ∧
    left = rebase p.table link.left
  /-- the right ones are as given, or those of the clone that was made for the node -/
  right_cases : right = link.right ∨ right = rebase n.table link.right
  head : ∃ first, right.head? = some first ∧ first.table = n.table
  join : t.toFrom.joins[i]? = some (.key link.direction left right)

namespace Stored

variable {t : JoinTree} {i : Nat} {name : String} {link : JoinLink} {n : JoinNode}
  {left right : List ColumnRef}

/-- A node added later leaves the joins that are there. -/
theorem concat {m : JoinNode} {l : JoinLink} (hm : m.link = some l)
    (h : Stored t i name link n left right) :
    Stored ⟨t.nodes ++ [m]⟩ i name link n left right := by
  obtain ⟨k, hk, p, hp, hparent⟩ := h.parent
  refine ⟨?_, h.name_eq, h.link_eq, ⟨k, hk, p, ?_, hparent⟩, h.right_cases, h.head, ?_⟩
  · rw [List.getElem?_append_left (List.getElem?_eq_some_iff.mp h.node).1]
    exact h.node
  · rw [List.getElem?_append_left (List.getElem?_eq_some_iff.mp hp).1]
    exact hp
  · have hjoins : t.toFrom.joins[i]? = _ := h.join
    rw [toFrom_concat, (addNode_of_link _ m hm).2,
      List.getElem?_append_left (List.getElem?_eq_some_iff.mp hjoins).1]
    exact hjoins

theorem map_position_left (h : Stored t i name link n left right) :
    left.map (·.position) = link.left.map (·.position) := by
  obtain ⟨-, -, p, -, -, rfl⟩ := h.parent
  exact map_position_rebase p.table link.left

theorem map_position_right (h : Stored t i name link n left right) :
    right.map (·.position) = link.right.map (·.position) := by
  obtain rfl | rfl := h.right_cases
  · rfl
  · exact map_position_rebase n.table link.right

/-- Right columns that are given for one table are those of the node. -/
theorem table_of_mem_right (h : Stored t i name link n left right) {table : TableId}
    (hright : ∀ ref ∈ link.right, ref.table = table) {ref : ColumnRef} (href : ref ∈ right) :
    ref.table = n.table := by
  obtain ⟨first, hfirst, htable⟩ := h.head
  obtain rfl | rfl := h.right_cases
  · rw [hright ref href, ← htable, hright first (List.mem_of_head? hfirst)]
  · exact table_of_mem_rebase href

end Stored

namespace Attached

variable {asked : List (String × JoinLink)} {t : JoinTree}

/-- The clause has as many joins as were asked for, and the tree a node for each besides its
root. -/
theorem lengths (h : Attached asked t) :
    t.toFrom.joins.length = asked.length ∧ t.nodes.length = asked.length + 1 := by
  induction h with
  | root => exact ⟨rfl, rfl⟩
  | @join asked t c name link j ht hjoin ih =>
    obtain ⟨n, left, right, htree, -, hlink, -⟩ := join_link hjoin
    rw [htree, toFrom_concat, (addNode_of_link _ n hlink).2]
    simp only [List.length_append, List.length_singleton]
    exact ⟨congrArg (· + 1) ih.1, congrArg (· + 1) ih.2⟩

/-- Each join is stored as it was asked for. -/
theorem exists_stored (h : Attached asked t) {i : Nat} {name : String} {link : JoinLink}
    (hi : asked[i]? = some (name, link)) : ∃ n left right, Stored t i name link n left right := by
  induction h with
  | root => simp at hi
  | @join asked t c newName newLink j ht hjoin ih =>
    obtain ⟨n, left, right, htree, hname, hlink, ⟨p, hp, hparent⟩, hright, hhead⟩ :=
      join_link hjoin
    rw [htree]
    by_cases hold : i < asked.length
    · rw [List.getElem?_append_left hold] at hi
      obtain ⟨m, left, right, hstored⟩ := ih hi
      exact ⟨m, left, right, hstored.concat hlink⟩
    · -- the last join is found behind all others, and its parent is one of the nodes before
      have hlast : i = asked.length := by
        have hlt := (List.getElem?_eq_some_iff.mp hi).1
        rw [List.length_append, List.length_singleton] at hlt
        omega
      subst hlast
      rw [List.getElem?_concat_length] at hi
      obtain ⟨rfl, rfl⟩ := Prod.mk.inj (Option.some.inj hi)
      obtain ⟨hjoins, hnodes⟩ := ht.lengths
      obtain ⟨k, hk⟩ := List.mem_iff_getElem?.mp hp
      have hlt := (List.getElem?_eq_some_iff.mp hk).1
      refine ⟨n, left, right, ?_, hname, hlink, ⟨k, by omega, p, ?_, hparent⟩, hright, hhead, ?_⟩
      · rw [← hnodes, List.getElem?_concat_length]
      · rw [List.getElem?_append_left hlt, hk]
      · rw [toFrom_concat, (addNode_of_link _ n hlink).2, ← hjoins]
        exact List.getElem?_concat_length

end Attached

end JoinTree
end SqlGraph
