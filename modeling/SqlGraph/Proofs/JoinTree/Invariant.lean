import SqlGraph.Proofs.JoinTree.Aliases

/-!
# Join trees under any requests

A caller may ask for joins that fail, join the same table many times, name tables after aliases
that a counter would give, and register more tables between two joins. A request is run on the
tree and its catalog (`Request.run`), one after another (`runAll`). One request keeps a tree
well-formed and only adds nodes at its end, hence so do all of them.
-/

namespace SqlGraph
namespace JoinTree

/-- What a caller may ask for. -/
inductive Request where
  /-- A join. -/
  | join (parent name : String) (direction : Direction) (left right : List ColumnRef)
  /-- The catalog has become `later`, as tables or columns were registered. -/
  | grow (later : Catalog)

namespace Request

/-- Whether the table that the right columns designate, if any, is registered. -/
def inRange (c : Catalog) (right : List ColumnRef) : Bool :=
  right.head?.all fun first => first.table < c.size

/-- The tree and the catalog after a request. A join that fails changes nothing, and neither does
one that designates a table out of range. Tables are never removed from a catalog. -/
def run (s : JoinTree × Catalog) : Request → JoinTree × Catalog
  | .join parent name direction left right =>
    if inRange s.2 right then
      match s.1.join s.2 parent name direction left right with
      | .ok j => (j.tree, j.catalog)
      | .error _ => s
    else s
  | .grow later => if s.2.size ≤ later.size then (s.1, later) else s

end Request

/-- The tree and the catalog after some requests. -/
def runAll (requests : List Request) (s : JoinTree × Catalog) : JoinTree × Catalog :=
  requests.foldl Request.run s

/-! ## One request -/

/-- The outcomes of a request: nothing changes, the catalog grows, or a node is joined. -/
theorem Request.run_cases (s : JoinTree × Catalog) (request : Request) :
    request.run s = s ∨
    (∃ later, s.2.size ≤ later.size ∧ request.run s = (s.1, later)) ∨
    ∃ parent name direction left right j, (∀ first ∈ right.head?, first.table < s.2.size) ∧
      s.1.join s.2 parent name direction left right = .ok j ∧
      request.run s = (j.tree, j.catalog) := by
  cases request with
  | grow later =>
    by_cases hle : s.2.size ≤ later.size
    · exact .inr (.inl ⟨later, hle, if_pos hle⟩)
    · exact .inl (if_neg hle)
  | join parent name direction left right =>
    by_cases hrange : inRange s.2 right = true
    · cases hjoin : s.1.join s.2 parent name direction left right with
      | error e => exact .inl (by simp only [run, if_pos hrange, hjoin])
      | ok j =>
        have hright : ∀ first ∈ right.head?, first.table < s.2.size := by
          intro first hfirst
          simpa [inRange, Option.mem_def.mp hfirst] using hrange
        exact .inr (.inr ⟨parent, name, direction, left, right, j, hright, hjoin,
          by simp only [run, if_pos hrange, hjoin]⟩)
    · exact .inl (if_neg hrange)

/-- A successful join adds one node at the end. -/
theorem join_nodes {t : JoinTree} {c : Catalog} {parent name : String} {direction : Direction}
    {left right : List ColumnRef} {j : Joined}
    (h : t.join c parent name direction left right = .ok j) :
    ∃ p ∈ t.nodes, ∃ n, j.tree.nodes = t.nodes ++ [n] ∧ p.name = parent ∧ n.name = name ∧
      n.table = j.table ∧ n.parent? = some parent ∧
      n.aliasName = freshAlias t.aliases (p.aliasName ++ "_" ++ j.catalog.nameOf j.table) := by
  obtain ⟨p, _, link, _, hp, _, hlink, _, htree⟩ := join_cases h
  obtain ⟨hpmem, hpname⟩ := node?_eq_some hp
  refine ⟨p, hpmem, _, congrArg JoinTree.nodes htree, hpname, rfl, rfl, ?_, rfl⟩
  rw [hlink]
  rfl

/-- A request keeps a tree well-formed. -/
theorem WellFormed.run {s : JoinTree × Catalog} (h : WellFormed s.1 s.2) (request : Request) :
    WellFormed (request.run s).1 (request.run s).2 := by
  rcases request.run_cases s with
    hsame | ⟨later, hle, hgrown⟩ | ⟨_, _, _, _, _, j, hright, hjoin, hjoined⟩
  · rw [hsame]
    exact h
  · rw [hgrown]
    exact h.grow hle
  · rw [hjoined]
    exact (h.join hright hjoin).1

/-- A request keeps the nodes that are there. -/
theorem Request.nodes_prefix_run (s : JoinTree × Catalog) (request : Request) :
    s.1.nodes <+: (request.run s).1.nodes := by
  rcases request.run_cases s with
    hsame | ⟨later, _, hgrown⟩ | ⟨_, _, _, _, _, j, _, hjoin, hjoined⟩
  · exact ⟨[], by rw [hsame, List.append_nil]⟩
  · exact ⟨[], by rw [hgrown, List.append_nil]⟩
  · obtain ⟨_, _, n, hnodes, _⟩ := join_nodes hjoin
    rw [hjoined, hnodes]
    exact List.prefix_append _ _

/-! ## Any requests -/

/-- Requests keep a tree well-formed. -/
theorem WellFormed.runAll {s : JoinTree × Catalog} (h : WellFormed s.1 s.2)
    (requests : List Request) :
    WellFormed (runAll requests s).1 (runAll requests s).2 := by
  induction requests generalizing s with
  | nil => exact h
  | cons request rest ih => exact ih (h.run request)

/-- Requests keep the nodes that are there. -/
theorem nodes_prefix_runAll (requests : List Request) (s : JoinTree × Catalog) :
    s.1.nodes <+: (runAll requests s).1.nodes := by
  induction requests generalizing s with
  | nil => exact List.prefix_rfl
  | cons request rest ih => exact (request.nodes_prefix_run s).trans (ih (request.run s))

/-- After any requests to a tree of its root, the root is still the first node, the names, aliases
and tables of the nodes are pairwise distinct, and each node but the root has its parent before
it. From any base, the search for an alias then ends at the first candidate that no node has,
however the aliases in use are listed, and a join puts its node under the alias that the search
gives for the alias of its parent and the name of its table. -/
theorem runAll_ofRoot_wellFormed {start : Catalog} (name : String) {root : TableId}
    (hroot : root < start.size) (requests : List Request) {t : JoinTree} {c : Catalog}
    (hrun : runAll requests (ofRoot start name root, start) = (t, c)) :
    (ofRoot start name root).nodes <+: t.nodes ∧ WellFormed t c ∧
    (∀ base, ∃ i ≤ t.nodes.length, aliasCandidate base i ∉ t.aliases ∧
      (∀ k < i, aliasCandidate base k ∈ t.aliases) ∧
      ∀ used, (∀ a, a ∈ used ↔ a ∈ t.aliases) → freshAlias used base = aliasCandidate base i) ∧
    (∀ parent child direction left right j, t.join c parent child direction left right = .ok j →
      ∃ p ∈ t.nodes, ∃ n, j.tree.nodes = t.nodes ++ [n] ∧ p.name = parent ∧ n.name = child ∧
        n.table = j.table ∧ n.parent? = some parent ∧
        n.aliasName = freshAlias t.aliases (p.aliasName ++ "_" ++ j.catalog.nameOf j.table)) := by
  have hkept := nodes_prefix_runAll requests (ofRoot start name root, start)
  have hstart : WellFormed (ofRoot start name root) start := WellFormed.ofRoot hroot
  have hwell := WellFormed.runAll (s := (ofRoot start name root, start)) hstart requests
  rw [hrun] at hkept hwell
  refine ⟨hkept, hwell, fun base => ?_, fun _ _ _ _ _ _ hjoin => join_nodes hjoin⟩
  obtain ⟨i, hi, halias, hfree, hbefore⟩ := freshAlias_first t.aliases base
  have hlength : t.aliases.length = t.nodes.length := List.length_map _
  exact ⟨i, hlength ▸ hi, hfree, hbefore, fun _ hused => (freshAlias_congr hused base).trans halias⟩

/-- A table, one named after the alias that a second join of the first would get, and a derived
table without name. -/
private def imitation : Catalog :=
  ⟨[{ name := some "X" }, { name := some "X_1" }, { name := none, body := some (.union {}) }]⟩

/-- Joins to the root `r` that succeed, repeat a table, repeat a name, or miss their parent. -/
private def imitationRequests : List Request :=
  [.join "r" "a" .inner [⟨0, 0⟩] [⟨0, 0⟩], .join "r" "a" .inner [] [⟨1, 0⟩],
    .join "r" "b" .inner [] [⟨1, 0⟩], .join "nobody" "c" .inner [] [⟨0, 0⟩],
    .join "r" "c" .inner [] [⟨0, 0⟩], .join "r" "d" .inner [] [⟨2, 0⟩],
    .join "a" "e" .inner [] [⟨2, 0⟩], .join "r" "f" .inner [] [⟨9, 0⟩],
    .join "r" "g" .inner [] [], .join "a" "h" .inner [] [⟨3, 0⟩]]

/-- The tree and the catalog after these requests. -/
private def imitated : JoinTree × Catalog :=
  runAll imitationRequests (ofRoot imitation "r" 0, imitation)

/-- Natural aliases and counted ones do not meet, and clones are told apart. -/
theorem runAll_imitation_wellFormed :
    0 < imitation.size ∧
      runAll imitationRequests (ofRoot imitation "r" 0, imitation) = (imitated.1, imitated.2) ∧
      imitated.1.aliases = ["X", "X_X", "X_X_1", "X_X_2", "X_t2", "X_X_t5", "X_X_X"] ∧
      WellFormed imitated.1 imitated.2 :=
  have hrun : runAll imitationRequests (ofRoot imitation "r" 0, imitation) =
      (imitated.1, imitated.2) := by
    rw [← imitated]
  ⟨by decide, hrun, by decide +kernel,
    (runAll_ofRoot_wellFormed "r" (by decide) imitationRequests hrun).2.1⟩

end JoinTree
end SqlGraph
