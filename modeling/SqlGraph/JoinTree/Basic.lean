import SqlGraph.Catalog.Basic

/-!
# Join trees

A join tree names the tables reached from a root table by joins. Every node has a name, a table
and an alias of its own; a table that is joined once more is cloned in the catalog, so that each
node has a table of its own too. The nodes are listed root first, then in joining order.

* `JoinTree.ofRoot` starts a tree;
* `JoinTree.join` adds a node, or fails and changes nothing;
* `freshAlias` is how an alias is chosen that no node has.
-/

namespace SqlGraph

/-- How a node is joined to its parent: the columns on both sides. -/
structure JoinLink where
  parent : String
  direction : Direction
  left : List ColumnRef
  right : List ColumnRef

/-- A table of a join tree. The root has no link. -/
structure JoinNode where
  name : String
  table : TableId
  aliasName : String
  link : Option JoinLink := none

/-- The name of the parent node, absent for the root. -/
def JoinNode.parent? (n : JoinNode) : Option String := n.link.map (·.parent)

/-- Tables joined from a root, root first. -/
structure JoinTree where
  nodes : List JoinNode

/-- The name of a table, a generated one when it has none. -/
def Catalog.nameOf (c : Catalog) (id : TableId) : String :=
  ((c.table? id).map fun t => t.nameAt id).getD ("t" ++ toString id)

namespace JoinTree

/-- A tree of one table, under its own name. -/
def ofRoot (c : Catalog) (name : String) (root : TableId) : JoinTree :=
  ⟨[{ name, table := root, aliasName := c.nameOf root }]⟩

/-- The node of a name. -/
def node? (t : JoinTree) (name : String) : Option JoinNode :=
  t.nodes.find? fun n => n.name == name

/-- Whether some node has this table. -/
def containsTable (t : JoinTree) (table : TableId) : Bool :=
  t.nodes.any fun n => n.table == table

/-- The aliases of the nodes. -/
def aliases (t : JoinTree) : List String := t.nodes.map (·.aliasName)

/-! ## Aliases -/

/-- The candidates for an alias: the base itself, then the base with a counter from one. -/
def aliasCandidate (base : String) : Nat → String
  | 0 => base
  | n + 1 => base ++ "_" ++ toString (n + 1)

/-- The first candidate that is not in use. One more candidate than there are aliases is enough,
as candidates are pairwise different. -/
def freshAlias (used : List String) (base : String) : String :=
  (((List.range (used.length + 1)).map (aliasCandidate base)).find? fun a =>
    !used.contains a).getD base

/-! ## Joining -/

/-- The columns at the same positions of another table. -/
def rebase (table : TableId) (columns : List ColumnRef) : List ColumnRef :=
  columns.map fun c => { c with table }

/-- A successful join: the table of the new node, and the tree and catalog with it. -/
structure Joined where
  table : TableId
  tree : JoinTree
  catalog : Catalog

/-- Joins a table to the node named `parent`. The right columns designate the table; the left
ones are read on the parent's table. A table that is in the tree already is cloned. -/
def join (t : JoinTree) (c : Catalog) (parent name : String) (direction : Direction)
    (left right : List ColumnRef) : Except Error Joined :=
  match t.node? name, t.node? parent, right.head? with
  | some _, _, _ => .error (.duplicateJoin name)
  | none, none, _ => .error (.unknownJoin parent)
  | none, some _, none => .error (.unknownJoin parent)
  | none, some p, some first =>
    let (table, catalog) :=
      if t.containsTable first.table then c.cloneTable first.table else (first.table, c)
    let right := if t.containsTable first.table then rebase table right else right
    let link := { parent, direction, left := rebase p.table left, right }
    let aliasName := freshAlias t.aliases (p.aliasName ++ "_" ++ catalog.nameOf table)
    .ok { table, catalog, tree := ⟨t.nodes ++ [{ name, table, aliasName, link := some link }]⟩ }

end JoinTree

end SqlGraph
