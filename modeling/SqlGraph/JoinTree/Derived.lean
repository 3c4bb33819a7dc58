import SqlGraph.JoinTree.Basic

/-!
# What a join tree stands for

A join tree stands for a from clause that joins all its nodes (`toFrom`), for a projection of
every column of every node (`selectAll`), and for the labels under which the columns of a node
are then found (`columnLabels`). A label is the alias of the node and the name of the column.
-/

namespace SqlGraph
namespace JoinTree

/-- Adds a node to a from clause: as its root or as a join, under its alias. -/
def addNode (f : FromClause) (n : JoinNode) : FromClause :=
  let f :=
    match n.link with
    | none => { f with root := some n.table }
    | some l => f.join (.key l.direction l.left l.right)
  f.setAlias n.table n.aliasName

/-- The from clause that joins all nodes. -/
def toFrom (t : JoinTree) : FromClause := t.nodes.foldl addNode {}

/-- The label of a column of a node. -/
def label (n : JoinNode) (column : String) : String := n.aliasName ++ "_" ++ column

/-- The columns of a node under their labels. -/
def selectNode (c : Catalog) (n : JoinNode) : List Expression :=
  (c.columnsOf n.table).map fun ref =>
    (Expression.column ref).aliased (label n (((c.column? ref).map (·.name)).getD ""))

/-- Every column of every node under its label. -/
def selectAll (t : JoinTree) (c : Catalog) : List Expression := t.nodes.flatMap (selectNode c)

/-- The label of each column of a node, by the name of the column. -/
def columnLabels (t : JoinTree) (c : Catalog) (name : String) :
    Except Error (List (String × String)) :=
  match t.node? name with
  | none => .error (.unknownJoin name)
  | some n =>
    .ok (((c.table? n.table).map (·.columns)).getD [] |>.map fun column =>
      (column.name, label n column.name))

end JoinTree
end SqlGraph
