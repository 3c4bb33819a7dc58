import SqlGraph.Graph.Heap

/-!
# Traversal contexts

The context of a traversal remembers what was built so far: the identity cache from kind and key
to bean, the pairs of a bean and a relation that were already assembled once, the beans handed
over as roots, and the beans without key that it keeps alive.
-/

namespace SqlGraph.Graph

/-- The identity of a relation, shared by all uses of it. -/
abbrev RelationId := Nat

/-- What a traversal remembers. -/
structure Context where
  cache : List ((BeanKind × Key) × BeanId) := []
  treated : List (BeanId × RelationId) := []
  roots : List BeanId := []
  retained : List BeanId := []

namespace Context

/-- Whether a cache entry is the one of a kind and key. -/
def isEntry (kind : BeanKind) (key : Key) (entry : (BeanKind × Key) × BeanId) : Bool :=
  entry.1.1 == kind && entry.1.2.sameEntry key

/-- The bean built for a kind and key. -/
def cached? (c : Context) (kind : BeanKind) (key : Key) : Option BeanId :=
  (c.cache.find? (isEntry kind key)).map (·.2)

/-- Remembers the bean of a kind and key, in place of a former one. -/
def remember (c : Context) (kind : BeanKind) (key : Key) (bean : BeanId) : Context :=
  { c with cache := ((kind, key), bean) :: c.cache.filter fun e => !isEntry kind key e }

/-- Keeps a bean alive. -/
def retain (c : Context) (bean : BeanId) : Context := { c with retained := bean :: c.retained }

/-- Whether a relation was already assembled for a bean. -/
def isTreated (c : Context) (bean : BeanId) (relation : RelationId) : Bool :=
  c.treated.contains (bean, relation)

/-- Marks a relation as assembled for a bean. -/
def treat (c : Context) (bean : BeanId) (relation : RelationId) : Context :=
  if c.isTreated bean relation then c else { c with treated := (bean, relation) :: c.treated }

/-- Whether a bean was already handed over as a root. -/
def isRoot (c : Context) (bean : BeanId) : Bool := c.roots.contains bean

/-- Marks a bean as handed over. -/
def markRoot (c : Context) (bean : BeanId) : Context :=
  if c.isRoot bean then c else { c with roots := bean :: c.roots }

/-- The beans the context keeps alive. -/
def held (c : Context) : List BeanId := c.cache.map (·.2) ++ c.retained

end Context

end SqlGraph.Graph
