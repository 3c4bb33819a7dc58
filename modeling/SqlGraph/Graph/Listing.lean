import SqlGraph.Graph.Transformer
import SqlGraph.Text.Shown

/-!
# Listing transformers and contexts

A transformer is shown by its key columns, its columns and the number of its relations; a
context by its counts; a bean by its content, unless it is being changed; a weak link only as
such.
-/

namespace SqlGraph.Graph

variable {α : Type}

open Text (shown shownOption shownList)

/-- A factory as listings show it. -/
def Factory.shown (f : Factory α) : String :=
  "BeanFactory \x7b key_columns: " ++ shownOption (shownList Text.shown) f.keyColumns ++ " \x7d"

/-- A transformer as listings show it. -/
def Transformer.shown (t : Transformer α) : String :=
  "RowTransformer \x7b factory: " ++ t.factory.shown ++ ", columns: " ++
    shownList Text.shown t.columnLabels ++ ", relations: " ++ toString t.relations.length ++ " \x7d"

/-- A context as listings show it. -/
def Context.shown (c : Context) : String :=
  "MaterializationContext \x7b cached_beans: " ++ toString c.cache.length ++ ", treated: " ++
    toString c.treated.length ++ ", roots: " ++ toString c.roots.length ++ " \x7d"

/-- A bean as listings show it, its content shown by the given text. -/
def shownBean (content : String) : String := "Bean(" ++ content ++ ")"

/-- A bean that is being changed, as listings show it. -/
def shownInUse : String := shownBean "<borrowed>"

/-- A weak link as listings show it. -/
def shownWeak : String := "WeakBean"

end SqlGraph.Graph
