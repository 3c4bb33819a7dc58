import SqlGraph.Text.Lowercase

/-!
# Quoting names that collide with keywords

Names of tables, columns and aliases are written through an escaping function on strings. The
identity writes them as they are; `KeywordQuoting.escape` puts quotes around the names that are
keywords of the target database, letter case left out of the comparison.
-/

namespace SqlGraph

/-- Keywords of a database and the quotes that make a name of one. -/
structure KeywordQuoting where
  keywords : List String
  opening : String := "\""
  closing : String := "\""

namespace KeywordQuoting

/-- Whether the name is one of the keywords, letter case aside. -/
def isKeyword (q : KeywordQuoting) (name : String) : Bool :=
  q.keywords.any fun keyword => Text.lowercase keyword == Text.lowercase name

/-- The name as it is written, between quotes when it is a keyword. -/
def escape (q : KeywordQuoting) (name : String) : String :=
  if q.isKeyword name then q.opening ++ name ++ q.closing else name

end KeywordQuoting

end SqlGraph
