import SqlGraph.Render.Context
import SqlGraph.Template.Draft

/-!
# Statements with placeholders

The prepared form of a statement is the template of its pieces: text as it is, a numbered place
for each value, and the named placeholders by name.
-/

namespace SqlGraph
namespace Prepared

/-- The template of a statement, absent when it has dangling references. -/
def statement? (catalog : Catalog) (escape : String → String) (s : Statement) : Option Template :=
  Template.ofPieces? (Render.statement (.ofCatalog catalog escape) [] s)

end Prepared
end SqlGraph
