import SqlGraph.Render.Clause

/-!
# Contexts for a catalog

The statement of a derived table mentions only tables registered before it. So the context for
the tables below a position is built from the one for the tables below the position before:
`Context.below n` can write the statements of the first `n` tables, and the context for a
catalog can write all of them.
-/

namespace SqlGraph
namespace Render.Context

/-- The context in which the statements of the tables below a position can be written; any other
is a dangling reference. -/
def below (catalog : Catalog) (escape : String → String) : Nat → Context
  | 0 => { catalog, escape, derived := fun _ _ => [.dangling] }
  | n + 1 =>
    let inner := below catalog escape n
    { catalog, escape
      derived := fun id scopes =>
        if id = n then
          match (catalog.table? n).bind (·.body) with
          | some body => statement inner scopes body
          | none => []
        else inner.derived id scopes }

/-- The context of a catalog: the statements of all its tables can be written. -/
def ofCatalog (catalog : Catalog) (escape : String → String) : Context :=
  below catalog escape catalog.size

/-! ## Tables and names of these contexts -/

section

variable (catalog : Catalog) (escape : String → String)

theorem catalog_below (n : Nat) : (below catalog escape n).catalog = catalog := by
  cases n <;> rfl

theorem escape_below (n : Nat) : (below catalog escape n).escape = escape := by
  cases n <;> rfl

/-- The statement of a table below the position is written in the context of its own position. -/
theorem derived_below (n : Nat) (id : TableId) (scopes : Scopes) :
    (below catalog escape n).derived id scopes =
      if id < n then
        match (catalog.table? id).bind (·.body) with
        | some body => statement (below catalog escape id) scopes body
        | none => []
      else [.dangling] := by
  induction n with
  | zero => rfl
  | succ n ih =>
    by_cases heq : id = n
    · rw [if_pos (heq ▸ Nat.lt_succ_self id)]
      subst heq
      simp only [below, if_pos]
    · have hiff : id < n + 1 ↔ id < n :=
        ⟨fun h => Nat.lt_of_le_of_ne (Nat.le_of_lt_succ h) heq, Nat.lt_succ_of_lt⟩
      simp only [below, if_neg heq, ih, hiff]

theorem catalog_ofCatalog : (ofCatalog catalog escape).catalog = catalog :=
  catalog_below catalog escape catalog.size

theorem escape_ofCatalog : (ofCatalog catalog escape).escape = escape :=
  escape_below catalog escape catalog.size

end

end Render.Context
end SqlGraph
