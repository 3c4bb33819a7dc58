import SqlGraph.Proofs.JoinTree.Stored
import SqlGraph.Render.Clause

/-!
# Conditions of the joins of a tree

A join is asked for with left and right columns, and its condition compares them by position. What
becomes of a column is decided in two places: `JoinTree.join` refuses a join without right columns
and no other, and the text of a join pairs the columns up to the end of the shorter list.

So a condition compares all columns exactly when there are as many on the left as on the right
(`Attached.condition_comparesAll_iff`). Without left columns nothing follows `on`.
-/

namespace SqlGraph

/-- A key join in SQL text: its condition has one equality for each pair of columns. -/
theorem Render.join_key (ctx : Context) (scopes : Scopes) (direction : Direction)
    {left right : List ColumnRef} {first : ColumnRef} (hfirst : right.head? = some first) :
    join ctx scopes (.key direction left right) =
      .text direction.keyword :: .text " " :: tableReference ctx scopes first.table ++
        .text " on " :: separated " and "
          ((left.zip right).map fun pair => columnsEqual ctx scopes pair.1 pair.2) := by
  obtain ⟨rest, rfl⟩ := List.head?_eq_some_iff.mp hfirst
  rw [List.map_zip_eq_zipWith]
  rfl

namespace JoinTree

/-! ## Pairs of columns -/

/-- Pairs of columns compare all that a join is asked for: there is a pair, and either side has the
columns at the positions given, one for one. -/
def ComparesAll (pairs : List (ColumnRef × ColumnRef)) (link : JoinLink) : Prop :=
  pairs ≠ [] ∧ pairs.map (·.1.position) = link.left.map (·.position) ∧
    pairs.map (·.2.position) = link.right.map (·.position)

section Pairs

variable {left right : List ColumnRef} {link : JoinLink}
  (hleft : left.map (·.position) = link.left.map (·.position))
  (hright : right.map (·.position) = link.right.map (·.position))

include hleft hright

/-- The columns at the same position of both lists are compared, as long as there are two. -/
theorem positions_zip :
    (left.zip right).map (fun pair => (pair.1.position, pair.2.position)) =
      (link.left.map (·.position)).zip (link.right.map (·.position)) := by
  rw [← hleft, ← hright, List.zip_map]
  rfl

/-- Pairing by position drops no column exactly when both lists are equally long. -/
theorem comparesAll_zip_iff (hne : right ≠ []) :
    ComparesAll (left.zip right) link ↔ link.left.length = link.right.length := by
  have hleftLength : left.length = link.left.length := by
    simpa using congrArg List.length hleft
  have hrightLength : right.length = link.right.length := by
    simpa using congrArg List.length hright
  constructor
  · rintro ⟨-, hfirsts, hseconds⟩
    have hl := congrArg List.length hfirsts
    have hr := congrArg List.length hseconds
    simp only [List.length_map] at hl hr
    exact hl.symm.trans hr
  · intro hlength
    have hequal : left.length = right.length := by rw [hleftLength, hlength, hrightLength]
    refine ⟨fun hnil => ?_, ?_, ?_⟩
    · obtain hnone | hnone := List.zip_eq_nil_iff.mp hnil
      · rw [hnone] at hequal
        exact hne (List.length_eq_zero_iff.mp hequal.symm)
      · exact hne hnone
    · have hfirsts := congrArg (List.map (·.position)) (List.map_fst_zip (Nat.le_of_eq hequal))
      rw [List.map_map] at hfirsts
      exact hfirsts.trans hleft
    · have hseconds :=
        congrArg (List.map (·.position)) (List.map_snd_zip (Nat.le_of_eq hequal.symm))
      rw [List.map_map] at hseconds
      exact hseconds.trans hright

end Pairs

namespace Attached

variable {asked : List (String × JoinLink)} {t : JoinTree}

/-! ## Conditions -/

/-- The clause writes each join with one equality for each pair of columns. The pairs are made by
position from the columns that the join was asked for with, so that they compare all of them
exactly when there are as many on the left as on the right; otherwise the longer list loses its
last columns, and with no left columns the condition is empty. -/
theorem condition_comparesAll_iff (h : Attached asked t) {i : Nat} {name : String} {link : JoinLink}
    (hi : asked[i]? = some (name, link)) :
    ∃ n left right, Stored t i name link n left right ∧
      (Join.key link.direction left right).rightTable? = some n.table ∧
      (∀ ctx scopes, Render.join ctx scopes (.key link.direction left right) =
        .text link.direction.keyword :: .text " " :: Render.tableReference ctx scopes n.table ++
          .text " on " :: Render.separated " and "
            ((left.zip right).map fun pair => Render.columnsEqual ctx scopes pair.1 pair.2)) ∧
      (left.zip right).map (fun pair => (pair.1.position, pair.2.position)) =
        (link.left.map (·.position)).zip (link.right.map (·.position)) ∧
      (ComparesAll (left.zip right) link ↔ link.left.length = link.right.length) := by
  obtain ⟨n, left, right, hstored⟩ := h.exists_stored hi
  obtain ⟨first, hfirst, htable⟩ := hstored.head
  have hne : right ≠ [] := List.ne_nil_of_mem (List.mem_of_head? hfirst)
  refine ⟨n, left, right, hstored, ?_, fun ctx scopes => ?_,
    positions_zip hstored.map_position_left hstored.map_position_right,
    comparesAll_zip_iff hstored.map_position_left hstored.map_position_right hne⟩
  · rw [← htable]
    exact congrArg (Option.map (·.table)) hfirst
  · rw [Render.join_key ctx scopes link.direction hfirst, htable]

/-- Orders and their customers, who are told apart by a number within a country. -/
private def sales : Catalog := ⟨[
  { name := some "order"
    columns := [{ name := "id", type := .bigInt }, { name := "country", type := .text },
      { name := "customer", type := .bigInt }] },
  { name := some "customer"
    columns := [{ name := "country", type := .text }, { name := "number", type := .bigInt }] }]⟩

/-- The customer of an order, by columns of the order and the key of the customer. -/
private def customerBy (left : List ColumnRef) : JoinLink :=
  ⟨"order", .inner, left, [⟨1, 0⟩, ⟨1, 1⟩]⟩

/-- The tree of an order and its customer. -/
private def customerTree (left : List ColumnRef) : JoinTree := ⟨[
  { name := "order", table := 0, aliasName := "order" },
  { name := "customer", table := 1, aliasName := "order_customer"
    link := some { customerBy left with left := rebase 0 left } }]⟩

private theorem attached_customer (left : List ColumnRef) :
    Attached [("customer", customerBy left)] (customerTree left) := by
  have hjoin : (ofRoot sales "order" 0).join sales (customerBy left).parent "customer"
      (customerBy left).direction (customerBy left).left (customerBy left).right =
        .ok ⟨1, customerTree left, sales⟩ := rfl
  exact .join (.root sales "order" 0) hjoin

/-- Two columns against the two of the key are all compared; the country alone is not enough. -/
theorem condition_customer :
    Attached [("customer", customerBy [⟨0, 1⟩, ⟨0, 2⟩])] (customerTree [⟨0, 1⟩, ⟨0, 2⟩]) ∧
      ComparesAll [(⟨0, 1⟩, ⟨1, 0⟩), (⟨0, 2⟩, ⟨1, 1⟩)] (customerBy [⟨0, 1⟩, ⟨0, 2⟩]) ∧
      ¬ ComparesAll [(⟨0, 1⟩, ⟨1, 0⟩)] (customerBy [⟨0, 1⟩]) := by
  refine ⟨attached_customer _, ?_, ?_⟩
  · obtain ⟨n, left, right, hstored, -, -, -, hall⟩ :=
      condition_comparesAll_iff (attached_customer [⟨0, 1⟩, ⟨0, 2⟩]) (i := 0) rfl
    obtain ⟨-, rfl, rfl⟩ := Join.key.inj (Option.some.inj hstored.join)
    exact hall.mpr rfl
  · obtain ⟨n, left, right, hstored, -, -, -, hall⟩ :=
      condition_comparesAll_iff (attached_customer [⟨0, 1⟩]) (i := 0) rfl
    obtain ⟨-, rfl, rfl⟩ := Join.key.inj (Option.some.inj hstored.join)
    exact mt hall.mp (by decide)

/-- A join is accepted with fewer columns on the left, even with none. -/
theorem not_forall_comparesAll : ¬ ∀ asked t, Attached asked t →
    ∀ (i : Nat) name link, asked[i]? = some (name, link) →
    ∀ direction left right, t.toFrom.joins[i]? = some (.key direction left right) →
      ComparesAll (left.zip right) link := by
  intro hall
  obtain ⟨hne, -⟩ :=
    hall _ _ (attached_customer []) 0 "customer" (customerBy []) rfl .inner [] _ rfl
  exact hne rfl

end Attached
end JoinTree
end SqlGraph
