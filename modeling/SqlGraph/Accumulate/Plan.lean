import SqlGraph.Accumulate.Grouping
import SqlGraph.Json.Value

/-!
# Accumulators chosen by a plan

A plan names one of the accumulators of items, and how groups nest. `Plan.accumulator` is the
accumulator it stands for; its seed has the type `Plan.Seed`, and its result is a `Folded` value,
which is shaped like the plan.
-/

namespace SqlGraph

/-- Which accumulator folds items of type `ι`. -/
inductive Plan (ι : Type) where
  /-- all items -/
  | list
  /-- the distinct items -/
  | distinct
  /-- the first item that is not null -/
  | first
  /-- the only item that is not null -/
  | unique
  /-- all items, the last one first -/
  | reversed
  /-- a fold for each key -/
  | group (key : ι → Json) (down : Plan ι)

/-- The result of a plan. -/
inductive Folded (ι : Type) where
  | all (items : List ι)
  | found (item : Option ι)
  | groups (results : List (Json × Folded ι))

namespace Plan

variable {ι : Type}

/-- The seed of the accumulator of a plan. -/
def Seed : Plan ι → Type
  | .list | .distinct | .reversed => List ι
  | .first | .unique => Option ι
  | .group _ down => List (Json × down.Seed)

/-- The accumulator of a plan. -/
def accumulator [BEq ι] (isNull : ι → Bool) : (p : Plan ι) → Accumulator ι p.Seed (Folded ι)
  | .list => Accumulator.toList.map .all
  | .distinct => Accumulator.toDistinct.map .all
  | .first => (Accumulator.firstNonNull isNull).map .found
  | .unique => (Accumulator.uniqueNonNull isNull).map .found
  | .reversed =>
    (Accumulator.ofFold [] (fun items item => items ++ [item]) List.reverse).map .all
  | .group key down => (Accumulator.grouping key (down.accumulator isNull)).map .groups

end Plan

end SqlGraph
