import SqlGraph.Accumulate.Basic

/-!
# Grouping

`Accumulator.grouping` splits items by a key and folds each group on its own with a downstream
accumulator. Groups are listed in the order in which their key first appeared, and finished in
that order; the first error, in aggregating or in finishing, is the error of the whole.
-/

namespace SqlGraph
namespace Accumulator

variable {ι κ σ ω : Type} [BEq κ]

/-- Aggregates an item into the group of its key, a new group at the end for a new key. -/
def aggregateGroup (down : Accumulator ι σ ω) (key : κ) (item : ι) :
    List (κ × σ) → Except Error (List (κ × σ))
  | [] => (down.aggregate down.supply item).map fun seed => [(key, seed)]
  | (k, seed) :: rest =>
    if k == key then (down.aggregate seed item).map fun seed => (k, seed) :: rest
    else (aggregateGroup down key item rest).map fun rest => (k, seed) :: rest

/-- Finishes every group in order. -/
def finishGroups (down : Accumulator ι σ ω) : List (κ × σ) → Except Error (List (κ × ω))
  | [] => .ok []
  | (k, seed) :: rest =>
    match down.finish seed with
    | .error e => .error e
    | .ok result => (finishGroups down rest).map fun rest => (k, result) :: rest

/-- Folds the items of each key with a downstream accumulator. -/
def grouping (key : ι → κ) (down : Accumulator ι σ ω) :
    Accumulator ι (List (κ × σ)) (List (κ × ω)) where
  supply := []
  aggregate groups item := aggregateGroup down (key item) item groups
  finish := finishGroups down

end Accumulator
end SqlGraph
