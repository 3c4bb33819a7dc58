import SqlGraph.Error

/-!
# Accumulators

An accumulator folds a stream of items in three steps: it supplies an empty seed, aggregates one
item after the other into it, and finishes the seed. Aggregating and finishing may fail.
`Accumulator.collect` runs all three on a list; a traversal of a result runs them row by row.

The accumulators here keep all items (`toList`), the distinct ones (`toDistinct`), the first or
the only one that is not null (`firstNonNull`, `uniqueNonNull`), or are given by three functions
(`ofFold`).
-/

namespace SqlGraph

/-- A fold with a seed of type `σ` over items of type `ι`. -/
structure Accumulator (ι σ ω : Type) where
  supply : σ
  aggregate : σ → ι → Except Error σ
  finish : σ → Except Error ω

namespace Accumulator

variable {ι κ σ ω : Type}

/-- Aggregates items in order. -/
def aggregateAll (a : Accumulator ι σ ω) : σ → List ι → Except Error σ
  | seed, [] => .ok seed
  | seed, item :: rest =>
    match a.aggregate seed item with
    | .error e => .error e
    | .ok seed => aggregateAll a seed rest

/-- Folds the items of a list. -/
def collect (a : Accumulator ι σ ω) (items : List ι) : Except Error ω :=
  match a.aggregateAll a.supply items with
  | .error e => .error e
  | .ok seed => a.finish seed

/-- The same fold on items seen through a function. -/
def comap (f : κ → ι) (a : Accumulator ι σ ω) : Accumulator κ σ ω where
  supply := a.supply
  aggregate seed item := a.aggregate seed (f item)
  finish := a.finish

/-- The same fold with its result seen through a function. -/
def map {ω' : Type} (f : ω → ω') (a : Accumulator ι σ ω) : Accumulator ι σ ω' where
  supply := a.supply
  aggregate := a.aggregate
  finish seed := (a.finish seed).map f

/-! ## Accumulators of items -/

/-- The fold given by three functions that never fail. -/
def ofFold (seed : σ) (step : σ → ι → σ) (result : σ → ω) : Accumulator ι σ ω where
  supply := seed
  aggregate seed item := .ok (step seed item)
  finish seed := .ok (result seed)

/-- All items, in order. -/
def toList : Accumulator ι (List ι) (List ι) :=
  ofFold [] (fun items item => items ++ [item]) id

/-- Adds an item that is not there yet. -/
def insertDistinct [BEq ι] (items : List ι) (item : ι) : List ι :=
  if items.any fun other => other == item then items else items ++ [item]

/-- The distinct items, in order of first appearance. -/
def toDistinct [BEq ι] : Accumulator ι (List ι) (List ι) := ofFold [] insertDistinct id

/-- The first item that is not null. -/
def firstNonNull (isNull : ι → Bool) : Accumulator ι (Option ι) (Option ι) :=
  ofFold none (fun found item => if found.isNone && !isNull item then some item else found) id

/-- The only item that is not null; a second one is an error. -/
def uniqueNonNull (isNull : ι → Bool) : Accumulator ι (Option ι) (Option ι) where
  supply := none
  aggregate found item :=
    if isNull item then .ok found
    else if found.isSome then .error .nonUniqueResult
    else .ok (some item)
  finish := .ok

end Accumulator

end SqlGraph
