import SqlGraph.Decimal.Binary64

/-!
# The shortest decimal that reads back

Among the decimals that round to a given double, `shortest` selects one with the fewest digits
and, of those, the closest to the double. The reals that round to the double reach halfway to
its two neighbours, the ends included exactly when its fraction is even (`readsBack`). For one,
two, … seventeen digits the two neighbours of the double on that decimal grid are tested: if a
point of a grid lies in the interval, so does one of the two.
-/

namespace SqlGraph

/-- The decimal `digits * 10 ^ exponent`. -/
structure Decimal where
  digits : Nat
  exponent : Int
deriving DecidableEq, Repr

namespace Decimal

/-- The same decimal without trailing zeros in its digits, at most `fuel` of them. -/
def strip : Nat → Decimal → Decimal
  | 0, d => d
  | fuel + 1, d =>
    if d.digits ≠ 0 && d.digits % 10 == 0 then strip fuel ⟨d.digits / 10, d.exponent + 1⟩ else d

end Decimal

namespace Binary64

/-- The number of digits before the point, negative when zeros follow the point: the least `k`
with the magnitude below `10 ^ k`. The least magnitude times `10 ^ 324` is above one, so the
digits of the scaled integer part give the scale. -/
def scale (x : Binary64) : Int :=
  ((Nat.toDigits 10 (x.units * Nat.pow 10 324 / unitsPerOne)).length : Int) - 324

/-- Whether the neighbour below is at half the distance of the neighbour above. -/
def narrowBelow (x : Binary64) : Bool := x.fraction == 0 && decide (1 < x.exponent)

/-- Whether the decimal lies among the reals that round to the magnitude of `x`. Both sides are
compared in quarters of a unit. -/
def readsBack (x : Binary64) (d : Decimal) : Bool :=
  let ulp := Nat.pow 2 x.shift
  let low := 4 * x.units - (if x.narrowBelow then ulp else 2 * ulp)
  let high := 4 * x.units + 2 * ulp
  let value := 4 * d.digits * Nat.pow 10 d.exponent.toNat * unitsPerOne
  let unit := Nat.pow 10 (-d.exponent).toNat
  if x.fraction % 2 == 0 then decide (low * unit ≤ value) && decide (value ≤ high * unit)
  else decide (low * unit < value) && decide (value < high * unit)

/-- The candidate of `digits` digits that reads back, the closer one when both neighbours on the
grid do and the even one on an exact tie. -/
def candidate? (x : Binary64) (digits : Nat) : Option Decimal :=
  let exponent := x.scale - digits
  let num := x.units * Nat.pow 10 (-exponent).toNat
  let den := unitsPerOne * Nat.pow 10 exponent.toNat
  let below : Decimal := ⟨num / den, exponent⟩
  let above : Decimal := ⟨num / den + 1, exponent⟩
  match x.readsBack below, x.readsBack above with
  | false, false => none
  | true, false => some below
  | false, true => some above
  | true, true => some ⟨roundHalfEven num den, exponent⟩

/-- The exact value as a decimal. -/
def exactDecimal (x : Binary64) : Decimal := ⟨x.units * Nat.pow 5 1074, -1074⟩

/-- The shortest decimal that reads back as the magnitude of `x`, without trailing zeros. -/
def shortest (x : Binary64) : Decimal :=
  match (List.range 17).findSome? fun n => x.candidate? (n + 1) with
  | some d => d.strip 17
  | none => x.exactDecimal

end Binary64

end SqlGraph
