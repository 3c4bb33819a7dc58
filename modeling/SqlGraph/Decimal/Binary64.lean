/-!
# Finite binary64 numbers

A finite double is its sign, its eleven bits of exponent and its fifty-two bits of fraction,
so structural equality is equality of bit patterns and the two zeros are apart. Every such
number is a whole number of *units* of `2 ^ -1074`, which keeps all arithmetic on naturals:

* `units`, the magnitude as a whole number of units;
* `nearest`, the double closest to a quotient, ties going to the even fraction;
* `ofDecimal`, the double read from a decimal significand and a power of ten.
-/

namespace SqlGraph

/-- A finite binary64 number, normal, subnormal or one of the two zeros. -/
structure Binary64 where
  negative : Bool
  exponent : Nat
  fraction : Nat
  exponent_lt : exponent < 2047 := by decide
  fraction_lt : fraction < Nat.pow 2 52 := by decide
deriving DecidableEq

namespace Binary64

/-- Zero with the given sign. -/
def zero (negative : Bool) : Binary64 where
  negative := negative
  exponent := 0
  fraction := 0

instance : Inhabited Binary64 := ⟨zero false⟩

/-- Whether the number is one of the two zeros. -/
def isZero (x : Binary64) : Bool := x.exponent == 0 && x.fraction == 0

/-- The same magnitude with the other sign. -/
def neg (x : Binary64) : Binary64 := { x with negative := !x.negative }

/-- Equality of the numbers denoted: the two zeros are equal. -/
def sameValue (x y : Binary64) : Bool := x == y || (x.isZero && y.isZero)

/-! ## Magnitudes -/

/-- The leading bits as an integer, the implicit one included. -/
def significand (x : Binary64) : Nat :=
  if x.exponent = 0 then x.fraction else Nat.pow 2 52 + x.fraction

/-- How far the significand is shifted above the smallest unit. -/
def shift (x : Binary64) : Nat := x.exponent - 1

/-- The magnitude counted in units of `2 ^ -1074`. -/
def units (x : Binary64) : Nat := x.significand * Nat.pow 2 x.shift

/-- The number of units in one. -/
def unitsPerOne : Nat := Nat.pow 2 1074

/-- The double whose magnitude is the `n`-th from zero, absent past the largest finite one. -/
def ofOrdinal (negative : Bool) (n : Nat) : Option Binary64 :=
  if h : n < 2047 * Nat.pow 2 52 then
    some
      { negative := negative
        exponent := n / Nat.pow 2 52
        fraction := n % Nat.pow 2 52
        exponent_lt := Nat.div_lt_of_lt_mul (Nat.mul_comm .. ▸ h)
        fraction_lt := Nat.mod_lt _ (by decide) }
  else none

/-! ## Rounding -/

/-- The integer nearest to `num / den`, an exact tie going to the even one. -/
def roundHalfEven (num den : Nat) : Nat :=
  let q := num / den
  let twice := 2 * (num % den)
  if twice < den || (twice == den && q % 2 == 0) then q else q + 1

/-- The double nearest to `num / den`, absent when it is beyond the largest finite one. A carry
out of the fraction moves to the next exponent, as consecutive doubles have consecutive
ordinals. -/
def nearest (negative : Bool) (num den : Nat) : Option Binary64 :=
  let scaled := num * unitsPerOne
  let shift := Nat.log2 (scaled / den) - 52
  ofOrdinal negative (shift * Nat.pow 2 52 + roundHalfEven scaled (den * Nat.pow 2 shift))

/-- The double nearest to an integer. -/
def ofInt? (n : Int) : Option Binary64 := nearest (n < 0) n.natAbs 1

/-- The rounded product of two magnitudes, under the sign of the first. -/
def scaleUp (x y : Binary64) : Option Binary64 :=
  nearest x.negative (x.units * y.units) (unitsPerOne * unitsPerOne)

/-- The rounded quotient of two magnitudes, under the sign of the first. -/
def scaleDown (x y : Binary64) : Option Binary64 :=
  nearest x.negative x.units y.units

/-! ## Decimals -/

/-- The double nearest to a power of ten. -/
def powerOfTen (n : Nat) : Option Binary64 := nearest false (Nat.pow 10 n) 1

/-- The largest power of ten a double can hold. -/
def largestPower : Nat := 308

/-- Divides by the largest power the given number of times, then by `10 ^ rest`. -/
def dividePowers (rest : Nat) : Nat → Binary64 → Option Binary64
  | 0, x => (powerOfTen rest).bind x.scaleDown
  | steps + 1, x =>
    if x.isZero then some x
    else ((powerOfTen largestPower).bind x.scaleDown).bind (dividePowers rest steps)

/-- The number written as `significand` times a power of ten: the significand is rounded first,
then scaled by the rounded power and rounded again. Absent when the result overflows. -/
def ofDecimal (negative : Bool) (significand : Nat) (exponent : Int) : Option Binary64 :=
  match nearest negative significand 1, exponent with
  | none, _ => none
  | some x, .ofNat n =>
    if n ≤ largestPower then (powerOfTen n).bind x.scaleUp
    else if x.isZero then some x else none
  | some x, .negSucc n =>
    dividePowers (n + 1 - n / largestPower * largestPower) (n / largestPower) x

end Binary64

end SqlGraph
