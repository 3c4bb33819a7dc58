import SqlGraph.Decimal.Shortest

/-!
# How a decimal is laid out

A double is written with its shortest digits (`Binary64.shortest`), positionally for exponents
of the leading digit between two bounds and in scientific form outside them. The bounds are the
only decisions a format takes here: a point is always written in positional form, and a
scientific exponent always carries its sign.
-/

namespace SqlGraph

/-- The exponents of the leading digit that are written positionally, both ends included. -/
structure DecimalLayout where
  plainFrom : Int
  plainTo : Int

namespace DecimalLayout

/-- Digits around the point at `point` places from their start. -/
def positional (digits : String) (point : Int) : String :=
  if point ≤ 0 then "0." ++ String.ofList (List.replicate (-point).toNat '0') ++ digits
  else
    let whole := point.toNat
    if digits.length ≤ whole then
      digits ++ String.ofList (List.replicate (whole - digits.length) '0') ++ ".0"
    else
      String.ofList (digits.toList.take whole) ++ "." ++ String.ofList (digits.toList.drop whole)

/-- One digit before the point, then the exponent with its sign. -/
def scientific (digits : String) (exponent : Int) : String :=
  let mantissa :=
    match digits.toList with
    | [] => ""
    | [d] => String.ofList [d]
    | d :: rest => String.ofList (d :: '.' :: rest)
  mantissa ++ (if exponent < 0 then "e-" else "e+") ++ toString exponent.natAbs

/-- The text of a double: the sign, then `0.0` or the shortest digits as the layout places them. -/
def text (layout : DecimalLayout) (x : Binary64) : String :=
  let sign := if x.negative then "-" else ""
  if x.isZero then sign ++ "0.0"
  else
    let d := x.shortest
    let digits := toString d.digits
    let leading := d.exponent + digits.length - 1
    if layout.plainFrom ≤ leading && leading ≤ layout.plainTo then
      sign ++ positional digits (leading + 1)
    else
      sign ++ scientific digits leading

end DecimalLayout

end SqlGraph
