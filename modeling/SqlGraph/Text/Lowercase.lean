import SqlGraph.Text.LowercaseTable

/-!
# Lower-casing

`lowercase` maps a text to lower case by the full Unicode rules, which are not a map on
characters alone: the dotted capital I becomes two characters, and a capital sigma becomes the
final form where it ends a word. A sigma ends a word when, case-ignorable characters left out,
a cased character stands before it and none stands after it.
-/

namespace SqlGraph.Text

/-- Whether a code point lies in one of the ranges. -/
def inRanges (ranges : List (Nat × Nat)) (n : Nat) : Bool :=
  ranges.any fun r => r.1 ≤ n && n ≤ r.2

/-- Whether a code point belongs to the range. -/
def CaseRange.contains (r : CaseRange) (n : Nat) : Bool :=
  r.first ≤ n && n ≤ r.last && (n - r.first) % r.step == 0

/-- The lower-case form of a character on its own. -/
def lowerChar (c : Char) : List Char :=
  let n := c.toNat
  if n < 128 then [c.toLower]
  else if n = 0x130 then ['i', Char.ofNat 0x307]
  else
    match lowerRanges.find? (·.contains n) with
    | some r => [Char.ofNat ((n : Int) + r.offset).toNat]
    | none => [c]

/-- Whether the first character that is not case-ignorable is cased. -/
def leadsToCased (cs : List Char) : Bool :=
  match cs.dropWhile fun c => inRanges caseIgnorableRanges c.toNat with
  | [] => false
  | c :: _ => inRanges casedRanges c.toNat

/-- The capital sigma. -/
def capitalSigma : Char := Char.ofNat 0x3A3

/-- Lower-cases the characters after `before`, which holds the ones in front in reverse. -/
def lowerFrom (before : List Char) : List Char → List Char
  | [] => []
  | c :: rest =>
    let lower :=
      if c = capitalSigma then
        [Char.ofNat (if leadsToCased before && !leadsToCased rest then 0x3C2 else 0x3C3)]
      else lowerChar c
    lower ++ lowerFrom (c :: before) rest

/-- The text in lower case. -/
def lowercase (s : String) : String := String.ofList (lowerFrom [] s.toList)

end SqlGraph.Text
