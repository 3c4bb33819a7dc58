import SqlGraph.Json.Value

/-!
# Reading JSON text

`Json.read?` reads one value from a text, blanks around it allowed. Integers in the range of 64
bits stay integers; any other number, `-0` included, is a float: its leading digits, as many as
fit 64 bits, are read as the significand and the rest only moves the exponent
(`Binary64.ofDecimal`). A repeated key keeps its last value. Arrays and objects nest up to
`depthLimit`; a text that nests deeper is refused.

Every step consumes characters, so twice the length of the text bounds the depth of calls.
-/

namespace SqlGraph

/-- A reader consumes a front part of the characters, or refuses them. -/
abbrev Json.Reader (α : Type) := List Char → Option (α × List Char)

namespace Json.Reader

/-- Drops blanks. -/
def skipBlanks (cs : List Char) : List Char :=
  cs.dropWhile fun c => c == ' ' || c == '\n' || c == '\r' || c == '\t'

/-! ## Numbers -/

/-- The value of a decimal digit. -/
def digit? (c : Char) : Option Nat := if c.isDigit then some (c.toNat - 48) else none

/-- The largest significand kept. -/
def significandLimit : Nat := Nat.pow 2 64

/-- Significand and exponent read so far, and the number of digits seen. -/
structure Digits where
  significand : Nat
  exponent : Int
  count : Nat
  full : Bool

/-- Reads digits before the point: once the significand is full, each further digit only raises
the exponent. -/
def wholeDigits (d : Digits) : List Char → Digits × List Char
  | [] => (d, [])
  | c :: rest =>
    match digit? c with
    | none => (d, c :: rest)
    | some k =>
      let next := d.significand * 10 + k
      if d.full || significandLimit ≤ next then
        wholeDigits ⟨d.significand, d.exponent + 1, d.count + 1, true⟩ rest
      else wholeDigits ⟨next, d.exponent, d.count + 1, false⟩ rest

/-- Reads digits after the point: each one kept lowers the exponent, and once the significand is
full the rest is ignored. -/
def fractionDigits (d : Digits) : List Char → Digits × List Char
  | [] => (d, [])
  | c :: rest =>
    match digit? c with
    | none => (d, c :: rest)
    | some k =>
      let next := d.significand * 10 + k
      if d.full || significandLimit ≤ next then
        fractionDigits ⟨d.significand, d.exponent, d.count + 1, true⟩ rest
      else fractionDigits ⟨next, d.exponent - 1, d.count + 1, false⟩ rest

/-- Reads the digits of an exponent. -/
def exponentDigits (value : Nat) (count : Nat) : List Char → Nat × Nat × List Char
  | [] => (value, count, [])
  | c :: rest =>
    match digit? c with
    | none => (value, count, c :: rest)
    | some k => exponentDigits (value * 10 + k) (count + 1) rest

/-- Exponents are cut at this bound, far beyond any finite number. -/
def exponentLimit : Nat := Nat.pow 2 31

/-- Reads an optional exponent part. -/
def exponentPart : Reader (Option Int)
  | [] => some (none, [])
  | c :: rest =>
    if c == 'e' || c == 'E' then
      let (negative, rest) :=
        match rest with
        | '+' :: r => (false, r)
        | '-' :: r => (true, r)
        | r => (false, r)
      let (value, count, rest) := exponentDigits 0 0 rest
      let value : Int := min value exponentLimit
      if count = 0 then none else some (some (if negative then -value else value), rest)
    else some (none, c :: rest)

/-- The float with the given parts. -/
def float? (negative : Bool) (significand : Nat) (exponent : Int) : Option Json :=
  (Binary64.ofDecimal negative significand exponent).map fun x => .number (.float x)

/-- The value of a number written with neither point nor exponent. -/
def whole? (negative : Bool) (d : Digits) : Option Json :=
  if d.full then float? negative d.significand d.exponent
  else if !negative then some (.number (.integer d.significand))
  else if d.significand = 0 || Nat.pow 2 63 < d.significand then float? negative d.significand 0
  else some (.number (.integer (-d.significand)))

/-- Reads a number after its sign. -/
def unsigned (negative : Bool) : Reader Json := fun cs =>
  let (whole, rest) := wholeDigits ⟨0, 0, 0, false⟩ cs
  if whole.count = 0 then none
  else if 1 < whole.count && cs.head? == some '0' then none
  else
    match rest with
    | '.' :: rest =>
      let (all, rest) := fractionDigits { whole with count := 0, full := false } rest
      if all.count = 0 then none
      else
        (exponentPart rest).bind fun (exponent, rest) =>
          (float? negative all.significand (all.exponent + exponent.getD 0)).map (·, rest)
    | rest =>
      (exponentPart rest).bind fun (exponent, rest) =>
        match exponent with
        | none => (whole? negative whole).map (·, rest)
        | some e => (float? negative whole.significand (whole.exponent + e)).map (·, rest)

/-- Reads a number. -/
def number : Reader Json
  | '-' :: rest => unsigned true rest
  | cs => unsigned false cs

/-! ## Strings -/

/-- The value of a hexadecimal digit. -/
def hexValue? (c : Char) : Option Nat :=
  if c.isDigit then some (c.toNat - 48)
  else if 'a' ≤ c && c ≤ 'f' then some (c.toNat - 87)
  else if 'A' ≤ c && c ≤ 'F' then some (c.toNat - 55)
  else none

/-- Reads four hexadecimal digits. -/
def hexUnit : Reader Nat
  | a :: b :: c :: d :: rest => do
    let a ← hexValue? a
    let b ← hexValue? b
    let c ← hexValue? c
    let d ← hexValue? d
    some (((a * 16 + b) * 16 + c) * 16 + d, rest)
  | _ => none

/-- Reads the rest of a `\u` escape: one unit, or a high and a low surrogate together. -/
def unicodeEscape (cs : List Char) : Option (Char × List Char) := do
  let (high, rest) ← hexUnit cs
  if 0xD800 ≤ high && high < 0xDC00 then
    match rest with
    | '\\' :: 'u' :: rest =>
      let (low, rest) ← hexUnit rest
      if 0xDC00 ≤ low && low < 0xE000 then
        some (Char.ofNat (0x10000 + (high - 0xD800) * 0x400 + (low - 0xDC00)), rest)
      else none
    | _ => none
  else if 0xDC00 ≤ high && high < 0xE000 then none
  else some (Char.ofNat high, rest)

/-- The character a one-letter escape stands for. -/
def letterEscape? : Char → Option Char
  | '"' => some '"'
  | '\\' => some '\\'
  | '/' => some '/'
  | 'b' => some (Char.ofNat 8)
  | 'f' => some (Char.ofNat 12)
  | 'n' => some '\n'
  | 'r' => some '\r'
  | 't' => some '\t'
  | _ => none

/-- Reads the characters of a string up to its closing quote, the ones read so far in reverse. -/
def stringBody : Nat → List Char → List Char → Option (String × List Char)
  | 0, _, _ => none
  | _, _, [] => none
  | fuel + 1, read, c :: rest =>
    if c == '"' then some (String.ofList read.reverse, rest)
    else if c == '\\' then
      match rest with
      | 'u' :: rest =>
        match unicodeEscape rest with
        | none => none
        | some (c, rest) => stringBody fuel (c :: read) rest
      | l :: rest =>
        match letterEscape? l with
        | none => none
        | some c => stringBody fuel (c :: read) rest
      | [] => none
    else if c.toNat < 32 then none
    else stringBody fuel (c :: read) rest

/-! ## Values -/

/-- How deep arrays and objects may nest. -/
def depthLimit : Nat := 127

/-- Drops the word from the front of the characters. -/
def keyword (word : List Char) (value : Json) : Reader Json := fun cs =>
  if cs.take word.length == word then some (value, cs.drop word.length) else none

mutual

/-- Reads a value after blanks, in which arrays and objects nest at most `depth` deep. -/
def value (depth : Nat) : Nat → Reader Json
  | 0, _ => none
  | fuel + 1, cs =>
    match skipBlanks cs with
    | [] => none
    | c :: rest =>
      if c == '"' then (stringBody (rest.length + 1) [] rest).map fun (s, r) => (.string s, r)
      else if c == '[' then
        match depth, skipBlanks rest with
        | 0, _ => none
        | _, ']' :: rest => some (.array [], rest)
        | depth + 1, rest => (items depth fuel rest).map fun (vs, r) => (.array vs, r)
      else if c == '\x7b' then
        match depth, skipBlanks rest with
        | 0, _ => none
        | _, '\x7d' :: rest => some (.object [], rest)
        | depth + 1, rest => (members depth fuel rest).map fun (ms, r) => (ofMembers ms, r)
      else if c == 'n' then keyword ['n', 'u', 'l', 'l'] .null (c :: rest)
      else if c == 't' then keyword ['t', 'r', 'u', 'e'] (.bool true) (c :: rest)
      else if c == 'f' then keyword ['f', 'a', 'l', 's', 'e'] (.bool false) (c :: rest)
      else number (c :: rest)

/-- Reads the items of an array up to its end, at least one. -/
def items (depth : Nat) : Nat → Reader (List Json)
  | 0, _ => none
  | fuel + 1, cs =>
    match value depth fuel cs with
    | none => none
    | some (v, rest) =>
      match skipBlanks rest with
      | ',' :: rest => (items depth fuel rest).map fun (vs, r) => (v :: vs, r)
      | ']' :: rest => some ([v], rest)
      | _ => none

/-- Reads the members of an object up to its end, at least one. -/
def members (depth : Nat) : Nat → Reader (List (String × Json))
  | 0, _ => none
  | fuel + 1, cs =>
    match skipBlanks cs with
    | '"' :: rest =>
      match stringBody (rest.length + 1) [] rest with
      | none => none
      | some (key, rest) =>
        match skipBlanks rest with
        | ':' :: rest =>
          match value depth fuel rest with
          | none => none
          | some (v, rest) =>
            match skipBlanks rest with
            | ',' :: rest => (members depth fuel rest).map fun (ms, r) => ((key, v) :: ms, r)
            | '\x7d' :: rest => some ([(key, v)], rest)
            | _ => none
        | _ => none
    | _ => none

end

end Json.Reader

/-- Reads one value and nothing but blanks around it. -/
def Json.read? (s : String) : Option Json :=
  let cs := s.toList
  match Json.Reader.value Json.Reader.depthLimit (2 * cs.length + 2) cs with
  | none => none
  | some (v, rest) => if (Json.Reader.skipBlanks rest).isEmpty then some v else none

end SqlGraph
