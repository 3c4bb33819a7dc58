import SqlGraph.Decimal.Layout
import SqlGraph.Json.Value

/-!
# The compact text of a JSON value

`Json.text` writes a value without spaces, members in the order of the object. Strings escape
the quote, the backslash and the controls below the space; all else is written as it is.
-/

namespace SqlGraph

/-- Floats are positional from `0.00001` up to, and without, `10 ^ 16`. -/
def Number.floatLayout : DecimalLayout where
  plainFrom := -5
  plainTo := 15

/-- The text of a number. -/
def Number.text : Number → String
  | .integer n => toString n
  | .float x => floatLayout.text x

namespace Json

/-- A lower-case hexadecimal digit. -/
def hexDigit (n : Nat) : Char :=
  if n < 10 then Char.ofNat (48 + n) else Char.ofNat (87 + n)

/-- One character as it stands between the quotes of a string. -/
def escapeChar (c : Char) : List Char :=
  match c with
  | '"' => ['\\', '"']
  | '\\' => ['\\', '\\']
  | '\n' => ['\\', 'n']
  | '\r' => ['\\', 'r']
  | '\t' => ['\\', 't']
  | c =>
    if c.toNat = 8 then ['\\', 'b']
    else if c.toNat = 12 then ['\\', 'f']
    else if c.toNat < 32 then
      ['\\', 'u', '0', '0', hexDigit (c.toNat / 16), hexDigit (c.toNat % 16)]
    else [c]

/-- A string between quotes. -/
def quoted (s : String) : String :=
  String.ofList ('"' :: s.toList.flatMap escapeChar ++ ['"'])

mutual

/-- The compact text of a value. -/
def text : Json → String
  | .null => "null"
  | .bool true => "true"
  | .bool false => "false"
  | .number n => n.text
  | .string s => quoted s
  | .array items => "[" ++ itemsText items ++ "]"
  | .object members => "\x7b" ++ membersText members ++ "\x7d"

/-- The texts of the items, commas between them. -/
def itemsText : List Json → String
  | [] => ""
  | [v] => text v
  | v :: w :: rest => text v ++ "," ++ itemsText (w :: rest)

/-- The members, each its key and its value, commas between them. -/
def membersText : List (String × Json) → String
  | [] => ""
  | [(k, v)] => quoted k ++ ":" ++ text v
  | (k, v) :: m :: rest => quoted k ++ ":" ++ text v ++ "," ++ membersText (m :: rest)

end

end Json

end SqlGraph
