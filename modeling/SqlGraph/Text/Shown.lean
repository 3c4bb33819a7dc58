import SqlGraph.Text.VisibleTable

/-!
# Strings as listings show them

A listing shows a string between double quotes, with the quote, the backslash and the line
characters escaped by a letter and every other character that is not visible by its code point.
-/

namespace SqlGraph.Text

/-- The lower-case hexadecimal digits of a number. -/
def hexDigits (n : Nat) : List Char := Nat.toDigits 16 n

/-- Whether a listing shows the character as it is. -/
def isVisible (c : Char) : Bool :=
  !invisibleRanges.any fun r => r.1 ≤ c.toNat && c.toNat ≤ r.2

/-- One character as a listing shows it. -/
def shownChar (c : Char) : List Char :=
  if c = '"' then ['\\', '"']
  else if c = '\\' then ['\\', '\\']
  else if c = '\n' then ['\\', 'n']
  else if c = '\r' then ['\\', 'r']
  else if c = '\t' then ['\\', 't']
  else if c.toNat = 0 then ['\\', '0']
  else if isVisible c then [c]
  else ['\\', 'u', '\x7b'] ++ hexDigits c.toNat ++ ['\x7d']

/-- A string as a listing shows it. -/
def shown (s : String) : String := String.ofList ('"' :: s.toList.flatMap shownChar ++ ['"'])

/-- An optional value as a listing shows it. -/
def shownOption {α : Type} (item : α → String) : Option α → String
  | none => "None"
  | some a => "Some(" ++ item a ++ ")"

/-- A list as a listing shows it. -/
def shownList {α : Type} (item : α → String) (items : List α) : String :=
  "[" ++ ", ".intercalate (items.map item) ++ "]"

end SqlGraph.Text
