/-!
# String literals

A string literal stands between single quotes, a quote inside it written twice. `quote` writes
one; `readLiteral` is the reader of the target language: the literal is opened by a quote and
closed by the first quote that is not doubled, and what follows is left unread.
-/

namespace SqlGraph.Text

/-- The characters between the quotes: each quote is doubled. -/
def doubleQuotes : List Char → List Char
  | [] => []
  | c :: rest => if c = '\'' then '\'' :: '\'' :: doubleQuotes rest else c :: doubleQuotes rest

/-- The literal of a string. -/
def quote (s : String) : String := String.ofList ('\'' :: doubleQuotes s.toList ++ ['\''])

/-- Reads the rest of a literal whose opening quote is already read. -/
def readQuoted : List Char → Option (List Char × List Char)
  | [] => none
  | '\'' :: '\'' :: rest => (readQuoted rest).map fun (s, r) => ('\'' :: s, r)
  | c :: rest =>
    if c = '\'' then some ([], rest) else (readQuoted rest).map fun (s, r) => (c :: s, r)

/-- Reads a literal: its contents and the text after it. -/
def readLiteral : List Char → Option (List Char × List Char)
  | '\'' :: rest => readQuoted rest
  | _ => none

end SqlGraph.Text
