/-!
# String literals

A text is written between double quotes, with a backslash before quotes and backslashes and with `\n`, `\r` and
`\t` for line feeds, carriage returns and tabs. Every other character stands for itself.
-/

namespace EntityForge.Java

/-- A character as it is written within a string literal. -/
def escapeChar : Char → List Char
  | '"' => ['\\', '"']
  | '\\' => ['\\', '\\']
  | '\n' => ['\\', 'n']
  | '\r' => ['\\', 'r']
  | '\t' => ['\\', 't']
  | c => [c]

/-- The characters of the string literal of a text. -/
def quoteChars (cs : List Char) : List Char :=
  '"' :: cs.flatMap escapeChar ++ ['"']

/-- The string literal of a text. -/
def quote (s : String) : String :=
  String.ofList (quoteChars s.toList)

end EntityForge.Java
