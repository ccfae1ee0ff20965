/-!
# Lines

A text is cut into lines after each line feed. A carriage return just before the line feed belongs to the line
end; any other carriage return stays in its line. Nothing after the last line feed is no line.
-/

namespace EntityForge.Text

/-- The lines of a text, without their line ends. -/
def lineChars : List Char → List (List Char)
  | [] => []
  | '\n' :: rest => [] :: lineChars rest
  | '\r' :: '\n' :: rest => [] :: lineChars rest
  | c :: rest =>
    match lineChars rest with
    | [] => [[c]]
    | line :: more => (c :: line) :: more

/-- The lines of a text, without their line ends. -/
def lines (s : String) : List String :=
  (lineChars s.toList).map String.ofList

/-- The lines joined, each ended by a line feed. -/
def unlines (ls : List String) : String :=
  "\n".intercalate ls ++ "\n"

end EntityForge.Text
