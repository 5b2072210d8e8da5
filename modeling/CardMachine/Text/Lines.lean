import CardMachine.Text.Basic

/-!
# Lines

A line ends at a line feed, and a carriage return right before the line feed belongs to the ending. A
last line without an ending counts if there is anything on it, and keeps its carriage return.
-/

namespace CardMachine.Text

/-- A line without the carriage return of its ending. -/
def dropReturn (line : List Char) : List Char :=
  if line.getLast? = some '\r' then line.dropLast else line

/-- The lines among the parts of a text. Every part but the last was ended by a line feed. -/
def endedLines (first : List Char) : List (List Char) → List (List Char)
  | [] => if first.isEmpty then [] else [first]
  | rest@(_ :: _) =>
    let parts := first :: rest
    let last := rest.getLastD []
    parts.dropLast.map dropReturn ++ if last.isEmpty then [] else [last]

/-- The lines of a text. -/
def lines (text : String) : List String :=
  let (first, rest) := cutAt '\n' text.toList
  (endedLines first rest).map String.ofList

end CardMachine.Text
