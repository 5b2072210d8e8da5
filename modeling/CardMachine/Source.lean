import CardMachine.Path
import CardMachine.Text.Blank
import CardMachine.Text.Lines

/-!
# Source files

A source file is plain, every line of it card source, or literate: a Markdown file whose card source
stands in fenced blocks with the tag `cards`. A fence is a line that starts with at least three
backquotes. A block is closed by a fence at least as long as the one that opened it. Each line keeps
its number in the file.
-/

namespace CardMachine

/-- A line of card source and its number in the file. -/
structure SourceLine where
  number : Nat
  text : String
  deriving DecidableEq

namespace Source

/-- The tag of a block of card source. -/
def blockTag : String := "cards"

/-- Is the file at `path` literate? -/
def isLiterate (path : String) : Bool :=
  match Path.extension? path with
  | some ext => Text.upper ext = "MD"
  | none => false

/-- The lines of a text with their numbers. -/
def numbered (content : String) : List SourceLine :=
  (Text.lines content).zipIdx.map fun (text, index) => ⟨index + 1, text⟩

/-- The backquotes that a line starts with, if it is a fence, and what follows them. -/
def fence? (line : String) : Option (Nat × List Char) :=
  let cs := line.toList.dropWhile Text.isBlank
  let ticks := (cs.takeWhile (· = '\x60')).length
  if 3 ≤ ticks then some (ticks, cs.drop ticks) else none

/-- Does a fence with `info` after its backquotes open a block of card source? -/
def isCardBlock (info : List Char) : Bool :=
  Text.firstWord info = blockTag.toList

/-- What has been seen of a literate file: the length of the fence that opened the block we are in,
and the lines of card source so far. -/
structure Reading where
  opened : Option Nat := none
  kept : Array SourceLine := #[]

/-- Reads one more line of a literate file. -/
def Reading.next (r : Reading) (line : SourceLine) : Reading :=
  match fence? line.text, r.opened with
  | some (ticks, _), some opened =>
    if opened ≤ ticks then { r with opened := none } else { r with kept := r.kept.push line }
  | some (ticks, info), none => if isCardBlock info then { r with opened := some ticks } else r
  | none, some _ => { r with kept := r.kept.push line }
  | none, none => r

/-- The card source of a literate file. -/
def literate (lines : List SourceLine) : List SourceLine :=
  (lines.foldl Reading.next {}).kept.toList

/-- The card source of the file at `path`. -/
def extract (path content : String) : List SourceLine :=
  if isLiterate path then literate (numbered content) else numbered content

end Source

end CardMachine
