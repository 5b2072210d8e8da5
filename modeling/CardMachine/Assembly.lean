import CardMachine.Layout
import CardMachine.Line.Parser
import CardMachine.Machine
import CardMachine.Source

/-!
# Assembly

From a source file to a program. Each stage reports all it finds, and the next one runs only if there
was nothing: unreadable lines, then the first repeated name, then what no pointer can reach, then
names that cannot be resolved. What is unusual but runs is a warning.
-/

namespace CardMachine

/-- A place in a source file. -/
structure SourceLocation where
  file : String
  line : Nat
  column : Nat
  deriving DecidableEq

/-- A place as it is written in front of a diagnostic. -/
def SourceLocation.text (l : SourceLocation) : String :=
  l.file ++ s!":{l.line}:{l.column}"

namespace Assembly

/-- What keeps a source from being assembled. -/
inductive Fault
  | line (fault : LineFault)
  | symbol (fault : SymbolFault)
  /-- A card with no pointer for it. -/
  | unaddressableCard (card : Nat)
  /-- An instruction with no pointer for it. -/
  | unaddressableInstruction (card index : Nat)
  /-- The file cannot be read. -/
  | unreadable (path reason : String)
  deriving DecidableEq

/-- The wording of a fault. -/
def Fault.message : Fault → String
  | .line fault => fault.message
  | .symbol fault => fault.message
  | .unaddressableCard card => s!"card {card} cannot be addressed"
  | .unaddressableInstruction card index =>
    s!"instruction {index} of card {card} cannot be addressed"
  | .unreadable path reason => s!"I/O error: failed to read {path}: {reason}"

/-- A fault and its place, if it has one. -/
structure Error where
  fault : Fault
  location : Option SourceLocation
  deriving DecidableEq

namespace Error

/-- An error with its place. -/
def message (e : Error) : String :=
  match e.location with
  | none => e.fault.message
  | some l => l.text ++ ": " ++ e.fault.message

/-- An error as it is reported. -/
def report (e : Error) : String :=
  match e.location with
  | none => "error: " ++ e.fault.message
  | some l => l.text ++ ": error: " ++ e.fault.message

end Error

/-- All errors of an assembly, one on each line. -/
def messages (errors : List Error) : String :=
  "\n".intercalate (errors.map Error.message)

/-- All errors of an assembly as they are reported, one on each line. -/
def reports (errors : List Error) : String :=
  "\n".intercalate (errors.map Error.report)

/-- What is unusual about a program. -/
inductive Concern
  | tooManyCards (count : Nat)
  | cardTooLong (card length : Nat)
  | literalSaturates (value : Word)
  deriving DecidableEq

/-- The wording of a concern. -/
def Concern.message : Concern → String
  | .tooManyCards count =>
    s!"program has {count} cards (recommended at most {recommendedCards})"
  | .cardTooLong card length =>
    s!"card {card} holds {length} instructions (recommended at most {recommendedLength})"
  | .literalSaturates value =>
    s!"literal {value.toInt} is outside -999..=999 and will saturate"

/-- A concern and its place. -/
structure Warning where
  concern : Concern
  location : SourceLocation
  deriving DecidableEq

/-- A warning as it is reported. -/
def Warning.report (w : Warning) : String :=
  w.location.text ++ ": warning: " ++ w.concern.message

/-- An assembled instruction, its position and where it was written. -/
structure Entry where
  card : Nat
  index : Nat
  instruction : Instruction
  location : SourceLocation
  deriving DecidableEq

/-- The name of a card and the line that opened it. -/
structure CardInfo where
  name : Option String
  definedAt : Nat
  deriving DecidableEq

end Assembly

/-- An assembled source. -/
structure Assembly where
  program : Program
  cards : List Assembly.CardInfo
  warnings : List Assembly.Warning
  /-- All instructions, in program order. -/
  entries : List Assembly.Entry
  deriving DecidableEq

namespace Assembly

/-- A machine at the start of the program. -/
def machine (a : Assembly) : Machine := .ofProgram a.program

/-- The good results, if no result is bad; else all the bad ones. -/
def sortOut {ε α : Type} (results : List (Except ε α)) : Except (List ε) (List α) :=
  let bad := results.filterMap fun
    | .error e => some e
    | .ok _ => none
  let good := results.filterMap fun
    | .error _ => none
    | .ok a => some a
  if bad.isEmpty then .ok good else .error bad

/-- Reads one line. -/
def readLine (file : String) (l : SourceLine) : Except Error NumberedLine :=
  match Line.parse l.text with
  | .ok line => .ok ⟨l.number, line⟩
  | .error e => .error ⟨.line e.fault, some ⟨file, l.number, e.column⟩⟩

/-- An error in a name. -/
def symbolError (file : String) (e : SymbolError) : Error :=
  ⟨.symbol e.fault, some ⟨file, e.line, e.column⟩⟩

/-- The cards and instructions just beyond the reach of a pointer. -/
def unaddressable (file : String) (layout : Layout) : List Error :=
  let cards := match layout.cards[addressableLimit]? with
    | some c => [⟨.unaddressableCard addressableLimit, some ⟨file, c.definedAt, 1⟩⟩]
    | none => []
  let instructions := layout.cards.zipIdx.filterMap fun (c, card) =>
    c.instructions[addressableLimit]?.map fun placed =>
      ⟨.unaddressableInstruction card addressableLimit, some ⟨file, placed.number, 1⟩⟩
  cards ++ instructions

/-- The `index`-th instruction of the `card`-th card. -/
def resolveEntry (file : String) (layout : Layout) (c : CardLayout) (card : Nat)
    (placed : PlacedInstruction) (index : Nat) : Except Error Entry :=
  match layout.resolve c index placed with
  | .error e => .error (symbolError file e)
  | .ok argument =>
    .ok ⟨card, index, ⟨placed.written.opcode, argument, placed.written.flag⟩,
      ⟨file, placed.number, placed.written.column⟩⟩

/-- The instructions of the `card`-th card. -/
def resolveCard (file : String) (layout : Layout) (c : CardLayout) (card : Nat) :
    List (Except Error Entry) :=
  c.instructions.zipIdx.map fun (placed, index) => resolveEntry file layout c card placed index

/-- The instructions of all cards, resolved. -/
def resolveAll (file : String) (layout : Layout) : Except (List Error) (List (List Entry)) :=
  let cards := layout.cards.zipIdx.map fun (c, card) => sortOut (resolveCard file layout c card)
  match sortOut cards with
  | .ok entries => .ok entries
  | .error errors => .error errors.flatten

/-- Warnings about the size of a program. -/
def sizeWarnings (file : String) (layout : Layout) : List Warning :=
  let cards := match layout.cards[recommendedCards]? with
    | some c => [⟨.tooManyCards layout.cards.length, ⟨file, c.definedAt, 1⟩⟩]
    | none => []
  let instructions := layout.cards.zipIdx.filterMap fun (c, card) =>
    c.instructions[recommendedLength]?.map fun placed =>
      ⟨.cardTooLong card c.instructions.length, ⟨file, placed.number, 1⟩⟩
  cards ++ instructions

/-- A warning about a value that no register can hold. -/
def valueWarning? (e : Entry) : Option Warning :=
  match e.instruction.argument with
  | .literal v =>
    if -999 ≤ v.toInt ∧ v.toInt ≤ 999 then none else some ⟨.literalSaturates v, e.location⟩
  | .register _ => none

/-- Assembles lines of card source. -/
def ofLines (file : String) (lines : List SourceLine) : Except (List Error) Assembly :=
  match sortOut (lines.map (readLine file)) with
  | .error errors => .error errors
  | .ok lines =>
    match Layout.ofLines lines with
    | .error e => .error [symbolError file e]
    | .ok layout =>
      let beyond := unaddressable file layout
      if beyond.isEmpty then
        match resolveAll file layout with
        | .error errors => .error errors
        | .ok cards =>
          .ok {
            program := .ofCards (cards.map (·.map Entry.instruction))
            cards := layout.cards.map fun c => ⟨c.name, c.definedAt⟩
            warnings := sizeWarnings file layout ++ cards.flatten.filterMap valueWarning?
            entries := cards.flatten }
      else
        .error beyond

/-- Assembles the source file `content` at `path`. -/
def ofSource (path content : String) : Except (List Error) Assembly :=
  ofLines path (Source.extract path content)

end Assembly

end CardMachine
