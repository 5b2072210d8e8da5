import CardMachine.Dict
import CardMachine.Line.Basic
import CardMachine.Line.Vocabulary

/-!
# Layout

The lines of a source fall into sections, one for each `.card` line. What stands before the first
`.card` line is a section of its own if there is anything in it. A section becomes a card: its
instructions in order, and its labels, each with the number of instructions before it. Names of
cards, and labels on one card, are unique.

Names are resolved against a finished layout (`Layout.resolve`).
-/

namespace CardMachine

/-- A line and its number. -/
structure NumberedLine where
  number : Nat
  line : Line
  deriving DecidableEq

/-- What a name stands for: a card or a position, and the line that says so. -/
structure Symbol where
  index : Nat
  definedAt : Nat
  deriving DecidableEq

/-- Names and what they stand for, in the order of the names. -/
abbrev SymbolTable := List (String × Symbol)

/-- An instruction and the number of its line. -/
structure PlacedInstruction where
  written : WrittenInstruction
  number : Nat
  deriving DecidableEq

/-- A card as it is laid out. -/
structure CardLayout where
  name : Option String
  /-- The line that opened the card. -/
  definedAt : Nat
  labels : SymbolTable
  instructions : List PlacedInstruction
  deriving DecidableEq

/-- A source as it is laid out. -/
structure Layout where
  cards : List CardLayout := []
  cardNames : SymbolTable := []
  deriving DecidableEq

/-- What is wrong with a name. -/
inductive SymbolFault
  | duplicateLabel (name : String) (firstDefinition : Nat)
  | duplicateCard (name : String) (firstDefinition : Nat)
  | undefinedLabel (name : String)
  | undefinedCard (name : String)
  | symbolNotAllowed (name : String) (opcode : Opcode)
  | outOfRange (name : String)
  deriving DecidableEq

/-- The wording of a fault in a name. -/
def SymbolFault.message : SymbolFault → String
  | .duplicateLabel name first => s!"duplicate label '{name}' (first defined at line {first})"
  | .duplicateCard name first => s!"duplicate card '{name}' (first defined at line {first})"
  | .undefinedLabel name => s!"undefined label '{name}' on this card"
  | .undefinedCard name => s!"undefined card '{name}'"
  | .symbolNotAllowed name opcode =>
    opcode.mnemonic ++ s!" takes a value, not the symbol '{name}'"
  | .outOfRange name => s!"position of '{name}' does not fit an argument"

/-- A fault in a name and its place; column 1 stands for the whole line. -/
structure SymbolError where
  fault : SymbolFault
  line : Nat
  column : Nat
  deriving DecidableEq

/-- The lines of one card, and what opened it. -/
structure Section where
  name : Option String
  definedAt : Nat
  body : List NumberedLine

namespace Section

/-- Cuts lines into the part before the first card and one section for each card. -/
def split (lines : List NumberedLine) : List NumberedLine × List Section :=
  lines.foldr (fun l (body, sections) => match l.line with
    | .card name => ([], ⟨name, l.number, body⟩ :: sections)
    | _ => (l :: body, sections)) ([], [])

/-- The sections of a source. A part before the first card counts if it has a line that is not
blank, and that line opens it. -/
def ofLines (lines : List NumberedLine) : List Section :=
  let (body, sections) := split lines
  match body.find? (·.line ≠ .blank) with
  | none => sections
  | some first => ⟨none, first.number, body⟩ :: sections

/-- The instructions of a section. -/
def instructions (s : Section) : List PlacedInstruction :=
  s.body.filterMap fun l => match l.line with
    | .instruction _ written => some ⟨written, l.number⟩
    | _ => none

end Section

namespace Line

/-- The label that a line puts on its position. -/
def label? : Line → Option String
  | .label name => some name
  | .instruction name _ => name
  | _ => none

/-- The number of instructions on a line. -/
def weight : Line → Nat
  | .instruction _ _ => 1
  | _ => 0

end Line

namespace Layout

/-- Gives a name a meaning, if it has none. -/
def define (table : SymbolTable) (name : String) (symbol : Symbol)
    (duplicate : String → Nat → SymbolFault) : Except SymbolError SymbolTable :=
  match table.lookup name with
  | some earlier => .error ⟨duplicate name earlier.definedAt, symbol.definedAt, 1⟩
  | none => .ok (Dict.insert name symbol table)

/-- Adds the labels of `lines` to a table, `index` instructions having gone before. -/
def collectLabels (table : SymbolTable) (index : Nat) :
    List NumberedLine → Except SymbolError SymbolTable
  | [] => .ok table
  | l :: rest =>
    match l.line.label? with
    | none => collectLabels table (index + l.line.weight) rest
    | some name =>
      match define table name ⟨index, l.number⟩ .duplicateLabel with
      | .error e => .error e
      | .ok table => collectLabels table (index + l.line.weight) rest

/-- Adds the name of the card that is the `index`-th. -/
def defineCard (names : SymbolTable) (index : Nat) (s : Section) :
    Except SymbolError SymbolTable :=
  match s.name with
  | none => .ok names
  | some name => define names name ⟨index, s.definedAt⟩ .duplicateCard

/-- Lays out sections after the cards `done`, which are `index` many and in reverse order. -/
def layCards (done : List CardLayout) (index : Nat) (names : SymbolTable) :
    List Section → Except SymbolError Layout
  | [] => .ok ⟨done.reverse, names⟩
  | s :: rest =>
    match defineCard names index s with
    | .error e => .error e
    | .ok names =>
      match collectLabels [] 0 s.body with
      | .error e => .error e
      | .ok labels =>
        layCards (⟨s.name, s.definedAt, labels, s.instructions⟩ :: done) (index + 1) names rest

/-- Lays out the lines of a source, or tells the first line that repeats a name. -/
def ofLines (lines : List NumberedLine) : Except SymbolError Layout :=
  layCards [] 0 [] (Section.ofLines lines)

/-- What a name stands for as the operand of `opcode`, `index` instructions into a card with the
given labels. -/
def meaning (layout : Layout) (labels : SymbolTable) (index : Nat) (opcode : Opcode)
    (name : String) : Except SymbolFault Int :=
  match Vocabulary.role opcode with
  | .value => .error (.symbolNotAllowed name opcode)
  | .position =>
    match labels.lookup name with
    | some target => .ok target.index
    | none => .error (.undefinedLabel name)
  | .offset =>
    match labels.lookup name with
    | some target => .ok (target.index - index)
    | none => .error (.undefinedLabel name)
  | .card =>
    match layout.cardNames.lookup name with
    | some target => .ok target.index
    | none => .error (.undefinedCard name)

/-- The argument that the operand of the `index`-th instruction of a card comes to. -/
def resolve (layout : Layout) (card : CardLayout) (index : Nat) (placed : PlacedInstruction) :
    Except SymbolError Argument :=
  match placed.written.operand with
  | .literal v => .ok (.literal v)
  | .register r => .ok (.register r)
  | .symbol name =>
    match layout.meaning card.labels index placed.written.opcode name with
    | .error fault => .error ⟨fault, placed.number, placed.written.column⟩
    | .ok v =>
      match Word.ofInt? v with
      | some word => .ok (.literal word)
      | none => .error ⟨.outOfRange name, placed.number, placed.written.column⟩

end Layout

end CardMachine
