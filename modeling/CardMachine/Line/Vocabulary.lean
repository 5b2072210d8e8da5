import CardMachine.Instruction
import CardMachine.Text.Blank

/-!
# The vocabulary of card source

Mnemonics, flags and registers are recognised in capitals or not. They are reserved: no card and no
position can be named by one of them.
-/

namespace CardMachine.Vocabulary

/-- The opcode a word stands for. -/
def opcode? (word : String) : Option Opcode :=
  Opcode.ofMnemonic? (Text.upper word)

/-- The flag a word stands for. -/
def flag? (word : String) : Option Flag :=
  Flag.ofName? (Text.upper word)

/-- The register a word stands for. -/
def register? (word : String) : Option Register :=
  Register.ofName? (Text.upper word)

/-- Does a word already stand for something? -/
def isReserved (word : String) : Bool :=
  (register? word).isSome || (flag? word).isSome || (opcode? word).isSome

/-- Is a word made like a name: an ASCII letter or `_`, then ASCII letters, digits or `_`? -/
def isIdentifier (word : String) : Bool :=
  match word.toList with
  | [] => false
  | first :: rest =>
    (first.isAlpha || first = '_') && rest.all fun c => c.isAlphanum || c = '_'

/-- What a name means as the operand of an opcode. -/
inductive Role
  /-- Nothing: the opcode takes a value. -/
  | value
  /-- A position on the same card. -/
  | position
  /-- The way from the instruction to a position on the same card. -/
  | offset
  /-- A card. -/
  | card
  deriving DecidableEq

/-- What a name means as the operand of `opcode`. -/
def role : Opcode → Role
  | .jmp => .position
  | .jby => .offset
  | .crd | .crj => .card
  | _ => .value

end CardMachine.Vocabulary
