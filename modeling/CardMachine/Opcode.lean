/-!
# Opcodes

The sixteen operations of the machine, with the mnemonic each is written and saved under.
-/

namespace CardMachine

/-- What kind of work an opcode does. -/
inductive OpcodeClass
  /-- Saturating arithmetic on the accumulator. -/
  | arithmetic
  /-- Movement of the instruction pointer, on a card or between cards. -/
  | controlFlow
  /-- Loads of the accumulator. -/
  | registerTransfer
  /-- Requests to the body and calls of a peripheral. -/
  | actuation
  deriving DecidableEq

/-- The operations. -/
inductive Opcode
  | add | sub | mul | dvm
  | jmp | jby | crd | crj
  | lda | rlb | rlc | rld
  | mov | rot | phl | slp
  deriving DecidableEq

namespace Opcode

/-- All opcodes, in table order. -/
def all : List Opcode :=
  [.add, .sub, .mul, .dvm, .jmp, .jby, .crd, .crj, .lda, .rlb, .rlc, .rld, .mov, .rot, .phl, .slp]

/-- The three letters an opcode is written with. -/
def mnemonic : Opcode → String
  | .add => "ADD"
  | .sub => "SUB"
  | .mul => "MUL"
  | .dvm => "DVM"
  | .jmp => "JMP"
  | .jby => "JBY"
  | .crd => "CRD"
  | .crj => "CRJ"
  | .lda => "LDA"
  | .rlb => "RLB"
  | .rlc => "RLC"
  | .rld => "RLD"
  | .mov => "MOV"
  | .rot => "ROT"
  | .phl => "PHL"
  | .slp => "SLP"

/-- The opcode written `text`. -/
def ofMnemonic? (text : String) : Option Opcode :=
  all.find? (·.mnemonic = text)

/-- An opcode is found under its own mnemonic and under no other text. -/
theorem ofMnemonic?_eq_some_iff {text : String} {op : Opcode} :
    ofMnemonic? text = some op ↔ text = op.mnemonic := by
  constructor
  · intro h
    have found := List.find?_some h
    exact (of_decide_eq_true found).symm
  · rintro rfl
    cases op <;> rfl

/-- The class of an opcode. -/
def opcodeClass : Opcode → OpcodeClass
  | .add | .sub | .mul | .dvm => .arithmetic
  | .jmp | .jby | .crd | .crj => .controlFlow
  | .lda | .rlb | .rlc | .rld => .registerTransfer
  | .mov | .rot | .phl | .slp => .actuation

/-- Does the opcode hand the next tick to the body? -/
def startsMode : Opcode → Bool
  | .mov | .rot | .slp => true
  | _ => false

end Opcode

end CardMachine
