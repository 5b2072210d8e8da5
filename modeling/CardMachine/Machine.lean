import CardMachine.Mode.Basic
import CardMachine.Program

/-!
# The machine

The state of one machine: two pointers, the registers, the program and the mode. A host may set the
pointers to anything; the machine brings them back into range whenever it steps.
-/

namespace CardMachine

/-- The state of a machine. -/
structure Machine where
  /-- Position of the next instruction on the current card. -/
  ip : Pointer := .zero
  /-- The current card. -/
  card : Pointer := .zero
  registers : Registers := {}
  program : Program := {}
  mode : Mode := .executing

namespace Machine

/-- Machines agree when all their parts do. -/
instance : BEq Machine :=
  ⟨fun x y => x.ip == y.ip && x.card == y.card && x.registers == y.registers &&
    x.program == y.program && x.mode == y.mode⟩

/-- A machine at the start of a program. -/
def ofProgram (program : Program) : Machine :=
  { program }

/-- Writes a register. -/
def setRegister (m : Machine) (r : Register) (v : Int) : Machine :=
  { m with registers := m.registers.set r v }

/-- Puts in another program and goes to its start; registers and mode stay. -/
def load (m : Machine) (program : Program) : Machine :=
  { m with program, ip := .zero, card := .zero }

/-- Enters a mode, in its proper form. -/
def setMode (m : Machine) (mode : Mode) : Machine :=
  { m with mode := mode.canonical }

/-- Brings the mode into its proper form. -/
def canonicalize (m : Machine) : Machine :=
  { m with mode := m.mode.canonical }

/-- Gives the next tick back to the machine. -/
def resume (m : Machine) : Machine :=
  { m with mode := .executing }

/-- Back to the start of the same program. -/
def reset (m : Machine) : Machine :=
  { program := m.program }

/-- The instruction the pointers name. -/
def currentInstruction? (m : Machine) : Option Instruction :=
  m.program.instruction? m.card m.ip

/-- The card the pointer names. -/
def currentCard (m : Machine) : Card :=
  m.program.card m.card

/-- A card pointer past the end of the program goes to the first card. -/
def homeCard (m : Machine) : Machine :=
  if m.card < m.program.cardCount then m else { m with card := .zero }

/-- The pointers name a position: there is no program to name one in, or the current card exists and
the instruction pointer stands on it (at 0 if it is empty). -/
def InRange (m : Machine) : Prop :=
  m.program.isEmpty ∨
    m.card < m.program.cardCount ∧ m.ip < max 1 (m.program.cardLength m.card)

end Machine

end CardMachine
