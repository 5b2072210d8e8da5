import CardMachine.Fault
import CardMachine.Machine

/-!
# Pending effects

An instruction takes effect in two moves. `Machine.dispatch` reads the machine and gathers what the
instruction wants done, and `Machine.commit` does it: registers, mode and card first, then the
instruction pointer, which is brought back onto the card that is now current. A fault drops
everything but the move of the pointer.
-/

namespace CardMachine

/-- Values to be written to the registers. -/
structure Writes where
  a : Option Int := none
  b : Option Int := none
  c : Option Int := none
  d : Option Int := none
  deriving DecidableEq

namespace Writes

/-- The value for a register. -/
def get (w : Writes) : Register → Option Int
  | .a => w.a
  | .b => w.b
  | .c => w.c
  | .d => w.d

/-- Adds a value for a register. -/
def set (w : Writes) (r : Register) (v : Int) : Writes :=
  match r with
  | .a => { w with a := some v }
  | .b => { w with b := some v }
  | .c => { w with c := some v }
  | .d => { w with d := some v }

end Writes

/-- Writes the registers that have a value waiting. -/
def Registers.write (rs : Registers) (w : Writes) : Registers :=
  Register.all.foldl (fun rs r => match w.get r with
    | some v => rs.set r v
    | none => rs) rs

/-- A register with a value waiting takes it, saturated; the others keep theirs. -/
theorem Registers.get_write (rs : Registers) (w : Writes) (r : Register) :
    (rs.write w).get r = ((w.get r).map saturate).getD (rs.get r) := by
  obtain ⟨a, b, c, d⟩ := w
  cases r <;> cases a <;> cases b <;> cases c <;> cases d <;> rfl

/-- What an instruction wants done. -/
structure Pending where
  /-- Where the instruction stands. -/
  position : Pointer
  writes : Writes := {}
  /-- Where the instruction pointer goes, before it moves on and is brought into range. -/
  nextIp : Int := (position.val : Int)
  /-- The card to go to. -/
  nextCard : Option Pointer := none
  /-- Does the pointer move on by one? -/
  advance : Bool := true
  /-- The mode to enter. -/
  mode : Option Mode := none
  /-- The peripheral slot to call. -/
  slot : Option Word := none
  fault : Option Fault := none

/-- A jump target brought onto a card of length `len`, its end included. -/
def clampJump (target : Int) (len : Nat) : Int :=
  max 0 (min target len)

/-- Is there a card `target` among `count`? -/
def cardTargetValid (target : Int) (count : Nat) : Bool :=
  0 ≤ target && target < count

/-- The remainder of `v` by `len`, from 0 to `len - 1`; zero if `len` is zero. -/
def floorMod (v : Int) (len : Nat) : Int :=
  if len = 0 then 0 else v % len

namespace Machine

/-- The mode a request opcode asks for. -/
def startMode (opcode : Opcode) (magnitude : Word) : Mode :=
  match opcode with
  | .mov => .moveStart magnitude
  | .rot => .rotateStart magnitude
  | _ => .sleepStart magnitude

/-- A jump on the current card. -/
def jump (m : Machine) (position : Pointer) (target : Int) : Pending :=
  { position, nextIp := clampJump target (m.program.cardLength m.card), advance := false }

/-- A change of card; a card that does not exist leaves the machine where it is. -/
def changeCard (m : Machine) (position : Pointer) (target : Word) (rewind : Bool) : Pending :=
  if cardTargetValid target.toInt m.program.cardCount then
    { position, advance := false, nextCard := some (.narrow target.toInt)
      nextIp := if rewind then 0 else (position.val : Int) }
  else
    { position, advance := false }

/-- What the instruction `i`, standing at `position`, wants done. -/
def dispatch (m : Machine) (i : Instruction) (position : Pointer) : Pending :=
  let arg := i.argument.resolve m.registers
  let a := m.registers.a.toInt
  match i.opcode with
  | .add => { position, writes := { a := some (a + arg.toInt) } }
  | .sub => { position, writes := { a := some (a - arg.toInt) } }
  | .mul => { position, writes := { a := some (a * arg.toInt) } }
  | .dvm =>
    if arg = 0 then { position, fault := some .divideByZero }
    else { position, writes := { a := some (a.tdiv arg.toInt), b := some (a.tmod arg.toInt) } }
  | .jmp => m.jump position arg.toInt
  | .jby => m.jump position (position.val + arg.toInt)
  | .crd => m.changeCard position arg true
  | .crj => m.changeCard position arg false
  | .lda => { position, writes := { a := some arg.toInt } }
  | .rlb => { position, writes := { a := some arg.toInt, b := some a } }
  | .rlc => { position, writes := { a := some arg.toInt, c := some a } }
  | .rld => { position, writes := { a := some arg.toInt, d := some a } }
  | .mov | .rot | .slp => { position, mode := some (startMode i.opcode arg) }
  | .phl => { position, slot := some arg }

/-- Brings both pointers into range, the instruction pointer starting from `ip`. -/
def normalize (m : Machine) (ip : Int) : Machine :=
  let m := m.homeCard
  { m with ip := .narrow (floorMod ip (m.program.cardLength m.card)) }

/-- The effects of an instruction that did not fault, the pointers aside. -/
def apply (m : Machine) (p : Pending) : Machine :=
  { m with
    registers := m.registers.write p.writes
    mode := (p.mode.map Mode.canonical).getD m.mode
    card := p.nextCard.getD m.card }

/-- Does what is pending. -/
def commit (m : Machine) (p : Pending) : Machine :=
  let m := if p.fault.isNone then m.apply p else m
  m.normalize (p.nextIp + if p.advance then 1 else 0)

end Machine

end CardMachine
