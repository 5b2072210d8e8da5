import CardMachine.Word

/-!
# Registers

The machine has four registers. Each holds a word between -999 and 999; a write saturates, so no
arithmetic ever leaves that range (`Registers.InRange.set`).
-/

namespace CardMachine

/-- The name of a register: accumulator, backup, conditional and device. -/
inductive Register
  | a | b | c | d
  deriving DecidableEq

namespace Register

/-- All registers, in order. -/
def all : List Register := [.a, .b, .c, .d]

/-- Position of a register in `all`. -/
def index : Register → Nat
  | .a => 0
  | .b => 1
  | .c => 2
  | .d => 3

/-- The letter a register is written with. -/
def name : Register → String
  | .a => "A"
  | .b => "B"
  | .c => "C"
  | .d => "D"

/-- The register written `text`. -/
def ofName? (text : String) : Option Register :=
  all.find? (·.name = text)

/-- A register is found under its own name and under no other text. -/
theorem ofName?_eq_some_iff {text : String} {r : Register} :
    ofName? text = some r ↔ text = r.name := by
  constructor
  · intro h
    have found := List.find?_some h
    exact (of_decide_eq_true found).symm
  · rintro rfl
    cases r <;> rfl

end Register

/-- The value a register takes when it is asked to hold `v`. -/
def saturate (v : Int) : Word :=
  Int16.ofInt (max (-999) (min v 999))

/-- The contents of the four registers. -/
structure Registers where
  a : Word := 0
  b : Word := 0
  c : Word := 0
  d : Word := 0
  deriving DecidableEq

namespace Registers

/-- Reads a register. -/
def get (rs : Registers) : Register → Word
  | .a => rs.a
  | .b => rs.b
  | .c => rs.c
  | .d => rs.d

/-- Writes a register; the value saturates. -/
def set (rs : Registers) (r : Register) (v : Int) : Registers :=
  match r with
  | .a => { rs with a := saturate v }
  | .b => { rs with b := saturate v }
  | .c => { rs with c := saturate v }
  | .d => { rs with d := saturate v }

/-- The four values, in register order. -/
def values (rs : Registers) : List Word :=
  Register.all.map rs.get

/-- Every register holds a value between -999 and 999. -/
def InRange (rs : Registers) : Prop :=
  ∀ r, -999 ≤ (rs.get r).toInt ∧ (rs.get r).toInt ≤ 999

end Registers

/-- Saturation is exact on its range and stops at the ends. -/
theorem toInt_saturate (v : Int) : (saturate v).toInt = max (-999) (min v 999) :=
  Int16.toInt_ofInt_of_le (by omega) (by omega)

namespace Registers

/-- A register reads back what was written, saturated; the others keep their values. -/
theorem get_set (rs : Registers) (r s : Register) (v : Int) :
    (rs.set r v).get s = if s = r then saturate v else rs.get s := by
  cases r <;> cases s <;> rfl

/-- A write keeps all registers in range. -/
theorem InRange.set {rs : Registers} (h : rs.InRange) (r : Register) (v : Int) :
    (rs.set r v).InRange := by
  intro s
  rw [get_set]
  split
  · rw [toInt_saturate]; omega
  · exact h s

end Registers

end CardMachine
