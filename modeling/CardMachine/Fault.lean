/-!
# Faults

What can go wrong while an instruction runs. A fault leaves nothing of the instruction behind: the
machine steps over it.
-/

namespace CardMachine

/-- The cause of a fault. -/
inductive Fault
  | divideByZero
  deriving DecidableEq

namespace Fault

/-- The number of a fault. -/
def code : Fault → Nat
  | .divideByZero => 1

/-- The fault with a number. -/
def ofCode? (code : Int) : Option Fault :=
  if code = 1 then some .divideByZero else none

/-- The wording of a fault. -/
def message : Fault → String
  | .divideByZero => "division by zero"

end Fault

end CardMachine
