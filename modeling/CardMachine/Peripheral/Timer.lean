import CardMachine.Peripheral.Basic

/-!
# The timer

Called while `D` is positive, the timer owns the machine for `D` ticks. Called otherwise, it puts the
number of waits it has completed into `A`.
-/

namespace CardMachine

/-- A timer, with the number of waits it has completed. -/
structure Timer where
  completed : UInt32 := 0
  deriving DecidableEq

namespace Timer

/-- Path of the mode of a wait. -/
def waitPath : String := "timer/wait"

/-- Key of the ticks that remain of a wait. -/
def remainingKey : String := "remaining"

/-- One more completed wait; the count stops at its greatest value. -/
def complete (t : Timer) : Timer :=
  ⟨if t.completed = 4294967295 then t.completed else t.completed + 1⟩

/-- Starts a wait, or reports the completed ones. -/
def call (t : Timer) (m : Machine) : Reply Timer :=
  let d := m.registers.d.toInt
  if 0 < d then
    let data := ModeData.empty.insert remainingKey (.int (Int64.ofInt d))
    ⟨true, t, m.setMode (.other (.own waitPath) data)⟩
  else
    ⟨true, t, m.setRegister .a t.completed.toNat⟩

/-- Takes a tick of a wait. -/
def offer (t : Timer) (m : Machine) : Reply Timer :=
  match m.mode with
  | .other id data =>
    if id.isOwn waitPath then
      let remaining := (data.int? remainingKey).getD 0
      if remaining.toInt ≤ 1 then
        ⟨true, t.complete, m.resume⟩
      else
        ⟨true, t, { m with mode := .other id (data.insert remainingKey (.int (remaining - 1))) }⟩
    else
      ⟨false, t, m⟩
  | _ => ⟨false, t, m⟩

instance : Peripheral Timer where
  call := call
  offer := offer

end Timer

end CardMachine
