import CardMachine.Fault
import CardMachine.Mode.Basic
import CardMachine.Peripheral.Basic

/-!
# Events

What a machine tells about a tick, for whoever listens. A `Log` that nobody listens to records
nothing.
-/

namespace CardMachine

/-- Something that happened during a tick. -/
inductive Event
  /-- The instruction at a position ran. -/
  | retired (card ip : Pointer) (instruction : Instruction)
  /-- The scan of a card, starting at a position, found nothing to run. -/
  | conditionsFailed (card ip : Pointer)
  /-- The instruction at a position faulted. -/
  | faultRaised (cause : Fault) (card ip : Pointer)
  /-- The tick left the machine in another mode. -/
  | modeEntered (mode : ModeId)
  /-- The peripheral in a slot took the mode it was offered. -/
  | modeClaimed (slot : Slot) (mode : ModeId)
  /-- No peripheral took the mode. -/
  | modeUnclaimed (mode : ModeId)
  deriving DecidableEq

/-- The events so far, if somebody listens. -/
abbrev Log := Option (List Event)

/-- Adds an event. -/
def Log.record (log : Log) (event : Event) : Log :=
  log.map (· ++ [event])

end CardMachine
