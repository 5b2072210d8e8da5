import CardMachine.Drive
import CardMachine.Peripheral.Timer

/-!
# Robots

A machine with a body on the plane and a timer in the first slot.
-/

namespace CardMachine

/-- A machine, its body and its peripherals. -/
structure Robot where
  machine : Machine := {}
  body : PlanarChassis := {}
  devices : Bank Timer := (({} : Bank Timer).install 0 {}).1

namespace Robot

/-- A robot that stands at the origin and has not waited yet. -/
def ofMachine (machine : Machine) : Robot := { machine }

/-- One tick. -/
def tick (config : Config) (r : Robot) : Robot × DriveOutcome :=
  let turn := r.machine.drive config r.body r.devices
  (⟨turn.machine, turn.body, turn.devices⟩, turn.outcome)

/-- One tick with its events. -/
def tickTraced (config : Config) (r : Robot) : Robot × List Event :=
  let turn := r.machine.driveTraced config r.body r.devices
  (⟨turn.machine, turn.body, turn.devices⟩, turn.log.getD [])

/-- So many ticks, the events of each handed to `f`. -/
def foldTicks {σ : Type} (config : Config) (f : σ → List Event → σ) :
    Nat → Robot → σ → Robot × σ
  | 0, r, s => (r, s)
  | n + 1, r, s =>
    let (r, events) := r.tickTraced config
    foldTicks config f n r (f s events)

end Robot

end CardMachine
