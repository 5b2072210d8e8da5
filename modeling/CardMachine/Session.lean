import CardMachine.Assembly
import CardMachine.Listing
import CardMachine.Robot
import CardMachine.Snapshot.Decode

/-!
# Sessions

A robot at work, for a front end: load a program or a saved machine, let it run, look at it, start
over. Whatever is loaded begins with a new robot and the tick count at zero; a source that does not
assemble changes nothing.
-/

namespace CardMachine

/-- A robot and the number of ticks since it was loaded. Fewer than 2^64 ticks are meant, as many as a
count of 64 bits can hold. -/
structure Session where
  robot : Robot := {}
  ticks : Nat := 0

/-- What can be seen of a session. The ticks are fewer than 2^64, as in `Session`. -/
structure View where
  ip : Nat
  card : Nat
  registers : List Word
  mode : String
  x : Float
  z : Float
  heading : Float
  ticks : Nat

namespace Session

/-- Starts over with a machine. -/
def start (machine : Machine) : Session := { robot := .ofMachine machine }

/-- The name under which a source is assembled. -/
def sourceName (literate : Bool) : String :=
  if literate then "input.md" else "input.cards"

/-- Assembles a source and starts over with its program. Gives the warnings, or else the errors, as
they are reported. -/
def loadSource (s : Session) (source : String) (literate : Bool) :
    Session × Except String (List String) :=
  match Assembly.ofSource (sourceName literate) source with
  | .error errors => (s, .error (Assembly.reports errors))
  | .ok assembly => (start assembly.machine, .ok (assembly.warnings.map Assembly.Warning.report))

/-- Starts over with a saved machine. -/
def loadState (text : String) : Session × List String :=
  let loaded := Snapshot.load text
  (start loaded.value, loaded.warnings.map Snapshot.Warning.message)

/-- The machine as it is saved. -/
def saveState (s : Session) : String := Snapshot.save s.robot.machine

/-- Starts over with the same program. -/
def reset (s : Session) : Session := start (.ofProgram s.robot.machine.program)

/-- One tick. -/
def tick (s : Session) : Session × DriveOutcome :=
  let (robot, outcome) := s.robot.tick {}
  ({ robot, ticks := s.ticks + 1 }, outcome)

/-- So many ticks after one that went `last`. -/
def runFrom (last : Option DriveOutcome) : Nat → Session → Session × Option DriveOutcome
  | 0, s => (s, last)
  | n + 1, s =>
    let (s, outcome) := s.tick
    runFrom (some outcome) n s

/-- So many ticks, and how the last one went. -/
def run (s : Session) (count : Nat) : Session × Option DriveOutcome :=
  runFrom none count s

/-- The listing of the program. -/
def listing (s : Session) : String := s.robot.machine.listing

/-- What can be seen. -/
def view (s : Session) : View :=
  let m := s.robot.machine
  ⟨m.ip, m.card, m.registers.values, m.mode.id.text, s.robot.body.x, s.robot.body.z,
    s.robot.body.heading, s.ticks⟩

end Session

end CardMachine
