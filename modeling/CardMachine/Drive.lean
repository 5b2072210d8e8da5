import CardMachine.Chassis
import CardMachine.Tick

/-!
# Driving

A machine only asks to move, turn or sleep. A host with a body runs `Machine.drive` in place of
`Machine.tick`: it takes up each request, works on it tick by tick, and gives the machine back when
it is done. Every other mode goes to the machine's own tick.
-/

namespace CardMachine

/-- What a body can be busy with. -/
inductive Activity
  | moving | turning | sleeping
  deriving DecidableEq

/-- How a driven tick went. -/
inductive DriveOutcome
  /-- A request was taken up. -/
  | started (activity : Activity)
  /-- Work went on. -/
  | progressed (activity : Activity)
  /-- Work was done and the machine executes again. -/
  | finished (activity : Activity)
  /-- The tick was not the body's. -/
  | core (outcome : TickOutcome)
  deriving DecidableEq

namespace Drive

/-- The distance travelled in a tick. -/
def movementPerTick : Float := 0.1

/-- The angle turned in a tick, in radians. -/
def turningPerTick : Float := 0.314

/-- The error of heading below which a turn is done. -/
def turnTolerance : Float := 1e-4

/-- The distance short of the target at which a move is done. -/
def moveTolerance : Float := 1e-6

/-- Path of the mode of a move. -/
def movingPath : String := "entity/moving"

/-- Path of the mode of a turn. -/
def turningPath : String := "entity/turning"

/-- Path of the mode of a sleep. -/
def sleepingPath : String := "entity/sleeping"

/-- Key of the place where a move started. -/
def startXKey : String := "startX"

@[inherit_doc startXKey]
def startZKey : String := "startZ"

/-- Key of the heading where a turn ends. -/
def targetHeadingKey : String := "targetHeading"

/-- The size of `x` with the sign of `y`; no number at all counts as positive. -/
def withSign (x y : Float) : Float :=
  if Binary64.isNegative y && !y.isNaN then -x.abs else x.abs

/-- The length of the next bit of a move with `rest` to go. -/
def moveStep (rest : Float) : Float :=
  if rest < movementPerTick then rest else movementPerTick

/-- The angle of the next bit of a turn with `rest` to go. -/
def turnStep (rest : Float) : Float :=
  if rest < -turningPerTick then -turningPerTick
  else if turningPerTick < rest then turningPerTick
  else rest

end Drive

open Drive

variable {κ : Type} [Chassis κ]

namespace Machine

/-- A tick of a move. -/
def driveMove (m : Machine) (data : ModeData) (body : κ) : DriveOutcome × Machine × κ :=
  let distance := (data.float? Mode.distanceKey).getD 0.0
  let startX := (data.float? startXKey).getD (Chassis.x body)
  let startZ := (data.float? startZKey).getD (Chassis.z body)
  let travelled := vectorLength (Chassis.x body - startX) (Chassis.z body - startZ)
  let target := distance.abs
  if travelled + moveTolerance ≥ target then
    (.finished .moving, m.resume, body)
  else
    (.progressed .moving, m, Chassis.advance body (withSign (moveStep (target - travelled)) distance))

/-- A tick of a turn. -/
def driveTurn (m : Machine) (data : ModeData) (body : κ) : DriveOutcome × Machine × κ :=
  let target := (data.float? targetHeadingKey).getD (Chassis.heading body)
  let error := target - Chassis.heading body
  if error.abs < turnTolerance then
    (.finished .turning, m.resume, body)
  else
    (.progressed .turning, m, Chassis.turn body (turnStep error))

/-- A tick of a sleep. -/
def driveSleep (m : Machine) (id : ModeId) (data : ModeData) (body : κ) :
    DriveOutcome × Machine × κ :=
  let time := (data.int? Mode.timeKey).getD 0
  if time.toInt ≤ 0 then
    (.finished .sleeping, m.resume, body)
  else
    (.progressed .sleeping,
      { m with mode := .other id (data.insert Mode.timeKey (.int (time - 1))) }, body)

/-- The body's part of a tick; `none` if the mode is not the body's. -/
def driveBody? (m : Machine) (body : κ) : Option (DriveOutcome × Machine × κ) :=
  match m.mode with
  | .moveStart distance =>
    let data := ((ModeData.empty.insert Mode.distanceKey (.int (Int64.ofInt distance.toInt))).insert
      startXKey (.float (Chassis.x body))).insert startZKey (.float (Chassis.z body))
    some (.started .moving, m.setMode (.other (.own movingPath) data), body)
  | .rotateStart angle =>
    let target := Chassis.heading body + radians (Float.ofInt angle.toInt)
    let data := (ModeData.empty.insert Mode.angleKey (.int (Int64.ofInt angle.toInt))).insert
      targetHeadingKey (.float target)
    some (.started .turning, m.setMode (.other (.own turningPath) data), body)
  | .sleepStart ticks =>
    let data := ModeData.empty.insert Mode.timeKey (.int (Int64.ofInt ticks.toInt))
    some (.started .sleeping, m.setMode (.other (.own sleepingPath) data), body)
  | .other id data =>
    if id.isOwn movingPath then some (m.driveMove data body)
    else if id.isOwn turningPath then some (m.driveTurn data body)
    else if id.isOwn sleepingPath then some (m.driveSleep id data body)
    else none
  | .executing => none

end Machine

/-- What a driven tick leaves. -/
structure DriveTurn (κ β : Type) where
  outcome : DriveOutcome
  machine : Machine
  body : κ
  devices : β
  log : Log

namespace Machine

variable {β : Type} [Provider β]

/-- One driven tick, with nobody listening. -/
def drive (config : Config) (m : Machine) (body : κ) (devices : β) : DriveTurn κ β :=
  let m := m.canonicalize
  match m.driveBody? body with
  | some (outcome, m, body) => ⟨outcome, m, body, devices, none⟩
  | none =>
    let turn := m.tick config devices
    ⟨.core turn.outcome, turn.machine, body, turn.devices, none⟩

/-- One driven tick, with its events if the configuration asks for them. -/
def driveTraced (config : Config) (m : Machine) (body : κ) (devices : β) : DriveTurn κ β :=
  let m := m.canonicalize
  match m.driveBody? body with
  | some (outcome, m, body) =>
    let log := match outcome with
      | .started _ | .finished _ => config.log.record (.modeEntered m.mode.id)
      | _ => config.log
    ⟨outcome, m, body, devices, log⟩
  | none =>
    let turn := m.tickTraced config devices
    ⟨.core turn.outcome, turn.machine, body, turn.devices, turn.log⟩

end Machine

end CardMachine
