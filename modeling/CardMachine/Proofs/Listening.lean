import CardMachine.Proofs.Course
import CardMachine.Proofs.Turn

/-!
# Listening changes nothing

A log is only written to, and of a configuration a tick reads nothing but the number of slots in reach.
So a traced turn without its log (`Turn.mute`) is the turn that nobody listens to, under any
configuration with the same slots in reach. The lemmas go up from the call of a peripheral to the driven
tick (`driveTraced_mute`), and from there to every course of requests (`serveAll_quiet`).

`tickWith_eq` cuts a tick in two: the turn of its owner, and the event that tells of a change of mode.
-/

namespace CardMachine

variable {κ β ω : Type}

/-- The turn without its log. -/
def Turn.mute (turn : Turn ω β) : Turn ω β := { turn with log := none }

@[inherit_doc Turn.mute]
def DriveTurn.mute (turn : DriveTurn κ β) : DriveTurn κ β := { turn with log := none }

@[inherit_doc Turn.mute]
def Rig.Served.mute (served : Rig.Served κ β) : Rig.Served κ β := { served with log := none }

/-- Tells the mode that a turn left, if it is not `before`. -/
def Turn.announce (before : ModeId) (turn : Turn ω β) : Turn ω β :=
  if turn.machine.mode.id = before then turn
  else { turn with log := turn.log.record (.modeEntered turn.machine.mode.id) }

/-- To tell of a new mode leaves the outcome. -/
lemma Turn.announce_outcome (before : ModeId) (turn : Turn ω β) :
    (turn.announce before).outcome = turn.outcome := by
  rw [announce]
  split <;> rfl

lemma Turn.announce_machine (before : ModeId) (turn : Turn ω β) :
    (turn.announce before).machine = turn.machine := by
  rw [announce]
  split <;> rfl

/-- What is told goes into the log and nowhere else. -/
lemma Turn.mute_announce (before : ModeId) (turn : Turn ω β) :
    (turn.announce before).mute = turn.mute := by
  rw [announce]
  split <;> rfl

/-- Nothing is told to nobody. -/
lemma Turn.announce_mute (before : ModeId) (turn : Turn ω β) :
    turn.mute.announce before = turn.mute := by
  rw [announce]
  split <;> rfl

variable [Chassis κ] [Provider β]

namespace Machine

/-- The turn of the owner of the mode: a step, or an offer of the mode. -/
def ownTurn (config : Config) (m : Machine) (devices : β) (log : Log) : Turn TickOutcome β :=
  if m.mode.isExecuting then
    let turn := m.step config devices log
    ⟨.executed turn.outcome, turn.machine, turn.devices, turn.log⟩
  else
    m.offerMode config devices log

/-- A tick is the turn of the owner of the mode, and then tells of a new mode. -/
lemma tickWith_eq (config : Config) (m : Machine) (devices : β) (log : Log) :
    m.tickWith config devices log =
      (m.canonicalize.ownTurn config devices log).announce m.canonicalize.mode.id := rfl

section

variable {config config' : Config} (same : config.slotCount = config'.slotCount)
include same

/-- A call does not look at whether there is tracing. -/
lemma callSlot_congr (m : Machine) (devices : β) (v : Word) :
    m.callSlot config devices v = m.callSlot config' devices v := by
  have e : config.slot? v.toInt = config'.slot? v.toInt := by
    simp only [Config.slot?, same]
  rw [callSlot, e, callSlot]

/-- What a call leaves does not depend on tracing. -/
lemma makeCall_congr (m : Machine) (devices : β) (p : Pending) :
    m.makeCall config devices p = m.makeCall config' devices p := by
  rw [makeCall, makeCall]
  cases p.slot with
  | none => rfl
  | some v => dsimp only; rw [callSlot_congr same]

/-- An instruction goes the same without listeners. -/
lemma runInstruction_mute (m : Machine) (devices : β) (k : Nat) (i : Instruction) (log : Log) :
    (m.runInstruction config devices k i log).mute = m.runInstruction config' devices k i none := by
  rw [runInstruction, runInstruction, makeCall_congr same]
  obtain ⟨pending, called, devices'⟩ := m.makeCall config' devices (m.dispatch i (.narrow k))
  dsimp only
  cases pending.fault <;> rfl

/-- A step goes the same without listeners. -/
lemma step_mute (m : Machine) (devices : β) (log : Log) :
    (m.step config devices log).mute = m.step config' devices none := by
  rw [step, step]
  split
  · rfl
  dsimp only
  cases m.homeCard.currentCard.select m.homeCard.ip m.homeCard.registers.c with
  | emptyCard => rfl
  | noneEligible => rfl
  | selected k i => exact runInstruction_mute same m.homeCard devices k i log

lemma offerMode_mute (m : Machine) (devices : β) (log : Log) :
    (m.offerMode config devices log).mute = m.offerMode config' devices none := by
  have e : config.reach = config'.reach := by rw [Config.reach, Config.reach, same]
  rw [offerMode, offerMode, e]
  obtain ⟨claimed, m', devices'⟩ := m.offerTo devices config'.reach
  cases claimed <;> rfl

/-- The owner of the mode takes the same turn without listeners. -/
lemma ownTurn_mute (m : Machine) (devices : β) (log : Log) :
    (m.ownTurn config devices log).mute = m.ownTurn config' devices none := by
  rw [ownTurn, ownTurn]
  split
  · rw [← step_mute same m devices log]
    rfl
  · exact offerMode_mute same m devices log

/-- A tick with a log is a quiet tick, the log apart. -/
lemma tickWith_mute (m : Machine) (devices : β) (log : Log) :
    (m.tickWith config devices log).mute = m.tick config' devices := by
  rw [tick, tickWith_eq, tickWith_eq, Turn.mute_announce, ← ownTurn_mute same _ devices log,
    Turn.announce_mute]

/-- A traced tick is a quiet tick, the log apart. -/
lemma tickTraced_mute (m : Machine) (devices : β) :
    (m.tickTraced config devices).mute = m.tick config' devices :=
  tickWith_mute same m devices config.log

/-- A traced tick with a body is a quiet one, the log apart. -/
lemma driveTraced_mute (m : Machine) (body : κ) (devices : β) :
    (m.driveTraced config body devices).mute = m.drive config' body devices := by
  rw [driveTraced, drive]
  dsimp only
  cases m.canonicalize.driveBody? body with
  | some taken => rfl
  | none => rw [← tickTraced_mute same]; rfl

/-- A quiet tick with a body does not depend on tracing. -/
lemma drive_mute (m : Machine) (body : κ) (devices : β) :
    (m.drive config body devices).mute = m.drive config' body devices := by
  rw [← driveTraced_mute rfl m body devices, ← driveTraced_mute same m body devices]
  rfl

/-- A quiet tick does not depend on tracing. -/
lemma tick_congr (m : Machine) (devices : β) : m.tick config devices = m.tick config' devices :=
  (tickTraced_mute rfl m devices).symm.trans (tickTraced_mute same m devices)

/-- A run up to a boundary does not depend on tracing. -/
lemma continueUntil_congr (boundary : Boundary) (m : Machine) (devices : β) (ticks : Nat)
    (last : Option TickOutcome) (fuel : Nat) :
    m.continueUntil config boundary devices ticks last fuel =
      m.continueUntil config' boundary devices ticks last fuel := by
  induction fuel generalizing m devices ticks last with
  | zero => rfl
  | succ fuel ih =>
    rw [continueUntil, continueUntil, tick_congr same]
    split
    · rfl
    · exact ih _ _ _ _

end

lemma execute_log (config : Config) (m : Machine) (devices : β) :
    (m.execute config devices).log = none := by
  rw [execute, ← step_mute rfl m devices none]
  rfl

lemma tick_log (config : Config) (m : Machine) (devices : β) : (m.tick config devices).log = none := by
  rw [← tickTraced_mute rfl m devices]
  rfl

lemma drive_log (config : Config) (m : Machine) (body : κ) (devices : β) :
    (m.drive config body devices).log = none := by
  rw [← driveTraced_mute rfl m body devices]
  rfl

/-- Without tracing, a traced tick has no log. -/
lemma tickTraced_log_of_not_tracing {config : Config} (h : config.tracing = false) (m : Machine)
    (devices : β) : (m.tickTraced config devices).log = none := by
  have e : config.log = none := by rw [Config.log, h]; rfl
  rw [tickTraced, e]
  exact tick_log config m devices

lemma driveTraced_log_of_not_tracing {config : Config} (h : config.tracing = false) (m : Machine)
    (body : κ) (devices : β) : (m.driveTraced config body devices).log = none := by
  have e : config.log = none := by rw [Config.log, h]; rfl
  rw [driveTraced]
  dsimp only
  cases m.canonicalize.driveBody? body with
  | none => exact tickTraced_log_of_not_tracing h m.canonicalize devices
  | some taken =>
    obtain ⟨outcome, m', body'⟩ := taken
    dsimp only
    rw [e]
    cases outcome <;> rfl

end Machine

namespace Rig

/-- The request without its events. -/
def Request.quiet : Request → Request
  | .tickTraced => .tick
  | .driveTraced => .drive
  | request => request

/-- Without its log, a request leaves what its quiet form leaves. -/
lemma serve_quiet {config config' : Config} (same : config.slotCount = config'.slotCount)
    (r : Rig κ β) (request : Request) :
    (r.serve config request).mute = r.serve config' request.quiet := by
  cases request with
  | execute =>
    exact congrArg (Served.ofTurn .step r.body) (Machine.step_mute same r.machine r.devices none)
  | tick =>
    exact congrArg (Served.ofTurn .tick r.body) (Machine.tickWith_mute same r.machine r.devices none)
  | tickTraced =>
    exact congrArg (Served.ofTurn .tick r.body) (Machine.tickTraced_mute same r.machine r.devices)
  | drive => exact congrArg Served.ofDriveTurn (Machine.drive_mute same r.machine r.body r.devices)
  | driveTraced =>
    exact congrArg Served.ofDriveTurn (Machine.driveTraced_mute same r.machine r.body r.devices)
  | runUntil boundary limit =>
    exact congrArg (Served.ofRun r.body)
      (Machine.continueUntil_congr same boundary r.machine r.devices 0 none limit)

/-- Requests and their quiet forms have the same answers and leave the same rig. -/
lemma serveAll_quiet {config config' : Config} (same : config.slotCount = config'.slotCount)
    (r : Rig κ β) (requests : List Request) :
    (r.serveAll config requests).answers = (r.serveAll config' (requests.map .quiet)).answers ∧
      (r.serveAll config requests).rig = (r.serveAll config' (requests.map .quiet)).rig := by
  induction requests generalizing r with
  | nil => exact ⟨rfl, rfl⟩
  | cons request rest ih =>
    obtain ⟨hanswers, hrig⟩ := ih (r.serve config request).rig
    rw [List.map_cons, serveAll, serveAll, ← serve_quiet same r request]
    exact ⟨congrArg ((r.serve config request).answer :: ·) hanswers, hrig⟩

/-- Without tracing, no request is answered with a log. -/
lemma serve_log_of_not_tracing {config : Config} (h : config.tracing = false) (r : Rig κ β)
    (request : Request) : (r.serve config request).log = none := by
  cases request with
  | execute => exact Machine.execute_log config r.machine r.devices
  | tick => exact Machine.tick_log config r.machine r.devices
  | tickTraced => exact Machine.tickTraced_log_of_not_tracing h r.machine r.devices
  | drive => exact Machine.drive_log config r.machine r.body r.devices
  | driveTraced => exact Machine.driveTraced_log_of_not_tracing h r.machine r.body r.devices
  | runUntil boundary limit => rfl

/-- Without tracing there are no events. -/
lemma serveAll_events_of_not_tracing {config : Config} (h : config.tracing = false) (r : Rig κ β)
    (requests : List Request) : (r.serveAll config requests).events = [] := by
  induction requests generalizing r with
  | nil => rfl
  | cons request rest ih =>
    rw [serveAll]
    dsimp only
    rw [serve_log_of_not_tracing h, ih]
    rfl

end Rig

end CardMachine
