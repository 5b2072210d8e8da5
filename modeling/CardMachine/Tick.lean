import CardMachine.Event
import CardMachine.Pending
import CardMachine.Scan

/-!
# Ticks

A tick belongs to the owner of the mode. While the machine executes, it runs one instruction
(`Machine.step`). In any other mode it offers the mode to the peripherals, slot by slot, until one
takes it. `Machine.runUntil` goes on ticking up to a boundary.
-/

namespace CardMachine

/-- How a machine is set up. -/
structure Config where
  /-- Are the events of traced ticks recorded? -/
  tracing : Bool := false
  /-- The number of slots in use; more than there are means all. -/
  slots : Nat := slotLimit
  deriving DecidableEq

namespace Config

/-- The number of slots in reach. -/
def slotCount (config : Config) : Nat := min config.slots slotLimit

/-- The slots in reach, in order. -/
def reach (config : Config) : List Slot :=
  (List.finRange slotLimit).take config.slotCount

/-- The slot `v`, if it is in reach. -/
def slot? (config : Config) (v : Int) : Option Slot :=
  if h : 0 ≤ v ∧ v < config.slotCount then
    some ⟨v.toNat, by simp only [slotCount] at h; omega⟩
  else
    none

/-- The log that traced ticks start with. -/
def log (config : Config) : Log :=
  if config.tracing then some [] else none

end Config

/-- How a step went. -/
inductive StepOutcome
  /-- An instruction ran. -/
  | retired (opcode : Opcode)
  /-- There is no program. -/
  | emptyProgram
  /-- The current card is empty. -/
  | emptyCard
  /-- No instruction of the card may run. -/
  | noEligibleInstruction
  /-- An instruction faulted and was stepped over. -/
  | fault (cause : Fault)
  deriving DecidableEq

/-- How a tick went. -/
inductive TickOutcome
  /-- The machine made a step. -/
  | executed (outcome : StepOutcome)
  /-- The peripheral in a slot took the mode. -/
  | modeClaimed (slot : Slot)
  /-- No peripheral took the mode. -/
  | modeUnclaimed
  deriving DecidableEq

/-- What a step or a tick leaves: how it went, the machine, its peripherals, and the log. -/
structure Turn (ω β : Type) where
  outcome : ω
  machine : Machine
  devices : β
  log : Log

namespace Machine

variable {β : Type} [Provider β]

/-- Calls the peripheral in slot `v`. The machine moves on past a slot that is out of reach or
empty. -/
def callSlot (config : Config) (m : Machine) (devices : β) (v : Word) : Reply β :=
  match config.slot? v.toInt with
  | none => ⟨true, devices, m⟩
  | some slot => (Provider.call? devices slot m).getD ⟨true, devices, m⟩

/-- Makes the call that is pending, if there is one. The peripheral finds the instruction pointer at
the calling instruction, and the machine goes on from where the peripheral leaves it. -/
def makeCall (config : Config) (m : Machine) (devices : β) (p : Pending) : Pending × Machine × β :=
  match p.slot with
  | none => (p, m, devices)
  | some v =>
    let reply := { m with ip := p.position }.callSlot config devices v
    ({ p with advance := reply.answer, nextIp := (reply.machine.ip.val : Int) }, reply.machine,
      reply.device)

/-- Runs the instruction that the scan found at `index`. -/
def runInstruction (config : Config) (m : Machine) (devices : β) (index : Nat)
    (instruction : Instruction) (log : Log) : Turn StepOutcome β :=
  let position := Pointer.narrow index
  let (pending, called, devices) := m.makeCall config devices (m.dispatch instruction position)
  match pending.fault with
  | some cause =>
    ⟨.fault cause, called.commit pending, devices, log.record (.faultRaised cause m.card position)⟩
  | none =>
    ⟨.retired instruction.opcode, called.commit pending, devices,
      log.record (.retired m.card position instruction)⟩

/-- One step: at most one instruction runs. -/
def step (config : Config) (m : Machine) (devices : β) (log : Log) : Turn StepOutcome β :=
  if m.program.isEmpty then ⟨.emptyProgram, m, devices, log⟩
  else
    let m := m.homeCard
    match m.currentCard.select m.ip m.registers.c with
    | .emptyCard => ⟨.emptyCard, m, devices, log⟩
    | .noneEligible =>
      ⟨.noEligibleInstruction, m, devices, log.record (.conditionsFailed m.card m.ip)⟩
    | .selected index instruction => m.runInstruction config devices index instruction log

/-- One step, with nobody listening. -/
def execute (config : Config) (m : Machine) (devices : β) : Turn StepOutcome β :=
  m.step config devices none

/-- Offers the mode to the given slots, one after the other, until one takes it. -/
def offerTo (m : Machine) (devices : β) : List Slot → Option Slot × Machine × β
  | [] => (none, m, devices)
  | slot :: rest =>
    match Provider.offer? devices slot m with
    | none => m.offerTo devices rest
    | some reply =>
      if reply.answer then (some slot, reply.machine, reply.device)
      else reply.machine.offerTo reply.device rest

/-- Offers the mode to the peripherals in reach. -/
def offerMode (config : Config) (m : Machine) (devices : β) (log : Log) : Turn TickOutcome β :=
  match m.offerTo devices config.reach with
  | (some slot, m', devices) =>
    ⟨.modeClaimed slot, m', devices, log.record (.modeClaimed slot m.mode.id)⟩
  | (none, m', devices) => ⟨.modeUnclaimed, m', devices, log.record (.modeUnclaimed m.mode.id)⟩

/-- One tick, recorded in `log`. -/
def tickWith (config : Config) (m : Machine) (devices : β) (log : Log) : Turn TickOutcome β :=
  let m := m.canonicalize
  let turn : Turn TickOutcome β :=
    if m.mode.isExecuting then
      let turn := m.step config devices log
      ⟨.executed turn.outcome, turn.machine, turn.devices, turn.log⟩
    else
      m.offerMode config devices log
  if turn.machine.mode.id = m.mode.id then turn
  else { turn with log := turn.log.record (.modeEntered turn.machine.mode.id) }

/-- One tick, with nobody listening. -/
def tick (config : Config) (m : Machine) (devices : β) : Turn TickOutcome β :=
  m.tickWith config devices none

/-- One tick, with its events if the configuration asks for them. -/
def tickTraced (config : Config) (m : Machine) (devices : β) : Turn TickOutcome β :=
  m.tickWith config devices config.log

end Machine

/-- Where a run of ticks stops. -/
inductive Boundary
  /-- After a tick that changed the identifier of the mode. -/
  | modeChange
  /-- After a tick that faulted. -/
  | fault
  /-- Nowhere before the limit. -/
  | tickLimit
  deriving DecidableEq

/-- Does the tick from `m` that left `turn` reach the boundary? -/
def Boundary.isReached {β : Type} (m : Machine) (turn : Turn TickOutcome β) : Boundary → Bool
  | .modeChange => m.mode.id ≠ turn.machine.mode.id
  | .fault => match turn.outcome with
    | .executed (.fault _) => true
    | _ => false
  | .tickLimit => false

/-- What a run of ticks leaves. -/
structure Run (β : Type) where
  /-- The number of ticks. -/
  ticks : Nat
  /-- How the last tick went, if there was one. -/
  last : Option TickOutcome
  /-- Did the run stop at the boundary? -/
  boundaryReached : Bool
  machine : Machine
  devices : β

namespace Machine

variable {β : Type} [Provider β]

/-- Goes on with a run that has made `ticks` ticks, for at most `fuel` more. -/
def continueUntil (config : Config) (boundary : Boundary) (m : Machine) (devices : β) (ticks : Nat)
    (last : Option TickOutcome) : Nat → Run β
  | 0 => ⟨ticks, last, false, m, devices⟩
  | fuel + 1 =>
    let turn := m.tick config devices
    if boundary.isReached m turn then
      ⟨ticks + 1, some turn.outcome, true, turn.machine, turn.devices⟩
    else
      turn.machine.continueUntil config boundary turn.devices (ticks + 1) (some turn.outcome) fuel

/-- Ticks until the boundary, at most `limit` times. -/
def runUntil (config : Config) (boundary : Boundary) (m : Machine) (devices : β) (limit : Nat) :
    Run β :=
  m.continueUntil config boundary devices 0 none limit

end Machine

end CardMachine
