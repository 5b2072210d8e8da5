import CardMachine.Proofs.Listening
import CardMachine.Proofs.Mode

/-!
# The trace tells the truth

`Tells m m' outcome events` lists what the events of a driven tick from `m` to `m'` must be if the tick
went `outcome`, in terms of the machine as it was before the tick: the instruction that the scan of the
current card comes to, where it stands, and the mode that was held. It leaves no choice
(`Tells.unique`), and the events of a traced tick are those (`exists_drive_events`).

A change of mode is never left out. Whoever reads the events of any number of traced ticks, one after
the other, knows the mode the machine is in (`serveAll_lastEntered`).
-/

namespace CardMachine

/-- The event that tells of a change of mode, if there was one. -/
def entered (m m' : Machine) : List Event :=
  if m'.mode.id = m.mode.id then [] else [.modeEntered m'.mode.id]

/-- What a step from `m` tells first. -/
inductive StepTells (m : Machine) : StepOutcome → List Event → Prop where
  | emptyProgram : StepTells m .emptyProgram []
  | emptyCard : StepTells m .emptyCard []
  | noneEligible :
    (∀ i ∈ m.program.card m.scannedCard, i.eligible m.registers.c = false) →
    StepTells m .noEligibleInstruction [.conditionsFailed m.scannedCard m.ip]
  | retired {opcode i} {ip : Pointer} :
    m.program.instruction? m.scannedCard ip = some i →
    Card.FirstEligible (m.program.card m.scannedCard) m.ip m.registers.c ip i →
    i.opcode = opcode →
    StepTells m (.retired opcode) [.retired m.scannedCard ip i]
  | fault {cause i} {ip : Pointer} :
    m.program.instruction? m.scannedCard ip = some i →
    Card.FirstEligible (m.program.card m.scannedCard) m.ip m.registers.c ip i →
    i.opcode = .dvm → i.argument.resolve m.registers = 0 → cause = .divideByZero →
    StepTells m (.fault cause) [.faultRaised cause m.scannedCard ip]

/-- What a tick from `m` to `m'` tells. -/
inductive TickTells (m m' : Machine) : TickOutcome → List Event → Prop where
  | executed {outcome events} :
    StepTells m outcome events →
    TickTells m m' (.executed outcome) (events ++ entered m m')
  | claimed (slot) : TickTells m m' (.modeClaimed slot) (.modeClaimed slot m.mode.id :: entered m m')
  | unclaimed : TickTells m m' .modeUnclaimed (.modeUnclaimed m.mode.id :: entered m m')

/-- What a driven tick from `m` to `m'` tells. -/
inductive Tells (m m' : Machine) : DriveOutcome → List Event → Prop where
  | started (activity) : Tells m m' (.started activity) [.modeEntered m'.mode.id]
  | progressed (activity) : Tells m m' (.progressed activity) []
  | finished (activity) : Tells m m' (.finished activity) [.modeEntered m'.mode.id]
  | core {outcome events} : TickTells m m' outcome events → Tells m m' (.core outcome) events

/-- What is told of a step is settled. -/
lemma StepTells.unique {m : Machine} {outcome : StepOutcome} {events events' : List Event}
    (h : StepTells m outcome events) (h' : StepTells m outcome events') : events = events' := by
  cases h with
  | emptyProgram => cases h'; rfl
  | emptyCard => cases h'; rfl
  | noneEligible _ => cases h'; rfl
  | retired _ first _ =>
    cases h' with
    | retired _ first' _ =>
      obtain ⟨hip, rfl⟩ := first.unique first'
      rw [Fin.ext hip]
  | fault _ first _ _ _ =>
    cases h' with
    | fault _ first' _ _ _ => rw [Fin.ext (first.unique first').1]

/-- What is told of a tick is settled. -/
lemma TickTells.unique {m m' : Machine} {outcome : TickOutcome} {events events' : List Event}
    (h : TickTells m m' outcome events) (h' : TickTells m m' outcome events') : events = events' := by
  cases h with
  | executed h => cases h' with | executed h' => rw [h.unique h']
  | claimed slot => cases h'; rfl
  | unclaimed => cases h'; rfl

/-- The outcome of a tick, and the machine before and after it, leave no choice of events. -/
lemma Tells.unique {m m' : Machine} {outcome : DriveOutcome} {events events' : List Event}
    (h : Tells m m' outcome events) (h' : Tells m m' outcome events') : events = events' := by
  cases h with
  | started activity => cases h'; rfl
  | progressed activity => cases h'; rfl
  | finished activity => cases h'; rfl
  | core h => cases h' with | core h' => exact h.unique h'

/-- The form of the mode has no part in a step. -/
lemma StepTells.of_canonicalize {m : Machine} {outcome : StepOutcome} {events : List Event}
    (h : StepTells m.canonicalize outcome events) : StepTells m outcome events := by
  cases h with
  | emptyProgram => exact .emptyProgram
  | emptyCard => exact .emptyCard
  | noneEligible hall => exact .noneEligible hall
  | retired stored first hop => exact .retired stored first hop
  | fault stored first hop harg hcause => exact .fault stored first hop harg hcause

/-- What is told of a machine in its proper form is told of the machine. -/
lemma TickTells.of_canonicalize {m m' : Machine} {outcome : TickOutcome} {events : List Event}
    (h : TickTells m.canonicalize m' outcome events) : TickTells m m' outcome events := by
  have e : entered m.canonicalize m' = entered m m' := by
    rw [entered, Machine.canonicalize, Mode.id_canonical, entered]
  cases h with
  | executed h => rw [e]; exact .executed h.of_canonicalize
  | claimed slot => rw [e, Machine.canonicalize, Mode.id_canonical]; exact .claimed slot
  | unclaimed => rw [e, Machine.canonicalize, Mode.id_canonical]; exact .unclaimed

/-- The mode that an event says was entered. -/
def Event.entered? : Event → Option ModeId
  | .modeEntered mode => some mode
  | _ => none

/-- The mode that was entered last, if any was; else the one there was at the start. -/
def lastEntered (start : ModeId) (events : List Event) : ModeId :=
  (events.filterMap Event.entered?).getLast?.getD start

/-- The mode entered last is the one of the later events, if they tell of any. -/
lemma lastEntered_append (start : ModeId) (events events' : List Event) :
    lastEntered start (events ++ events') = lastEntered (lastEntered start events) events' := by
  rw [lastEntered, List.filterMap_append, List.getLast?_append, lastEntered, lastEntered]
  cases (events'.filterMap Event.entered?).getLast? <;> rfl

/-- A mode is told of when it is entered, so the one told of last is the mode. -/
lemma lastEntered_entered (m m' : Machine) : lastEntered m.mode.id (entered m m') = m'.mode.id := by
  rw [entered]
  split
  case isTrue h => exact h.symm
  case isFalse h => rfl

/-- A new mode is told of at the end. -/
lemma announce_events {ω β : Type} {turn : Turn ω β} {events : List Event} (m : Machine)
    (h : turn.log = some events) :
    (turn.announce m.mode.id).log = some (events ++ entered m turn.machine) := by
  rw [Turn.announce, entered]
  split
  case isTrue => rw [List.append_nil]; exact h
  case isFalse => rw [h]; rfl

namespace Machine

variable {κ β : Type} [Chassis κ] [Provider β]

/-- A call changes of what is pending only where the pointer goes, so a fault stays. -/
lemma makeCall_fault (config : Config) (m : Machine) (devices : β) (p : Pending) :
    (m.makeCall config devices p).1.fault = p.fault := by
  rw [makeCall]
  split <;> rfl

/-- An instruction that runs is told of at its own place, as retired or as faulty. -/
lemma runInstruction_cases (config : Config) (m : Machine) (devices : β) (k : Nat) (i : Instruction)
    (log : Log) :
    let turn := m.runInstruction config devices k i log
    (i.opcode = .dvm ∧ i.argument.resolve m.registers = 0 ∧ turn.outcome = .fault .divideByZero ∧
      turn.log = log.record (.faultRaised .divideByZero m.card (.narrow k))) ∨
    (turn.outcome = .retired i.opcode ∧ turn.log = log.record (.retired m.card (.narrow k) i)) := by
  have hfault := makeCall_fault config m devices (m.dispatch i (.narrow k))
  rw [dispatch_fault] at hfault
  rw [runInstruction]
  generalize m.makeCall config devices (m.dispatch i (.narrow k)) = call at hfault
  dsimp only
  by_cases h : i.opcode = .dvm ∧ i.argument.resolve m.registers = 0
  · rw [if_pos h] at hfault
    rw [hfault]
    exact .inl ⟨h.1, h.2, rfl, rfl⟩
  · rw [if_neg h] at hfault
    rw [hfault]
    exact .inr ⟨rfl, rfl⟩

/-- The first events of a tick: no mode is entered in them. -/
lemma exists_step_events (config : Config) (m : Machine) (devices : β) :
    ∃ events, (m.step config devices (some [])).log = some events ∧
      (∀ id, lastEntered id events = id) ∧
      (Addressable m.program.cards →
        StepTells m (m.step config devices (some [])).outcome events) := by
  rcases step_cases config m devices (some []) with
    ⟨-, e⟩ | ⟨-, -, e⟩ | ⟨-, -, hall, e⟩ | ⟨k, i, -, first, e⟩
  · rw [e]
    exact ⟨[], rfl, fun _ => rfl, fun _ => .emptyProgram⟩
  · rw [e]
    exact ⟨[], rfl, fun _ => rfl, fun _ => .emptyCard⟩
  · rw [e, homeCard_card]
    rw [homeCard_currentCard] at hall
    exact ⟨_, rfl, fun _ => rfl, fun _ => .noneEligible hall⟩
  · rw [homeCard_currentCard] at first
    -- in an addressable program the position is not lost when it becomes a pointer
    have hk (h : Addressable m.program.cards) : k = (Pointer.narrow k).val := by
      have hlt : k < m.program.cardLength m.scannedCard := first.lt
      have hle := h.cardLength_le m.scannedCard
      have hlimit : addressableLimit = 256 := rfl
      have hval := Pointer.val_narrow (v := k) (by omega) (by omega)
      omega
    have stored : (m.program.card m.scannedCard)[k]? = some i := by
      obtain ⟨_, _, -, hi, -⟩ := first
      exact hi
    have hrun := runInstruction_cases config m.homeCard devices k i (some [])
    rw [← e, homeCard_card, homeCard_registers] at hrun
    rcases hrun with ⟨hop, harg, houtcome, hlog⟩ | ⟨houtcome, hlog⟩
    · refine ⟨_, hlog, fun _ => rfl, fun h => ?_⟩
      rw [houtcome]
      rw [hk h] at stored first
      exact .fault stored first hop harg rfl
    · refine ⟨_, hlog, fun _ => rfl, fun h => ?_⟩
      rw [houtcome]
      rw [hk h] at stored first
      exact .retired stored first rfl

/-- The events of a traced tick. -/
lemma exists_tick_events {config : Config} (tracing : config.tracing = true) (m : Machine)
    (devices : β) :
    ∃ events, (m.tickTraced config devices).log = some events ∧
      lastEntered m.mode.id events = (m.tickTraced config devices).machine.mode.id ∧
      (Addressable m.program.cards →
        TickTells m (m.tickTraced config devices).machine (m.tickTraced config devices).outcome
          events) := by
  have hlog : config.log = some [] := by rw [Config.log, if_pos tracing]
  have hid : m.canonicalize.mode.id = m.mode.id := Mode.id_canonical m.mode
  rw [tickTraced, hlog, tickWith_eq, Turn.announce_machine, Turn.announce_outcome]
  -- what the owner of the mode tells, with the rest of the tick still to come
  obtain ⟨events, hown, hlast, htells⟩ : ∃ events,
      (m.canonicalize.ownTurn config devices (some [])).log = some events ∧
      (∀ id, lastEntered id events = id) ∧
      (Addressable m.program.cards → ∀ m',
        TickTells m m' (m.canonicalize.ownTurn config devices (some [])).outcome
          (events ++ entered m m')) := by
    rw [ownTurn]
    split
    · obtain ⟨events, h, hlast, htells⟩ := exists_step_events config m.canonicalize devices
      exact ⟨events, h, hlast, fun haddr m' => .executed (htells haddr).of_canonicalize⟩
    · rw [offerMode, hid]
      obtain ⟨claimed, m', devices'⟩ := m.canonicalize.offerTo devices config.reach
      cases claimed with
      | some slot => exact ⟨_, rfl, fun _ => rfl, fun _ _ => .claimed slot⟩
      | none => exact ⟨_, rfl, fun _ => rfl, fun _ _ => .unclaimed⟩
  refine ⟨_, announce_events m.canonicalize hown, ?_, ?_⟩
  · rw [lastEntered_append, hlast, ← hid]
    exact lastEntered_entered m.canonicalize _
  · intro haddr
    rw [entered, hid]
    exact htells haddr _

/-- The events of a traced driven tick. -/
lemma exists_drive_events {config : Config} (tracing : config.tracing = true) (m : Machine)
    (body : κ) (devices : β) :
    ∃ events, (m.driveTraced config body devices).log = some events ∧
      lastEntered m.mode.id events = (m.driveTraced config body devices).machine.mode.id ∧
      (Addressable m.program.cards →
        Tells m (m.driveTraced config body devices).machine
          (m.driveTraced config body devices).outcome events) := by
  have hlog : config.log = some [] := by rw [Config.log, if_pos tracing]
  have hid : m.canonicalize.mode.id = m.mode.id := Mode.id_canonical m.mode
  rw [driveTraced, hlog]
  dsimp only
  cases hbody : m.canonicalize.driveBody? body with
  | none =>
    obtain ⟨events, h, hlast, htells⟩ := exists_tick_events tracing m.canonicalize devices
    exact ⟨events, h, hid ▸ hlast, fun haddr => .core (htells haddr).of_canonicalize⟩
  | some taken =>
    obtain ⟨outcome, m', body'⟩ := taken
    dsimp only
    rcases driveBody?_cases hbody with ⟨activity, _, rfl, -⟩ | ⟨activity, _, rfl, -⟩ | ⟨rfl, rfl, -⟩ |
      ⟨rfl, rfl, -⟩ | ⟨_, _, _, rfl, hmode, rfl, -⟩
    · exact ⟨_, rfl, rfl, fun _ => .started activity⟩
    · exact ⟨_, rfl, rfl, fun _ => .finished activity⟩
    · exact ⟨[], rfl, hid.symm, fun _ => .progressed .moving⟩
    · exact ⟨[], rfl, hid.symm, fun _ => .progressed .turning⟩
    · rw [hmode] at hid
      exact ⟨[], rfl, hid.symm, fun _ => .progressed .sleeping⟩

end Machine

/-- Whoever reads the events of traced ticks knows the mode. -/
lemma Rig.serveAll_lastEntered {κ β : Type} [Chassis κ] [Provider β] {config : Config}
    (tracing : config.tracing = true) (r : Rig κ β) {requests : List Request}
    (traced : ∀ request ∈ requests, request = .tickTraced ∨ request = .driveTraced) :
    (r.serveAll config requests).rig.machine.mode.id =
      lastEntered r.machine.mode.id (r.serveAll config requests).events := by
  induction requests generalizing r with
  | nil => rfl
  | cons request rest ih =>
    have hserve : lastEntered r.machine.mode.id ((r.serve config request).log.getD []) =
        (r.serve config request).rig.machine.mode.id := by
      rcases traced request List.mem_cons_self with rfl | rfl
      · obtain ⟨events, h, hlast, -⟩ := Machine.exists_tick_events tracing r.machine r.devices
        rw [serve, Served.ofTurn, h]
        exact hlast
      · obtain ⟨events, h, hlast, -⟩ := Machine.exists_drive_events tracing r.machine r.body r.devices
        rw [serve, Served.ofDriveTurn, h]
        exact hlast
    rw [serveAll]
    dsimp only
    rw [lastEntered_append, hserve]
    exact ih (r.serve config request).rig fun request' h => traced request' (List.mem_cons_of_mem _ h)

/-- The events of a traced driven tick are exactly the ones that `Tells` asks for, and along any run of
traced ticks, driven or not, the mode is the one entered last. -/
theorem trace_tells_the_truth {κ β : Type} [Chassis κ] [Provider β] (config : Config)
    (tracing : config.tracing = true) :
    (∀ (m : Machine) (body : κ) (devices : β) (events : List Event), Addressable m.program.cards →
      let turn := m.driveTraced config body devices
      (turn.log = some events ↔ Tells m turn.machine turn.outcome events)) ∧
    (∀ (r : Rig κ β) (requests : List Rig.Request),
      (∀ request ∈ requests, request = .tickTraced ∨ request = .driveTraced) →
        let course := r.serveAll config requests
        course.rig.machine.mode.id = lastEntered r.machine.mode.id course.events) := by
  refine ⟨?_, ?_⟩
  · intro m body devices events haddr
    obtain ⟨told, hlog, -, htells⟩ := Machine.exists_drive_events tracing m body devices
    dsimp only
    rw [hlog]
    constructor
    · intro h
      cases h
      exact htells haddr
    · intro h
      rw [h.unique (htells haddr)]
  · intro r requests traced
    exact r.serveAll_lastEntered tracing traced

/-- Astray, executing under a mode that is not in its proper form, and about to divide by zero. Then it
asks for a nap. -/
def hastyDivider : Machine :=
  { ip := .narrow 7
    card := .narrow 9
    program := ⟨[[⟨.slp, .literal 0, none⟩, ⟨.dvm, .register .b, none⟩]]⟩
    mode := .other (.own Mode.executingPath) .empty }

/-- The fault is told where it is, and after two more ticks the events say that the nap has begun. -/
theorem hastyDivider_trace_tells :
    let config : Config := { tracing := true }
    let start : Rig PlanarChassis (Bank Timer) := ⟨hastyDivider, {}, oneTimer⟩
    let turn := hastyDivider.driveTraced config start.body start.devices
    let course := start.serveAll config [.driveTraced, .tickTraced, .driveTraced]
    config.tracing = true ∧ Addressable hastyDivider.program.cards ∧
      turn.outcome = .core (.executed (.fault .divideByZero)) ∧
      Tells hastyDivider turn.machine turn.outcome
        [.faultRaised .divideByZero .zero (.narrow 1)] ∧
      course.rig.machine.mode.id = lastEntered hastyDivider.mode.id course.events := by
  have haddr : Addressable hastyDivider.program.cards := by decide
  have truth := trace_tells_the_truth (κ := PlanarChassis) (β := Bank Timer) { tracing := true } rfl
  refine ⟨rfl, haddr, by decide +kernel, ?_, ?_⟩
  · exact (truth.1 hastyDivider {} oneTimer _ haddr).1 (by decide +kernel)
  · exact truth.2 ⟨hastyDivider, {}, oneTimer⟩ _ (by decide)

end CardMachine
