import CardMachine.Drive
import CardMachine.Proofs.Commit
import CardMachine.Proofs.Scan

/-!
# What a turn can be

One inversion lemma for each kind of turn. `step_cases` lists what a step can do: there is nothing to
run, for one of three reasons, or the first instruction that may run is run. `tick_cases` says whose
tick it was, and `drive_cases` whether the body took it. `driveBody?_cases` says what the body does, and
`driveBody?_frame` is its frame: of the machine it changes nothing but the mode.
-/

namespace CardMachine.Machine

variable {κ β : Type} [Chassis κ] [Provider β]

/-- Everything that a step can do. -/
lemma step_cases (config : Config) (m : Machine) (devices : β) (log : Log) :
    (m.program.isEmpty = true ∧ m.step config devices log = ⟨.emptyProgram, m, devices, log⟩) ∨
    (m.program.isEmpty = false ∧ m.homeCard.currentCard = [] ∧
      m.step config devices log = ⟨.emptyCard, m.homeCard, devices, log⟩) ∨
    (m.program.isEmpty = false ∧ m.homeCard.currentCard ≠ [] ∧
      (∀ i ∈ m.homeCard.currentCard, i.eligible m.registers.c = false) ∧
      m.step config devices log = ⟨.noEligibleInstruction, m.homeCard, devices,
        log.record (.conditionsFailed m.homeCard.card m.ip)⟩) ∨
    ∃ k i, m.program.isEmpty = false ∧
      Card.FirstEligible m.homeCard.currentCard m.ip m.registers.c k i ∧
      m.step config devices log = m.homeCard.runInstruction config devices k i log := by
  cases hempty : m.program.isEmpty with
  | true => exact .inl ⟨rfl, by rw [step, if_pos hempty]⟩
  | false =>
    refine .inr ?_
    rw [step, if_neg (by simp [hempty])]
    dsimp only
    rw [homeCard_ip, homeCard_registers]
    cases hsel : Card.select m.homeCard.currentCard m.ip m.registers.c with
    | emptyCard => exact .inl ⟨rfl, Card.select_eq_emptyCard_iff.1 hsel, rfl⟩
    | noneEligible =>
      obtain ⟨hne, hall⟩ := Card.select_eq_noneEligible_iff.1 hsel
      exact .inr (.inl ⟨rfl, hne, hall, rfl⟩)
    | selected k i => exact .inr (.inr ⟨k, i, rfl, Card.select_eq_selected_iff.1 hsel, rfl⟩)

/-- The machine that runs an instruction commits what is pending after the call. -/
lemma runInstruction_machine (config : Config) (m : Machine) (devices : β) (k : Nat)
    (i : Instruction) (log : Log) :
    (m.runInstruction config devices k i log).machine =
      (m.makeCall config devices (m.dispatch i (.narrow k))).2.1.commit
        (m.makeCall config devices (m.dispatch i (.narrow k))).1 := by
  rw [runInstruction]
  obtain ⟨pending, called, devices'⟩ := m.makeCall config devices (m.dispatch i (.narrow k))
  dsimp only
  split <;> rfl

/-- An instruction that ran has retired, unless it faulted. -/
lemma runInstruction_outcome (config : Config) (m : Machine) (devices : β) (k : Nat)
    (i : Instruction) (log : Log) :
    (m.runInstruction config devices k i log).outcome =
      match (m.makeCall config devices (m.dispatch i (.narrow k))).1.fault with
      | some cause => .fault cause
      | none => .retired i.opcode := by
  rw [runInstruction]
  obtain ⟨pending, called, devices'⟩ := m.makeCall config devices (m.dispatch i (.narrow k))
  dsimp only
  cases pending.fault <;> rfl

/-- Without a slot to call, there is no call. -/
lemma makeCall_of_slot_eq_none {config : Config} {m : Machine} {devices : β} {p : Pending}
    (h : p.slot = none) : m.makeCall config devices p = (p, m, devices) := by
  rw [makeCall, h]

/-- A call changes of what is pending only where the pointer goes, so the card stays. -/
lemma makeCall_nextCard (config : Config) (m : Machine) (devices : β) (p : Pending) :
    (m.makeCall config devices p).1.nextCard = p.nextCard := by
  rw [makeCall]
  split <;> rfl

/-- Whose tick it was: while the machine executes it steps, and in any other mode the mode is
offered. -/
lemma tick_cases (config : Config) (m : Machine) (devices : β) :
    (m.canonicalize.mode.isExecuting = true ∧
      (m.tick config devices).machine = (m.canonicalize.step config devices none).machine ∧
      (m.tick config devices).devices = (m.canonicalize.step config devices none).devices) ∨
    (m.canonicalize.mode.isExecuting = false ∧
      (m.tick config devices).machine = (m.canonicalize.offerTo devices config.reach).2.1 ∧
      (m.tick config devices).devices = (m.canonicalize.offerTo devices config.reach).2.2) := by
  rw [tick, tickWith]
  cases hmode : m.canonicalize.mode.isExecuting with
  | true =>
    refine .inl ⟨rfl, ?_⟩
    simp only [if_true]
    split <;> exact ⟨rfl, rfl⟩
  | false =>
    refine .inr ⟨rfl, ?_⟩
    simp only [Bool.false_eq_true, if_false, offerMode]
    obtain ⟨claimed, m', devices'⟩ := m.canonicalize.offerTo devices config.reach
    cases claimed <;> (dsimp only; split <;> exact ⟨rfl, rfl⟩)

/-- What the body makes of a tick. It enters a mode when it starts or ends something. It moves only while
a move or a turn goes on, and then the machine stays as it is; a sleep that goes on counts its time
down. -/
lemma driveBody?_cases {m m' : Machine} {body body' : κ} {outcome : DriveOutcome}
    (h : m.driveBody? body = some (outcome, m', body')) :
    (∃ activity mode, outcome = .started activity ∧ m' = m.setMode mode ∧ body' = body) ∨
    (∃ activity mode, outcome = .finished activity ∧ m' = m.setMode mode ∧ body' = body) ∨
    (outcome = .progressed .moving ∧ m' = m ∧ ∃ distance, body' = Chassis.advance body distance) ∨
    (outcome = .progressed .turning ∧ m' = m ∧ ∃ angle, body' = Chassis.turn body angle) ∨
    ∃ id data time, outcome = .progressed .sleeping ∧ m.mode = .other id data ∧
      m' = { m with mode := .other id (data.insert Mode.timeKey time) } ∧ body' = body := by
  rw [driveBody?] at h
  split at h
  -- requests first, then the modes in which the body is at work
  case h_1 => cases h; exact .inl ⟨_, _, rfl, rfl, rfl⟩
  case h_2 => cases h; exact .inl ⟨_, _, rfl, rfl, rfl⟩
  case h_3 => cases h; exact .inl ⟨_, _, rfl, rfl, rfl⟩
  case h_4 id data hmode =>
    split at h
    · rw [driveMove] at h
      split at h
      · cases h; exact .inr (.inl ⟨_, .executing, rfl, rfl, rfl⟩)
      · cases h; exact .inr (.inr (.inl ⟨rfl, rfl, _, rfl⟩))
    split at h
    · rw [driveTurn] at h
      split at h
      · cases h; exact .inr (.inl ⟨_, .executing, rfl, rfl, rfl⟩)
      · cases h; exact .inr (.inr (.inr (.inl ⟨rfl, rfl, _, rfl⟩)))
    split at h
    · rw [driveSleep] at h
      split at h
      · cases h; exact .inr (.inl ⟨_, .executing, rfl, rfl, rfl⟩)
      · cases h; exact .inr (.inr (.inr (.inr ⟨id, data, _, rfl, hmode, rfl, rfl⟩)))
    · cases h
  case h_5 => cases h

/-- The body changes nothing of the machine but its mode. -/
lemma driveBody?_frame {m m' : Machine} {body body' : κ} {outcome : DriveOutcome}
    (h : m.driveBody? body = some (outcome, m', body')) : ∃ mode, m' = { m with mode } := by
  rcases driveBody?_cases h with ⟨_, mode, -, e, -⟩ | ⟨_, mode, -, e, -⟩ | ⟨-, e, -⟩ | ⟨-, e, -⟩ |
    ⟨_, _, _, -, -, e, -⟩
  · exact ⟨mode.canonical, e⟩
  · exact ⟨mode.canonical, e⟩
  · exact ⟨m.mode, e⟩
  · exact ⟨m.mode, e⟩
  · exact ⟨_, e⟩

/-- Who took a driven tick: the body, or else the machine's own tick did. -/
lemma drive_cases (config : Config) (m : Machine) (body : κ) (devices : β) :
    (∃ mode, (m.drive config body devices).machine = { m with mode } ∧
      (m.drive config body devices).devices = devices) ∨
    ((m.drive config body devices).machine = (m.canonicalize.tick config devices).machine ∧
      (m.drive config body devices).devices = (m.canonicalize.tick config devices).devices) := by
  rw [drive]
  cases hbody : m.canonicalize.driveBody? body with
  | none => exact .inr ⟨rfl, rfl⟩
  | some taken =>
    obtain ⟨outcome, m', body'⟩ := taken
    obtain ⟨mode, rfl⟩ := driveBody?_frame hbody
    exact .inl ⟨mode, rfl, rfl⟩

end CardMachine.Machine
