import CardMachine.Proofs.Listening
import CardMachine.Proofs.Mode

/-!
# Who owns a tick

An instruction runs in a driven tick exactly if the machine is executing, in whatever form it holds that
mode, and then the body keeps still (`drive_of_executing`). In every other mode the machine rests: pointers,
registers and program stay (`Machine.Rests`), and the body moves only on the way of a move or a turn
(`drive_of_not_executing`).

This takes peripherals that leave the program alone when they are called, and all but the mode when they
are offered one (`Provider.CallsKeepProgram`, `Provider.OffersRest`). Timers do both.
-/

namespace CardMachine

/-- Nothing of the machine has changed, unless the mode. -/
structure Machine.Rests (m m' : Machine) : Prop where
  ip : m'.ip = m.ip
  card : m'.card = m.card
  registers : m'.registers = m.registers
  program : m'.program = m.program

namespace Machine.Rests

lemma refl (m : Machine) : m.Rests m := ⟨rfl, rfl, rfl, rfl⟩

/-- Another mode changes nothing else. -/
lemma withMode (m : Machine) (mode : Mode) : m.Rests { m with mode } := ⟨rfl, rfl, rfl, rfl⟩

lemma trans {m m' m'' : Machine} (h : m.Rests m') (h' : m'.Rests m'') : m.Rests m'' :=
  ⟨h'.ip.trans h.ip, h'.card.trans h.card, h'.registers.trans h.registers, h'.program.trans h.program⟩

end Machine.Rests

/-- What a driven tick makes of body and mode, if it was not the machine's: the body goes forward once,
or turns once, or keeps still, and a sleep that goes on changes nothing but its time. -/
def DriveTurn.BodyWorks {κ β : Type} [Chassis κ] (m : Machine) (body : κ) (devices : β)
    (turn : DriveTurn κ β) : Prop :=
  match turn.outcome with
  | .progressed .moving =>
    (∃ distance, turn.body = Chassis.advance body distance) ∧ turn.machine.mode = m.mode.canonical ∧
      turn.devices = devices
  | .progressed .turning =>
    (∃ angle, turn.body = Chassis.turn body angle) ∧ turn.machine.mode = m.mode.canonical ∧
      turn.devices = devices
  | .progressed .sleeping =>
    turn.body = body ∧ turn.devices = devices ∧
      ∃ id data data', m.mode.canonical = .other id data ∧ turn.machine.mode = .other id data' ∧
        ∀ key, key ≠ Mode.timeKey → data'.get? key = data.get? key
  | _ => turn.body = body

section laws

variable (β : Type) [Provider β]

/-- A peripheral that is called leaves the program as it is. -/
def Provider.CallsKeepProgram : Prop :=
  ∀ (devices : β) (slot : Slot) (m : Machine) (reply : Reply β),
    Provider.call? devices slot m = some reply → reply.machine.program = m.program

/-- A peripheral that is offered a mode changes nothing of the machine but the mode. -/
def Provider.OffersRest : Prop :=
  ∀ (devices : β) (slot : Slot) (m : Machine) (reply : Reply β),
    Provider.offer? devices slot m = some reply → m.Rests reply.machine

end laws

/-- A timer that is called leaves the program. -/
lemma Timer.callsKeepProgram : Provider.CallsKeepProgram (Bank Timer) := by
  intro bank slot m reply h
  obtain ⟨t, e⟩ := Bank.use_machine h
  rw [e]
  show (t.call m).machine.program = m.program
  rw [Timer.call]
  dsimp only
  split <;> rfl

/-- A timer that is offered a mode leaves the machine at rest. -/
lemma Timer.offersRest : Provider.OffersRest (Bank Timer) := by
  intro bank slot m reply h
  obtain ⟨t, e⟩ := Bank.use_machine h
  obtain ⟨mode, hmode⟩ := Timer.offer_frame t m
  rw [e]
  exact hmode ▸ .withMode m mode

namespace Machine

variable {κ β : Type} [Chassis κ] [Provider β]

/-- A quiet tick is the turn of the owner of the mode. -/
lemma tick_eq (config : Config) (m : Machine) (devices : β) :
    m.tick config devices = m.canonicalize.ownTurn config devices none := by
  rw [tick, tickWith_eq, ← ownTurn_mute rfl _ devices none, Turn.announce_mute]

/-- A proper form is reached at once. -/
lemma canonicalize_canonicalize (m : Machine) : m.canonicalize.canonicalize = m.canonicalize := by
  simp only [canonicalize, Mode.canonical_canonical]

/-- A call leaves the program. -/
lemma callSlot_program (calls : Provider.CallsKeepProgram β) (config : Config) (m : Machine)
    (devices : β) (v : Word) : (m.callSlot config devices v).machine.program = m.program := by
  rw [callSlot]
  split
  · rfl
  · next slot _ =>
    cases hcall : Provider.call? devices slot m with
    | none => rfl
    | some reply => exact calls devices slot m reply hcall

/-- An instruction that calls a peripheral leaves the program. -/
lemma makeCall_program (calls : Provider.CallsKeepProgram β) (config : Config) (m : Machine)
    (devices : β) (p : Pending) : (m.makeCall config devices p).2.1.program = m.program := by
  rw [makeCall]
  split
  · rfl
  · exact callSlot_program calls config { m with ip := p.position } devices _

/-- A step leaves the program. -/
lemma step_program (calls : Provider.CallsKeepProgram β) (config : Config) (m : Machine) (devices : β)
    (log : Log) : (m.step config devices log).machine.program = m.program := by
  rcases step_cases config m devices log with ⟨-, e⟩ | ⟨-, -, e⟩ | ⟨-, -, -, e⟩ | ⟨k, i, -, -, e⟩
  · rw [e]
  · rw [e, homeCard_program]
  · rw [e, homeCard_program]
  · rw [e, runInstruction_machine, commit_program, makeCall_program calls, homeCard_program]

/-- While a mode goes round, the machine is at rest. -/
lemma offerTo_rests (offers : Provider.OffersRest β) (slots : List Slot) (m : Machine) (devices : β) :
    m.Rests (m.offerTo devices slots).2.1 := by
  induction slots generalizing m devices with
  | nil => exact .refl m
  | cons slot rest ih =>
    rw [offerTo]
    cases hoffer : Provider.offer? devices slot m with
    | none => exact ih m devices
    | some reply =>
      have rests := offers devices slot m reply hoffer
      dsimp only
      split
      · exact rests
      · exact rests.trans (ih reply.machine reply.device)

/-- While the machine executes, the body has no part. -/
lemma driveBody?_of_isExecuting {m : Machine} (h : m.mode.isExecuting = true) (body : κ) :
    m.driveBody? body = none := by
  obtain ⟨ip, card, registers, program, mode⟩ := m
  cases mode with
  | executing => rfl
  | _ => cases h

/-- While the machine executes, a tick is a step. -/
lemma tick_eq_of_executing {m : Machine} (h : m.mode.id = .own Mode.executingPath) (config : Config)
    (devices : β) :
    m.tick config devices =
      let turn := m.canonicalize.execute config devices
      ⟨.executed turn.outcome, turn.machine, turn.devices, turn.log⟩ := by
  have hexec : m.canonicalize.mode.isExecuting = true := (Mode.canonical_isExecuting_iff m.mode).2 h
  rw [tick_eq, ownTurn, if_pos hexec]
  rfl

/-- While the machine executes, a tick with a body is a step, and the body stays. -/
lemma drive_eq_of_executing {m : Machine} (h : m.mode.id = .own Mode.executingPath) (config : Config)
    (body : κ) (devices : β) :
    m.drive config body devices =
      let turn := m.canonicalize.execute config devices
      ⟨.core (.executed turn.outcome), turn.machine, body, turn.devices, none⟩ := by
  have hexec : m.canonicalize.mode.isExecuting = true := (Mode.canonical_isExecuting_iff m.mode).2 h
  rw [drive]
  dsimp only
  rw [driveBody?_of_isExecuting hexec, tick_eq_of_executing (by rw [canonicalize, Mode.id_canonical, h]),
    canonicalize_canonicalize]

/-- While the machine executes, the tick is a step of its own; body and program stay. -/
lemma drive_of_executing (calls : Provider.CallsKeepProgram β) (config : Config) {m : Machine}
    (h : m.mode.id = .own Mode.executingPath) (body : κ) (devices : β) :
    let turn := m.drive config body devices
    (∃ outcome, turn.outcome = .core (.executed outcome)) ∧ turn.body = body ∧
      turn.machine.program = m.program := by
  have hexec : m.canonicalize.mode.isExecuting = true := (Mode.canonical_isExecuting_iff m.mode).2 h
  rw [drive]
  dsimp only
  rw [driveBody?_of_isExecuting hexec, tick_eq, canonicalize_canonicalize, ownTurn, if_pos hexec]
  exact ⟨⟨_, rfl⟩, rfl, step_program calls config m.canonicalize devices none⟩

/-- In any other mode the machine rests, and the body does its work if the mode is its own. -/
lemma drive_of_not_executing (offers : Provider.OffersRest β) (config : Config) {m : Machine}
    (h : m.mode.id ≠ .own Mode.executingPath) (body : κ) (devices : β) :
    let turn := m.drive config body devices
    (∀ outcome, turn.outcome ≠ .core (.executed outcome)) ∧ m.Rests turn.machine ∧
      turn.BodyWorks m body devices := by
  have hexec : ¬ m.canonicalize.mode.isExecuting = true :=
    fun hexec => h ((Mode.canonical_isExecuting_iff m.mode).1 hexec)
  have hmode : m.canonicalize.mode = m.mode.canonical := rfl
  rw [drive]
  dsimp only
  cases hbody : m.canonicalize.driveBody? body with
  | none =>
    dsimp only
    rw [tick_eq, canonicalize_canonicalize, ownTurn, if_neg hexec, offerMode]
    have rests := offerTo_rests offers config.reach m.canonicalize devices
    generalize m.canonicalize.offerTo devices config.reach = offered at rests
    obtain ⟨claimed, m', devices'⟩ := offered
    cases claimed <;> exact ⟨by simp, (Rests.withMode m _).trans rests, rfl⟩
  | some taken =>
    obtain ⟨outcome, m', body'⟩ := taken
    obtain ⟨mode, e⟩ := driveBody?_frame hbody
    have rests : m.Rests m' := e ▸ .withMode m mode
    rcases driveBody?_cases hbody with ⟨_, _, rfl, -, rfl⟩ | ⟨_, _, rfl, -, rfl⟩ | ⟨rfl, rfl, hmoved⟩ |
      ⟨rfl, rfl, hturned⟩ | ⟨id, data, time, rfl, hslept, rfl, rfl⟩
    · exact ⟨by simp, rests, rfl⟩
    · exact ⟨by simp, rests, rfl⟩
    · exact ⟨by simp, rests, hmoved, rfl, rfl⟩
    · exact ⟨by simp, rests, hturned, rfl, rfl⟩
    · refine ⟨by simp, rests, rfl, rfl, id, data, _, hmode.symm.trans hslept, rfl, ?_⟩
      intro key hkey
      rw [ModeData.get?_insert, if_neg hkey]

end Machine

variable {κ : Type} [Chassis κ]

/-- Driven ticks leave the program, and all but the mode if the machine executes in none of them. -/
lemma Rig.drive_runs (config : Config) (n : Nat) (r : Rig κ (Bank Timer)) :
    let course := r.serveAll config (.replicate n .drive)
    course.rig.machine.program = r.machine.program ∧
      ((∀ outcome, .drive (.core (.executed outcome)) ∉ course.answers) →
        r.machine.Rests course.rig.machine) := by
  induction n generalizing r with
  | zero => exact ⟨rfl, fun _ => .refl _⟩
  | succ n ih =>
    obtain ⟨hprogram, hrests⟩ := ih (r.serve config .drive).rig
    rw [List.replicate_succ, serveAll]
    dsimp only
    by_cases h : r.machine.mode.id = .own Mode.executingPath
    · obtain ⟨⟨outcome, houtcome⟩, -, hkept⟩ :=
        Machine.drive_of_executing Timer.callsKeepProgram config h r.body r.devices
      refine ⟨hprogram.trans hkept, fun hnot => ?_⟩
      -- the first of the answers is one of those that there are none of
      have hanswer : (r.serve config .drive).answer = .drive (.core (.executed outcome)) :=
        congrArg Answer.drive houtcome
      exact absurd (hanswer ▸ List.mem_cons_self) (hnot outcome)
    · obtain ⟨-, rests, -⟩ :=
        Machine.drive_of_not_executing Timer.offersRest config h r.body r.devices
      refine ⟨hprogram.trans rests.program, fun hnot => ?_⟩
      exact rests.trans (hrests fun outcome hmem => hnot outcome (List.mem_cons_of_mem _ hmem))

/-- With timers or nothing in the slots, a driven tick runs an instruction exactly if the machine is
executing, and machine and body do not change in one tick. So along any run of driven ticks the program
stays, and pointers and registers change only in ticks that are reported as steps. -/
theorem ticks_have_one_owner (config : Config) :
    (∀ (m : Machine) (body : κ) (bank : Bank Timer),
      let turn := m.drive config body bank
      ((∃ outcome, turn.outcome = .core (.executed outcome)) ↔
        m.mode.id = .own Mode.executingPath) ∧
      (m.mode.id = .own Mode.executingPath → turn.body = body ∧ turn.machine.program = m.program) ∧
      (m.mode.id ≠ .own Mode.executingPath →
        m.Rests turn.machine ∧ turn.BodyWorks m body bank)) ∧
    (∀ (n : Nat) (r : Rig κ (Bank Timer)),
      let course := r.serveAll config (.replicate n .drive)
      course.rig.machine.program = r.machine.program ∧
        ((∀ outcome, .drive (.core (.executed outcome)) ∉ course.answers) →
          r.machine.Rests course.rig.machine)) := by
  refine ⟨?_, Rig.drive_runs config⟩
  intro m body bank
  dsimp only
  by_cases h : m.mode.id = .own Mode.executingPath
  · obtain ⟨hran, hkept⟩ := Machine.drive_of_executing Timer.callsKeepProgram config h body bank
    exact ⟨⟨fun _ => h, fun _ => hran⟩, fun _ => hkept, fun hne => absurd h hne⟩
  · obtain ⟨hnot, hrest⟩ := Machine.drive_of_not_executing Timer.offersRest config h body bank
    refine ⟨⟨?_, fun e => absurd e h⟩, fun e => absurd e h, fun _ => hrest⟩
    rintro ⟨outcome, e⟩
    exact absurd e (hnot outcome)

/-- A machine that executes, although not in the proper form of that mode, and calls a timer. -/
def improperCaller : Machine :=
  { strayCaller with mode := .other (.own Mode.executingPath) .empty }

/-- A machine that waits for a timer. -/
def waiter : Machine :=
  { strayCaller with mode := .other (.own Timer.waitPath) .empty }

/-- The call of the timer leaves body and program alone, and the wait leaves the machine alone. -/
theorem timer_ticks_have_one_owner :
    let called := improperCaller.drive {} ({} : PlanarChassis) oneTimer
    let waited := waiter.drive {} ({} : PlanarChassis) oneTimer
    let course := (⟨waiter, {}, oneTimer⟩ : Rig PlanarChassis (Bank Timer)).serveAll {} [.drive]
    improperCaller.mode.id = .own Mode.executingPath ∧
      called.body = {} ∧ called.machine.program = improperCaller.program ∧
    waiter.mode.id ≠ .own Mode.executingPath ∧
      waiter.Rests waited.machine ∧ waited.BodyWorks waiter {} oneTimer ∧
    course.answers = [.drive (.core (.modeClaimed ⟨0, by decide⟩))] ∧ waiter.Rests course.rig.machine := by
  obtain ⟨tick, run⟩ := ticks_have_one_owner (κ := PlanarChassis) {}
  have hwaiter : waiter.mode.id ≠ .own Mode.executingPath := by decide +kernel
  have hcalled := (tick improperCaller {} oneTimer).2.1 rfl
  have hwaited := (tick waiter {} oneTimer).2.2 hwaiter
  have hanswers : ((⟨waiter, {}, oneTimer⟩ : Rig PlanarChassis (Bank Timer)).serveAll {}
      (.replicate 1 .drive)).answers = [.drive (.core (.modeClaimed ⟨0, by decide⟩))] := by decide +kernel
  refine ⟨rfl, hcalled.1, hcalled.2, hwaiter, hwaited.1, hwaited.2, hanswers, ?_⟩
  apply (run 1 ⟨waiter, {}, oneTimer⟩).2
  rw [hanswers]
  intro outcome h
  cases List.mem_singleton.1 h

end CardMachine
