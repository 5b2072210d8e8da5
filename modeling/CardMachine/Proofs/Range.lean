import CardMachine.Proofs.Turn
import CardMachine.Proofs.WellFormed

/-!
# Pointers and registers stay in range

A step that runs an instruction leaves a well-formed machine with both pointers in range, whatever
they were before and whatever a called peripheral made of them, because the commit comes last
(`runInstruction_settled`). A step that runs nothing moves the card pointer home at most
(`step_settled`). So every tick, driven or not, keeps the machine well formed and in range
(`tick_settled`, `drive_settled`), and with it every run does (`Rig.Runs.settled`).

`ExactStep` says that nothing was lost where a step made a pointer of an integer.
-/

namespace CardMachine

variable {κ β : Type} [Chassis κ] [Provider β]

namespace Machine

/-- The machine is well formed and its pointers are in range. -/
structure Settled (m : Machine) : Prop where
  wellFormed : m.WellFormed
  inRange : m.InRange

/-- A step of `m` runs the instruction `i`, which stands at `k`, and every integer that becomes a
pointer on the way is that pointer's value: the position, the card to go to, and at last the
instruction pointer. -/
structure ExactStep (config : Config) (m : Machine) (devices : β) (k : Nat) (i : Instruction) :
    Prop where
  selected : Card.select m.homeCard.currentCard m.ip m.registers.c = .selected k i
  position : (Pointer.narrow k).val = k
  /-- The machine is that of the call, with what is pending done to it. -/
  committed : (m.execute config devices).machine =
    (m.homeCard.makeCall config devices (m.homeCard.dispatch i (.narrow k))).2.1.commit
      (m.homeCard.makeCall config devices (m.homeCard.dispatch i (.narrow k))).1
  card : ∀ card,
    (m.homeCard.makeCall config devices (m.homeCard.dispatch i (.narrow k))).1.nextCard = some card →
      (card.val : Int) = (i.argument.resolve m.registers).toInt
  ip : ((m.execute config devices).machine.ip.val : Int) =
    floorMod
      ((m.homeCard.makeCall config devices (m.homeCard.dispatch i (.narrow k))).1.nextIp +
        if (m.homeCard.makeCall config devices (m.homeCard.dispatch i (.narrow k))).1.advance
          then 1 else 0)
      ((m.execute config devices).machine.program.cardLength (m.execute config devices).machine.card)

/-- Moving the card pointer home keeps a machine well formed. -/
lemma WellFormed.homeCard {m : Machine} (wf : m.WellFormed) : m.homeCard.WellFormed :=
  ⟨by rw [homeCard_registers]; exact wf.registers, by rw [homeCard_program]; exact wf.program⟩

/-- Whatever a peripheral does when it is called, the machine stays well formed. -/
lemma makeCall_wellFormed (calls : Provider.CallsEdit β) {m : Machine} (wf : m.WellFormed)
    (config : Config) (devices : β) (p : Pending) :
    (m.makeCall config devices p).2.1.WellFormed := by
  rw [makeCall]
  split
  · exact wf
  · have wf' : { m with ip := p.position }.WellFormed := ⟨wf.registers, wf.program⟩
    dsimp only
    rw [callSlot]
    split
    · exact wf'
    · next slot _ =>
      cases hcall : Provider.call? devices slot { m with ip := p.position } with
      | none => exact wf'
      | some reply => exact (calls _ _ _ _ hcall).wellFormed wf'

/-- An instruction that ran leaves the machine well formed and in range. -/
lemma runInstruction_settled (calls : Provider.CallsEdit β) {m : Machine} (wf : m.WellFormed)
    (config : Config) (devices : β) (k : Nat) (i : Instruction) (log : Log) :
    (m.runInstruction config devices k i log).machine.Settled := by
  -- the peripheral may have moved the pointers and changed the program; the commit comes after it
  have wf' := makeCall_wellFormed calls wf config devices (m.dispatch i (.narrow k))
  rw [runInstruction_machine]
  refine ⟨⟨commit_registers_inRange wf'.registers _, ?_⟩, commit_inRange wf'.program _⟩
  rw [commit_program]
  exact wf'.program

/-- The card an instruction goes to is the one its argument names. -/
lemma val_dispatch_nextCard {m : Machine} (h : Addressable m.program.cards) {i : Instruction}
    {position card : Pointer} (e : (m.dispatch i position).nextCard = some card) :
    (card.val : Int) = (i.argument.resolve m.registers).toInt := by
  have change {rewind : Bool}
      (e : (m.changeCard position (i.argument.resolve m.registers) rewind).nextCard = some card) :
      (card.val : Int) = (i.argument.resolve m.registers).toInt := by
    rw [changeCard] at e
    split at e
    case isTrue valid => cases e; exact val_narrow_card h valid
    case isFalse => cases e
  rw [dispatch] at e
  -- of the sixteen opcodes only two have a card to go to
  cases hop : i.opcode <;> simp only [hop] at e
  case crd | crj => exact change e
  case dvm => split at e <;> cases e
  all_goals cases e

/-- A step that runs an instruction loses nothing where it makes a pointer of an integer. -/
lemma exactStep_of_firstEligible (calls : Provider.CallsEdit β) {config : Config} {m : Machine}
    {devices : β} {k : Nat} {i : Instruction} (wf : m.WellFormed)
    (first : Card.FirstEligible m.homeCard.currentCard m.ip m.registers.c k i)
    (e : m.step config devices none = m.homeCard.runInstruction config devices k i none) :
    m.ExactStep config devices k i := by
  have wf' := makeCall_wellFormed calls wf.homeCard config devices
    (m.homeCard.dispatch i (.narrow k))
  have hmachine : (m.execute config devices).machine = _ :=
    (congrArg Turn.machine e).trans (runInstruction_machine config m.homeCard devices k i none)
  have hcard : m.homeCard.currentCard.length ≤ addressableLimit :=
    wf.homeCard.program.cardLength_le m.homeCard.card
  have hk := first.lt
  have hlimit : addressableLimit = 256 := rfl
  refine ⟨Card.select_eq_selected_iff.2 first, ?_, hmachine, ?_, ?_⟩
  · have hval := Pointer.val_narrow (v := k) (by omega) (by omega)
    omega
  · intro card hnext
    rw [makeCall_nextCard] at hnext
    have hval := val_dispatch_nextCard wf.homeCard.program hnext
    rwa [homeCard_registers] at hval
  · rw [hmachine]
    exact val_commit_ip wf'.program _

/-- A step keeps the machine well formed, and its pointers in range if they were. -/
lemma step_settled (calls : Provider.CallsEdit β) {m : Machine} (settled : m.Settled) (config : Config)
    (devices : β) (log : Log) : (m.step config devices log).machine.Settled := by
  -- a machine in range is at home, so a step that runs nothing leaves it as it is
  have hhome : m.program.isEmpty = false → m.homeCard = m := by
    intro hempty
    rcases settled.inRange with h | ⟨h, -⟩
    · rw [h] at hempty; cases hempty
    · exact homeCard_eq_self h
  rcases step_cases config m devices log with
    ⟨-, e⟩ | ⟨hempty, -, e⟩ | ⟨hempty, -, -, e⟩ | ⟨k, i, -, -, e⟩
  · rw [e]; exact settled
  · rw [e, hhome hempty]; exact settled
  · rw [e, hhome hempty]; exact settled
  · rw [e]; exact runInstruction_settled calls settled.wellFormed.homeCard config devices k i log

/-- Offering the mode to slot after slot keeps the machine well formed and in range. -/
lemma offerTo_settled (offers : Provider.OffersKeepRange β) (slots : List Slot) {m : Machine}
    (settled : m.Settled) (devices : β) : (m.offerTo devices slots).2.1.Settled := by
  induction slots generalizing m devices with
  | nil => exact settled
  | cons slot rest ih =>
    rw [offerTo]
    cases hoffer : Provider.offer? devices slot m with
    | none => exact ih settled devices
    | some reply =>
      obtain ⟨edited, inRange⟩ := offers devices slot m reply hoffer
      have settled' : reply.machine.Settled :=
        ⟨edited.wellFormed settled.wellFormed, inRange settled.wellFormed settled.inRange⟩
      dsimp only
      split
      · exact settled'
      · exact ih settled' reply.device

/-- A change of mode alone keeps the machine well formed and in range. -/
lemma Settled.withMode {m : Machine} (settled : m.Settled) (mode : Mode) : { m with mode }.Settled :=
  ⟨⟨settled.wellFormed.registers, settled.wellFormed.program⟩, settled.inRange⟩

/-- A tick keeps the machine well formed and in range. -/
lemma tick_settled (calls : Provider.CallsEdit β) (offers : Provider.OffersKeepRange β) {m : Machine}
    (settled : m.Settled) (config : Config) (devices : β) : (m.tick config devices).machine.Settled := by
  have settled' : m.canonicalize.Settled := settled.withMode _
  rcases tick_cases config m devices with ⟨-, e, -⟩ | ⟨-, e, -⟩
  · rw [e]; exact step_settled calls settled' config devices none
  · rw [e]; exact offerTo_settled offers config.reach settled' devices

/-- A driven tick keeps the machine well formed and in range. -/
lemma drive_settled (calls : Provider.CallsEdit β) (offers : Provider.OffersKeepRange β) {m : Machine}
    (settled : m.Settled) (config : Config) (body : κ) (devices : β) :
    (m.drive config body devices).machine.Settled := by
  rcases drive_cases config m body devices with ⟨mode, e, -⟩ | ⟨e, -⟩
  · rw [e]; exact settled.withMode mode
  · rw [e]; exact tick_settled calls offers (settled.withMode _) config devices

end Machine

/-- A machine with its body and its peripherals. -/
structure Rig (κ β : Type) where
  machine : Machine
  body : κ
  devices : β

namespace Rig

/-- One tick, in which the body has no part. -/
def tick (config : Config) (r : Rig κ β) : Rig κ β :=
  let turn := r.machine.tick config r.devices
  ⟨turn.machine, r.body, turn.devices⟩

/-- One driven tick. -/
def drive (config : Config) (r : Rig κ β) : Rig κ β :=
  let turn := r.machine.drive config r.body r.devices
  ⟨turn.machine, turn.body, turn.devices⟩

/-- A run of ticks, driven or not, from `start` comes past this. -/
inductive Runs (config : Config) (start : Rig κ β) : Rig κ β → Prop where
  | start : Runs config start start
  | tick {r} : Runs config start r → Runs config start (r.tick config)
  | drive {r} : Runs config start r → Runs config start (r.drive config)

/-- All along a run the machine is well formed and in range. -/
lemma Runs.settled (calls : Provider.CallsEdit β) (offers : Provider.OffersKeepRange β)
    {config : Config} {start r : Rig κ β} (run : Runs config start r) (settled : start.machine.Settled) :
    r.machine.Settled := by
  induction run with
  | start => exact settled
  | @tick r _ ih => exact Machine.tick_settled calls offers ih config r.devices
  | @drive r _ ih => exact Machine.drive_settled calls offers ih config r.body r.devices

end Rig

/-- Whatever the pointers are and whatever a called peripheral makes of the machine, a step that runs
an instruction, or faults in one, leaves the pointers and the registers in range and loses nothing
where it makes a pointer of an integer. So does every run from pointers in range, if the peripherals
keep them there when they are offered a mode. -/
theorem execute_and_runs_inRange (config : Config) (calls : Provider.CallsEdit β) :
    (∀ (m : Machine) (devices : β), m.WellFormed →
      ((∃ opcode, (m.execute config devices).outcome = .retired opcode) ∨
        ∃ cause, (m.execute config devices).outcome = .fault cause) →
      (m.execute config devices).machine.InRange ∧
        (m.execute config devices).machine.registers.InRange ∧
        ∃ k i, m.ExactStep config devices k i) ∧
    (Provider.OffersKeepRange β → ∀ start r : Rig κ β,
      start.machine.WellFormed → start.machine.InRange → Rig.Runs config start r →
        r.machine.InRange ∧ r.machine.registers.InRange) := by
  refine ⟨?_, ?_⟩
  · intro m devices wf ran
    rcases Machine.step_cases config m devices none with
      ⟨-, e⟩ | ⟨-, -, e⟩ | ⟨-, -, -, e⟩ | ⟨k, i, -, first, e⟩
    -- a step that runs nothing has another outcome
    · rw [Machine.execute, e] at ran; simp at ran
    · rw [Machine.execute, e] at ran; simp at ran
    · rw [Machine.execute, e] at ran; simp at ran
    · have settled := Machine.runInstruction_settled calls wf.homeCard config devices k i none
      rw [← e] at settled
      exact ⟨settled.inRange, settled.wellFormed.registers, k, i,
        Machine.exactStep_of_firstEligible calls wf first e⟩
  · intro offers start r wf inRange run
    have settled := run.settled calls offers ⟨wf, inRange⟩
    exact ⟨settled.inRange, settled.wellFormed.registers⟩

/-- Both pointers of this machine are astray. Its one instruction calls a timer, which will wait. -/
def strayCaller : Machine :=
  { ip := .narrow 200
    card := .narrow 9
    registers := { a := -999, d := 5 }
    program := ⟨[[⟨.phl, .literal 0, none⟩], []]⟩ }

/-- A timer in the first slot. -/
def oneTimer : Bank Timer := (({} : Bank Timer).install 0 {}).1

/-- A stray machine calls a timer and is in range; once in range, it stays there when the body and the
timer take their ticks. -/
theorem timer_execute_and_runs_inRange :
    ((strayCaller.execute {} oneTimer).machine.InRange ∧
      (strayCaller.execute {} oneTimer).machine.registers.InRange ∧
      ∃ k i, strayCaller.ExactStep {} oneTimer k i) ∧
    let start : Rig PlanarChassis (Bank Timer) :=
      ⟨(strayCaller.execute {} oneTimer).machine, {}, oneTimer⟩
    ((start.drive {}).tick {}).machine.InRange ∧
      ((start.drive {}).tick {}).machine.registers.InRange := by
  have wf : strayCaller.WellFormed := ⟨by intro r; cases r <;> decide, by decide⟩
  have step := (execute_and_runs_inRange (κ := PlanarChassis) {} Timer.callsEdit).1
    strayCaller oneTimer wf (.inl ⟨.phl, rfl⟩)
  have wf' : (strayCaller.execute {} oneTimer).machine.WellFormed := ⟨step.2.1, by decide⟩
  exact ⟨step, (execute_and_runs_inRange {} Timer.callsEdit).2 Timer.offersKeepRange _ _ wf' step.1
    (.tick (.drive .start))⟩

end CardMachine
