import CardMachine.Proofs.Ownership
import CardMachine.Proofs.Selected

/-!
# How long a sleep lasts

A body that sleeps counts its time down, one each driven tick, and wakes the machine in the tick that
finds none left. So a sleep of `n` ticks takes `n` ticks that go on with it and one that ends it
(`SleepsFor`), and a request to sleep takes one more tick to be taken up (`serve_of_sleepStart`). All
along nothing changes but the mode.

An instruction that asks for a sleep leaves the request in the mode (`exists_of_slept`), so the count from
that instruction to the next one follows.
-/

namespace CardMachine

open Drive

variable {κ β : Type} [Chassis κ] [Provider β] {config : Config}

namespace Machine

/-- An instruction runs in a driven tick only while the machine executes. -/
lemma id_of_drive_executed {m : Machine} {body : κ} {devices : β} {outcome : StepOutcome}
    (h : (m.drive config body devices).outcome = .core (.executed outcome)) :
    m.mode.id = .own Mode.executingPath := by
  refine Decidable.byContradiction fun hid => ?_
  have hexec : ¬ m.canonicalize.mode.isExecuting = true :=
    fun hexec => hid ((Mode.canonical_isExecuting_iff m.mode).1 hexec)
  rw [drive] at h
  dsimp only at h
  cases hbody : m.canonicalize.driveBody? body with
  | none =>
    rw [hbody, tick_eq, canonicalize_canonicalize, ownTurn, if_neg hexec, offerMode] at h
    generalize m.canonicalize.offerTo devices config.reach = offered at h
    obtain ⟨claimed, m', devices'⟩ := offered
    cases claimed <;> cases h
  | some taken =>
    obtain ⟨outcome', m', body'⟩ := taken
    rw [hbody] at h
    rcases driveBody?_cases hbody with ⟨_, _, rfl, -⟩ | ⟨_, _, rfl, -⟩ | ⟨rfl, -⟩ | ⟨rfl, -⟩ |
      ⟨_, _, _, rfl, -⟩ <;> cases h

/-- A tick of a sleep. -/
lemma drive_of_sleeping {m : Machine} (h : m.mode.id = .own sleepingPath) (config : Config) (body : κ)
    (devices : β) :
    m.drive config body devices =
      let time := m.mode.number Mode.timeKey
      if time.toInt ≤ 0 then ⟨.finished .sleeping, m.resume, body, devices, none⟩
      else
        ⟨.progressed .sleeping,
          { m with mode := .other m.mode.id (m.mode.data.insert Mode.timeKey (.int (time - 1))) },
          body, devices, none⟩ := by
  obtain ⟨hother, hcanonical⟩ := Mode.eq_other_of_not_reserved m.mode (by rw [h]; decide +kernel)
  obtain ⟨ip, card, registers, program, mode⟩ := m
  dsimp only at h hother hcanonical
  have hbody : driveBody? ⟨ip, card, registers, program, mode⟩ body =
      some (driveSleep ⟨ip, card, registers, program, mode⟩ mode.id mode.data body) := by
    rw [hother, h]
    rfl
  rw [drive, canonicalize, hcanonical]
  dsimp only
  rw [hbody, driveSleep, ← Mode.number]
  dsimp only
  split <;> rfl

end Machine

namespace Rig

/-- `q` is `r` asleep, with so many ticks of the sleep to come. Nothing but the mode is another. -/
def Asleep (r : Rig κ β) (n : Nat) (q : Rig κ β) : Prop :=
  ∃ mode, q = r.inMode mode ∧ mode.id = .own sleepingPath ∧
    (mode.number Mode.timeKey).toInt.toNat = n

/-- The body of `r` sleeps through `n` driven ticks and wakes the machine in the one after them. -/
structure SleepsFor (config : Config) (r : Rig κ β) (n : Nat) : Prop where
  answers : (r.serveAll config (.replicate (n + 1) .drive)).answers =
    .replicate n (.drive (.progressed .sleeping)) ++ [.drive (.finished .sleeping)]
  asleep : ∀ j ≤ n, r.Asleep (n - j) (r.serveAll config (.replicate j .drive)).rig
  awake : (r.serveAll config (.replicate (n + 1) .drive)).rig = r.inMode .executing
  emptied : (r.serveAll config (.replicate (n + 1) .drive)).rig.machine.mode.data = .empty

variable {r q : Rig κ β}

/-- A tick of a sleep leaves one tick less to come. -/
lemma serve_of_asleep (config : Config) {n : Nat} (h : r.Asleep (n + 1) q) :
    (q.serve config .drive).answer = .drive (.progressed .sleeping) ∧
      r.Asleep n (q.serve config .drive).rig := by
  obtain ⟨mode, rfl, hid, hn⟩ := h
  rw [serve, Machine.drive_of_sleeping hid]
  dsimp only [inMode]
  rw [if_neg (by omega)]
  refine ⟨rfl, _, rfl, hid, ?_⟩
  rw [Mode.number_insert, Mode.toInt_sub_one (by omega)]
  omega

/-- After its last tick a sleep ends, and the machine goes on. -/
lemma serve_of_slept (config : Config) (h : r.Asleep 0 q) :
    (q.serve config .drive).answer = .drive (.finished .sleeping) ∧
      (q.serve config .drive).rig = r.inMode .executing := by
  obtain ⟨mode, rfl, hid, hn⟩ := h
  rw [serve, Machine.drive_of_sleeping hid]
  dsimp only [inMode]
  rw [if_pos (by omega)]
  exact ⟨rfl, rfl⟩

/-- A body sleeps for as many ticks as its mode tells. -/
lemma sleepsFor (config : Config) (h : r.machine.mode.id = .own sleepingPath) :
    r.SleepsFor config (r.machine.mode.number Mode.timeKey).toInt.toNat := by
  generalize hn : (r.machine.mode.number Mode.timeKey).toInt.toNat = n
  have now : r.Asleep n r := ⟨r.machine.mode, rfl, h, hn⟩
  obtain ⟨hanswers, hasleep⟩ := serveAll_countdown r.Asleep (fun _ _ => serve_of_asleep config) now
  have hlast := hasleep n (Nat.le_refl n)
  rw [Nat.sub_self] at hlast
  obtain ⟨hfinished, hawake⟩ := serve_of_slept config hlast
  obtain ⟨hcourse, hrig⟩ := serveAll_replicate_succ config r n .drive
  rw [hanswers, hfinished] at hcourse
  rw [hawake] at hrig
  exact ⟨hcourse, hasleep, hrig, by rw [hrig]; rfl⟩

/-- A request to sleep is taken up in one tick, and the sleep is as long as was asked. -/
lemma serve_of_sleepStart (config : Config) {ticks : Word} (h : r.machine.mode.canonical = .sleepStart ticks) :
    let first := r.serve config .drive
    first.answer = .drive (.started .sleeping) ∧ r.Asleep ticks.toInt.toNat first.rig ∧
      first.rig.SleepsFor config ticks.toInt.toNat := by
  have hserve : r.serve config .drive = ⟨.drive (.started .sleeping), none, r.inMode
      (.other (.own sleepingPath)
        (ModeData.empty.insert Mode.timeKey (.int (Int64.ofInt ticks.toInt))))⟩ := by
    rw [serve, Machine.drive, Machine.canonicalize, h]
    rfl
  have lo := ticks.le_toInt
  have hi := ticks.toInt_lt
  have hasleep : r.Asleep ticks.toInt.toNat (r.serve config .drive).rig := by
    rw [hserve]
    refine ⟨_, rfl, rfl, ?_⟩
    rw [Mode.number_insert, Int64.toInt_ofInt_of_le (by omega) (by omega)]
  refine ⟨by rw [hserve], hasleep, ?_⟩
  obtain ⟨mode, hrig, hid, hn⟩ := hasleep
  rw [← hn, hrig]
  exact sleepsFor config hid

/-- From the request to the end of the sleep. -/
lemma serveAll_of_sleepStart (config : Config) {ticks : Word} (h : r.machine.mode.canonical = .sleepStart ticks) :
    let n := ticks.toInt.toNat
    let course := r.serveAll config (.replicate (n + 2) .drive)
    course.answers = .drive (.started .sleeping) :: .replicate n (.drive (.progressed .sleeping)) ++
      [.drive (.finished .sleeping)] ∧ course.rig = r.inMode .executing := by
  obtain ⟨hanswer, ⟨mode, hrig, -⟩, hsleeps⟩ := serve_of_sleepStart config h
  dsimp only
  rw [List.replicate_succ, serveAll]
  dsimp only
  rw [hanswer, hsleeps.answers, hsleeps.awake, hrig]
  exact ⟨rfl, rfl⟩

/-- Awake, the machine runs an instruction in the next tick. -/
lemma exists_serve_of_executing (h : r.machine.mode.id = .own Mode.executingPath) :
    ∃ outcome, (r.serve config .drive).answer = .drive (.core (.executed outcome)) := by
  rw [serve, Machine.drive_eq_of_executing h]
  exact ⟨_, rfl⟩

/-- An instruction that retired as a request to sleep leaves that request in the mode. -/
lemma exists_of_slept (h : (r.serve config .drive).answer = .drive (.core (.executed (.retired .slp)))) :
    ∃ k i, r.machine.Selects k i ∧ i.opcode = .slp ∧
      (r.serve config .drive).rig.machine.mode =
        .sleepStart (i.argument.resolve r.machine.registers) := by
  have houtcome : (r.machine.drive config r.body r.devices).outcome =
      .core (.executed (.retired .slp)) := Answer.drive.inj h
  have hid := Machine.id_of_drive_executed houtcome
  rw [Machine.drive_eq_of_executing hid] at houtcome
  obtain ⟨k, i, selects, hop⟩ := Machine.exists_selects_of_retired
    (TickOutcome.executed.inj (DriveOutcome.core.inj houtcome))
  refine ⟨k, i, Machine.selects_canonicalize_iff.1 selects, hop, ?_⟩
  have hmode := Semantics.commit_mode_eq r.machine.canonicalize.homeCard i (.narrow k)
  rw [Machine.homeCard_registers, hop] at hmode
  rw [serve, Machine.drive_eq_of_executing hid,
    Machine.execute_of_selects selects (by rw [hop]; nofun)]
  exact hmode

end Rig

/-- A sleep lasts as long as asked. A body that has `t` ticks to sleep goes on sleeping for `t` driven
ticks, none if `t` is negative, and wakes the machine in the next; a request to sleep takes one tick more
to be taken up. Nothing but the mode changes meanwhile. So between an instruction that asks for a sleep
of `n` ticks and the next one there are two ticks more than that. -/
theorem sleep_lasts_as_long_as_asked (config : Config) (r : Rig κ β) :
    (r.machine.mode.id = .own sleepingPath →
      r.SleepsFor config ((r.machine.mode.data.int? Mode.timeKey).getD 0).toInt.toNat) ∧
    (∀ ticks : Word, r.machine.mode.canonical = .sleepStart ticks →
      let first := r.serve config .drive
      first.answer = .drive (.started .sleeping) ∧ r.Asleep ticks.toInt.toNat first.rig ∧
        first.rig.SleepsFor config ticks.toInt.toNat) ∧
    ((r.serve config .drive).answer = .drive (.core (.executed (.retired .slp))) →
      ∃ k i, r.machine.Selects k i ∧ i.opcode = .slp ∧
        let n := (Semantics.argument (fun s => (r.machine.registers.get s).toInt) i.argument).toNat
        let after := (r.serve config .drive).rig
        let course := after.serveAll config (.replicate (n + 2) .drive)
        course.answers = .drive (.started .sleeping) :: .replicate n (.drive (.progressed .sleeping)) ++
          [.drive (.finished .sleeping)] ∧
        course.rig = after.inMode .executing ∧
        ∃ outcome, (course.rig.serve config .drive).answer = .drive (.core (.executed outcome))) := by
  refine ⟨Rig.sleepsFor config, fun _ => Rig.serve_of_sleepStart config, ?_⟩
  intro h
  obtain ⟨k, i, selects, hop, hmode⟩ := Rig.exists_of_slept h
  obtain ⟨hanswers, hawake⟩ := Rig.serveAll_of_sleepStart config
    (r := (r.serve config .drive).rig) (by rw [hmode]; rfl)
  rw [Semantics.toInt_resolve] at hanswers hawake
  refine ⟨k, i, selects, hop, hanswers, hawake, ?_⟩
  rw [hawake]
  exact Rig.exists_serve_of_executing rfl

/-- Asks for a sleep of as many ticks as `B` says, which is two. -/
def napper : Machine :=
  { registers := { b := 2 }
    program := ⟨[[⟨.slp, .register .b, none⟩]]⟩
    mode := .other (.own Mode.executingPath) .empty }

/-- A nap of two ticks is over after four. A sleep that was loaded with its time goes on for as long, and a
request for a negative time is taken up and ends at once. -/
theorem napper_sleeps_as_long_as_asked :
    let rig : Rig PlanarChassis (Bank Timer) := ⟨napper, {}, oneTimer⟩
    let loaded : Mode := .other (.own sleepingPath) (ModeData.empty.insert Mode.timeKey (.int 3))
    let nap := (rig.serve {} .drive).rig.serveAll {} (.replicate 4 .drive)
    (rig.inMode loaded).SleepsFor {} 3 ∧
      (rig.inMode (.sleepStart (-5))).machine.mode.canonical = .sleepStart (-5) ∧
      ((rig.inMode (.sleepStart (-5))).serve {} .drive).rig.SleepsFor {} 0 ∧
      (rig.serve {} .drive).answer = .drive (.core (.executed (.retired .slp))) ∧
      nap.answers = [.drive (.started .sleeping), .drive (.progressed .sleeping),
        .drive (.progressed .sleeping), .drive (.finished .sleeping)] ∧
      nap.rig.machine.mode = .executing := by
  intro rig loaded nap
  have retired : (rig.serve {} .drive).answer = .drive (.core (.executed (.retired .slp))) := rfl
  have selects : napper.Selects 0 ⟨.slp, .register .b, none⟩ :=
    Card.select_eq_selected_iff.1 (by decide)
  obtain ⟨k, i, selects', -, hanswers, hawake, -⟩ :=
    (sleep_lasts_as_long_as_asked {} rig).2.2 retired
  obtain ⟨rfl, rfl⟩ := selects.unique selects'
  refine ⟨?_, rfl, ?_, retired, hanswers, congrArg (·.machine.mode) hawake⟩
  · exact (sleep_lasts_as_long_as_asked {} (rig.inMode loaded)).1 rfl
  · exact ((sleep_lasts_as_long_as_asked {} (rig.inMode (.sleepStart (-5)))).2.1 (-5) rfl).2.2

end CardMachine
