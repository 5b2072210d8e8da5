import CardMachine.Proofs.Listening

/-!
# Exchanging the peripherals

A machine knows its peripherals only by what the slots in reach answer. If a map `f` from one provider to
another keeps those answers (`Provider.Respects`), then it takes everything that the first provider leaves
to what the second one leaves: every turn and every run is the same on both sides, up to `f`. The lemmas go
up from the call of a peripheral to a course of requests (`serveAll_map`).
-/

namespace CardMachine

variable {κ β γ ω : Type}

/-- The same reply, with another device left. -/
def Reply.mapDevice (f : β → γ) (reply : Reply β) : Reply γ :=
  ⟨reply.answer, f reply.device, reply.machine⟩

/-- The same turn, with other devices left. -/
def Turn.mapDevices (f : β → γ) (turn : Turn ω β) : Turn ω γ :=
  ⟨turn.outcome, turn.machine, f turn.devices, turn.log⟩

/-- The same turn of machine and body, with other devices left. -/
def DriveTurn.mapDevices (f : β → γ) (turn : DriveTurn κ β) : DriveTurn κ γ :=
  ⟨turn.outcome, turn.machine, turn.body, f turn.devices, turn.log⟩

/-- The same run, with other devices left. -/
def Run.mapDevices (f : β → γ) (run : Run β) : Run γ :=
  ⟨run.ticks, run.last, run.boundaryReached, run.machine, f run.devices⟩

namespace Rig

/-- The same machine and body, with other devices. -/
def mapDevices (f : β → γ) (r : Rig κ β) : Rig κ γ := ⟨r.machine, r.body, f r.devices⟩

/-- The same answer, with other devices left. -/
def Served.mapDevices (f : β → γ) (served : Served κ β) : Served κ γ :=
  ⟨served.answer, served.log, served.rig.mapDevices f⟩

/-- The same answers and events, with other devices left. -/
def Course.mapDevices (f : β → γ) (course : Course κ β) : Course κ γ :=
  ⟨course.answers, course.events, course.rig.mapDevices f⟩

end Rig

/-- A tick announces a change of mode whatever the devices are. -/
lemma Turn.announce_mapDevices (before : ModeId) (f : β → γ) (turn : Turn ω β) :
    (turn.mapDevices f).announce before = (turn.announce before).mapDevices f := by
  rw [announce, announce, apply_ite (mapDevices f)]
  rfl

namespace Config

/-- A slot that is called is in reach. -/
lemma lt_slotCount_of_slot? {config : Config} {v : Int} {slot : Slot} (h : config.slot? v = some slot) :
    slot.val < config.slotCount := by
  rw [slot?] at h
  split at h
  case isTrue hv =>
    cases h
    dsimp only
    omega
  case isFalse => cases h

/-- The slots in reach are those below the number of slots in use, from the first one up. -/
lemma reach_eq_filter (config : Config) :
    config.reach = (List.finRange slotLimit).filter (·.val < config.slotCount) := by
  have take_eq_filter : ∀ count ≤ slotLimit,
      (List.finRange slotLimit).take count = (List.finRange slotLimit).filter (·.val < count) := by
    decide
  exact take_eq_filter config.slotCount (Nat.min_le_right _ _)

/-- In reach are the slots below the number of slots in use. -/
lemma mem_reach_iff {config : Config} {slot : Slot} :
    slot ∈ config.reach ↔ slot.val < config.slotCount := by
  simp only [reach_eq_filter, List.mem_filter, List.mem_finRange, true_and, decide_eq_true_eq]

end Config

variable [Chassis κ] [Provider β] [Provider γ]

/-- In the slots in reach, calls and offers on the two sides of `f` have the same answers and leave the
same machine, and devices that are again on the two sides of `f`. -/
structure Provider.Respects (config : Config) (f : β → γ) : Prop where
  call (devices : β) (slot : Slot) (m : Machine) (h : slot.val < config.slotCount) :
    Provider.call? (f devices) slot m = (Provider.call? devices slot m).map (.mapDevice f)
  offer (devices : β) (slot : Slot) (m : Machine) (h : slot.val < config.slotCount) :
    Provider.offer? (f devices) slot m = (Provider.offer? devices slot m).map (.mapDevice f)

section

variable {config : Config} {f : β → γ} (hf : Provider.Respects config f)
include hf

namespace Machine

/-- A call has the same answer on both sides. -/
lemma callSlot_map (m : Machine) (devices : β) (v : Word) :
    m.callSlot config (f devices) v = (m.callSlot config devices v).mapDevice f := by
  rw [callSlot, callSlot]
  cases hslot : config.slot? v.toInt with
  | none => rfl
  | some slot =>
    dsimp only
    rw [hf.call devices slot m (Config.lt_slotCount_of_slot? hslot)]
    cases Provider.call? devices slot m <;> rfl

lemma runInstruction_map (m : Machine) (devices : β) (k : Nat) (i : Instruction) (log : Log) :
    m.runInstruction config (f devices) k i log =
      (m.runInstruction config devices k i log).mapDevices f := by
  have hcall (p : Pending) : m.makeCall config (f devices) p =
      ((m.makeCall config devices p).1, (m.makeCall config devices p).2.1,
        f (m.makeCall config devices p).2.2) := by
    rw [makeCall, makeCall]
    cases p.slot with
    | none => rfl
    | some v => dsimp only; rw [callSlot_map hf]; rfl
  rw [runInstruction, runInstruction, hcall]
  dsimp only
  split <;> rfl

/-- A step goes the same on both sides. -/
lemma step_map (m : Machine) (devices : β) (log : Log) :
    m.step config (f devices) log = (m.step config devices log).mapDevices f := by
  rw [step, step]
  split
  · rfl
  dsimp only
  cases m.homeCard.currentCard.select m.homeCard.ip m.homeCard.registers.c with
  | emptyCard => rfl
  | noneEligible => rfl
  | selected k i => exact runInstruction_map hf m.homeCard devices k i log

/-- An offer to slots in reach is taken on both sides or on neither. -/
lemma offerTo_map (slots : List Slot) (visible : ∀ slot ∈ slots, slot.val < config.slotCount)
    (m : Machine) (devices : β) :
    m.offerTo (f devices) slots =
      ((m.offerTo devices slots).1, (m.offerTo devices slots).2.1, f (m.offerTo devices slots).2.2) := by
  induction slots generalizing m devices with
  | nil => rfl
  | cons slot rest ih =>
    have ih := ih fun slot' h => visible slot' (List.mem_cons_of_mem slot h)
    rw [offerTo, offerTo, hf.offer devices slot m (visible slot List.mem_cons_self)]
    cases Provider.offer? devices slot m with
    | none => exact ih m devices
    | some reply =>
      dsimp only [Option.map_some, Reply.mapDevice]
      split
      · rfl
      · exact ih reply.machine reply.device

lemma offerMode_map (m : Machine) (devices : β) (log : Log) :
    m.offerMode config (f devices) log = (m.offerMode config devices log).mapDevices f := by
  rw [offerMode, offerMode, offerTo_map hf config.reach fun _ => Config.mem_reach_iff.1]
  obtain ⟨claimed, m', devices'⟩ := m.offerTo devices config.reach
  cases claimed <;> rfl

lemma tickWith_map (m : Machine) (devices : β) (log : Log) :
    m.tickWith config (f devices) log = (m.tickWith config devices log).mapDevices f := by
  rw [tickWith_eq, tickWith_eq, ← Turn.announce_mapDevices, ownTurn, ownTurn]
  split
  · rw [step_map hf]
    rfl
  · rw [offerMode_map hf]

lemma drive_map (m : Machine) (body : κ) (devices : β) :
    m.drive config body (f devices) = (m.drive config body devices).mapDevices f := by
  rw [drive, drive]
  dsimp only
  cases m.canonicalize.driveBody? body with
  | some taken => rfl
  | none => dsimp only; rw [tick, tickWith_map hf]; rfl

lemma driveTraced_map (m : Machine) (body : κ) (devices : β) :
    m.driveTraced config body (f devices) = (m.driveTraced config body devices).mapDevices f := by
  rw [driveTraced, driveTraced]
  dsimp only
  cases m.canonicalize.driveBody? body with
  | some taken => rfl
  | none => dsimp only; rw [tickTraced, tickWith_map hf]; rfl

lemma continueUntil_map (boundary : Boundary) (m : Machine) (devices : β) (ticks : Nat)
    (last : Option TickOutcome) (fuel : Nat) :
    m.continueUntil config boundary (f devices) ticks last fuel =
      (m.continueUntil config boundary devices ticks last fuel).mapDevices f := by
  induction fuel generalizing m devices ticks last with
  | zero => rfl
  | succ fuel ih =>
    have htick : m.tick config (f devices) = (m.tick config devices).mapDevices f :=
      tickWith_map hf m devices none
    -- a boundary is reached whatever the devices are
    have hreached : boundary.isReached m ((m.tick config devices).mapDevices f) =
        boundary.isReached m (m.tick config devices) := rfl
    rw [continueUntil, continueUntil, htick, hreached]
    split
    · rfl
    · exact ih _ _ _ _

end Machine

namespace Rig

/-- A request is answered in the same way on both sides. -/
lemma serve_map (r : Rig κ β) (request : Request) :
    (r.mapDevices f).serve config request = (r.serve config request).mapDevices f := by
  cases request with
  | execute =>
    exact congrArg (Served.ofTurn .step r.body) (Machine.step_map hf r.machine r.devices none)
  | tick =>
    exact congrArg (Served.ofTurn .tick r.body) (Machine.tickWith_map hf r.machine r.devices none)
  | tickTraced =>
    exact congrArg (Served.ofTurn .tick r.body) (Machine.tickWith_map hf r.machine r.devices config.log)
  | drive => exact congrArg Served.ofDriveTurn (Machine.drive_map hf r.machine r.body r.devices)
  | driveTraced =>
    exact congrArg Served.ofDriveTurn (Machine.driveTraced_map hf r.machine r.body r.devices)
  | runUntil boundary limit =>
    exact congrArg (Served.ofRun r.body)
      (Machine.continueUntil_map hf boundary r.machine r.devices 0 none limit)

/-- Requests are answered in the same way on both sides. -/
lemma serveAll_map (r : Rig κ β) (requests : List Request) :
    (r.mapDevices f).serveAll config requests = (r.serveAll config requests).mapDevices f := by
  induction requests generalizing r with
  | nil => rfl
  | cons request rest ih =>
    rw [serveAll, serveAll, serve_map hf]
    dsimp only [Served.mapDevices]
    rw [ih]
    rfl

end Rig

end

end CardMachine
