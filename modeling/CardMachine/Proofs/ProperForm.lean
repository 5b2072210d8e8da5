import CardMachine.Proofs.Range
import CardMachine.Proofs.Snapshot.Load

/-!
# Modes stay in their proper form

One mode can be held in two ways if its name is one of the machine's own. `Mode.canonical` keeps the
name and leaves one of the two, so a mode is in its proper form exactly if no reserved name is held with
data (`isProper_iff`).

A tick starts with the proper form, and nothing in it leads out again: an instruction enters a mode
through `Mode.canonical` (`commit_isProper`), whoever goes on with a mode keeps its name, and only the
data change (`isProper_other_iff`). This is asked of the peripherals (`Provider.KeepsProper`), and timers
do so. Every other way to a mode makes the proper form by itself, so one operation is enough, whatever
the machine was before (`ModeOperation.run_isProper`).
-/

namespace CardMachine

namespace Mode

/-- The mode is in its proper form. -/
def IsProper (mode : Mode) : Prop := mode.canonical = mode

/-- The proper form of a mode is proper. -/
lemma isProper_canonical (mode : Mode) : mode.canonical.IsProper := canonical_canonical mode

/-- A proper form is a name with data exactly if the name is none of the machine's own. -/
lemma canonical_eq_other_iff (mode : Mode) :
    (∃ name data, mode.canonical = .other name data) ↔ mode.id ∉ reserved := by
  constructor
  · rintro ⟨name, data, h⟩ hreserved
    -- each of the four names makes one of the machine's own modes
    rw [← ofParts_id_data] at h
    rcases List.mem_cons.1 hreserved with e | hreserved
    · rw [e] at h; cases h
    rcases List.mem_cons.1 hreserved with e | hreserved
    · rw [e] at h; cases h
    rcases List.mem_cons.1 hreserved with e | hreserved
    · rw [e] at h; cases h
    · rw [List.mem_singleton.1 hreserved] at h; cases h
  · intro h
    obtain ⟨hother, hcanonical⟩ := eq_other_of_not_reserved mode h
    exact ⟨mode.id, mode.data, hcanonical.trans hother⟩

/-- A mode of another kind is proper exactly if its identifier is not reserved. -/
lemma isProper_other_iff {name : ModeId} {data : ModeData} :
    (other name data).IsProper ↔ name ∉ reserved := by
  constructor
  · intro h
    exact (canonical_eq_other_iff _).1 ⟨name, data, h⟩
  · intro h
    exact (eq_other_of_not_reserved (.other name data) h).2

/-- A mode is in its proper form exactly if it holds no name of the machine's own with data. -/
lemma isProper_iff {mode : Mode} :
    mode.IsProper ↔ ∀ name data, mode = .other name data → name ∉ reserved := by
  cases mode with
  | other name data =>
    rw [isProper_other_iff]
    constructor
    · rintro h _ _ ⟨⟩
      exact h
    · intro h
      exact h name data rfl
  | _ => exact ⟨fun _ _ _ h => (by cases h), fun _ => rfl⟩

end Mode

/-- Whoever is called, or takes a mode, leaves a mode in its proper form if it finds one. -/
structure Provider.KeepsProper (β : Type) [Provider β] : Prop where
  call {devices : β} {slot : Slot} {m : Machine} {reply : Reply β}
    (h : Provider.call? devices slot m = some reply) (proper : m.mode.IsProper) :
    reply.machine.mode.IsProper
  offer {devices : β} {slot : Slot} {m : Machine} {reply : Reply β}
    (h : Provider.offer? devices slot m = some reply) (proper : m.mode.IsProper) :
    reply.machine.mode.IsProper

/-- A bank keeps the proper form if its peripherals do. -/
lemma Bank.keepsProper {π : Type} [Peripheral π]
    (call : ∀ (p : π) (m : Machine), m.mode.IsProper → (Peripheral.call p m).machine.mode.IsProper)
    (offer : ∀ (p : π) (m : Machine), m.mode.IsProper → (Peripheral.offer p m).machine.mode.IsProper) :
    Provider.KeepsProper (Bank π) := by
  constructor
  case call =>
    intro bank slot m reply h proper
    obtain ⟨p, e⟩ := use_machine h
    exact e ▸ call p m proper
  case offer =>
    intro bank slot m reply h proper
    obtain ⟨p, e⟩ := use_machine h
    exact e ▸ offer p m proper

namespace Timer

/-- A timer that is called leaves a proper mode. -/
lemma call_isProper (t : Timer) (m : Machine) (proper : m.mode.IsProper) :
    (t.call m).machine.mode.IsProper := by
  rw [call]
  dsimp only
  split
  · exact Mode.isProper_canonical (.other (.own waitPath) _)
  · exact proper

/-- A wait that goes on keeps its name. -/
lemma offer_isProper (t : Timer) (m : Machine) (proper : m.mode.IsProper) :
    (t.offer m).machine.mode.IsProper := by
  rw [offer]
  split
  · next name data e =>
    rw [e, Mode.isProper_other_iff] at proper
    split
    · dsimp only
      split
      · rfl
      · exact Mode.isProper_other_iff.2 proper
    · rwa [e, Mode.isProper_other_iff]
  · exact proper

/-- Timers keep modes proper. -/
lemma keepsProper : Provider.KeepsProper (Bank Timer) := Bank.keepsProper call_isProper offer_isProper

end Timer

namespace Machine

variable {κ β : Type} [Chassis κ] [Provider β]

/-- What is done to a machine enters no mode but in its proper form. -/
lemma commit_isProper {m : Machine} (proper : m.mode.IsProper) (p : Pending) :
    (m.commit p).mode.IsProper := by
  rw [commit_mode]
  split
  · cases p.mode with
    | none => exact proper
    | some mode => exact Mode.isProper_canonical mode
  · exact proper

/-- An instruction that calls a peripheral leaves a proper mode. -/
lemma makeCall_isProper (keeps : Provider.KeepsProper β) {m : Machine} (proper : m.mode.IsProper)
    (config : Config) (devices : β) (p : Pending) :
    (m.makeCall config devices p).2.1.mode.IsProper := by
  rw [makeCall]
  split
  · exact proper
  · dsimp only
    rw [callSlot]
    split
    · exact proper
    · next slot _ =>
      cases hcall : Provider.call? devices slot { m with ip := p.position } with
      | none => exact proper
      | some reply => exact keeps.call hcall proper

/-- A step leaves a proper mode. -/
lemma step_isProper (keeps : Provider.KeepsProper β) {m : Machine} (proper : m.mode.IsProper)
    (config : Config) (devices : β) (log : Log) :
    (m.step config devices log).machine.mode.IsProper := by
  have home : m.homeCard.mode.IsProper := (homeCard_mode m).symm ▸ proper
  rcases step_cases config m devices log with ⟨-, e⟩ | ⟨-, -, e⟩ | ⟨-, -, -, e⟩ | ⟨k, i, -, -, e⟩
  · rw [e]; exact proper
  · rw [e]; exact home
  · rw [e]; exact home
  · rw [e, runInstruction_machine]
    exact commit_isProper (makeCall_isProper keeps home config devices _) _

/-- A mode stays proper while it goes round. -/
lemma offerTo_isProper (keeps : Provider.KeepsProper β) (slots : List Slot) {m : Machine}
    (proper : m.mode.IsProper) (devices : β) : (m.offerTo devices slots).2.1.mode.IsProper := by
  induction slots generalizing m devices with
  | nil => exact proper
  | cons slot rest ih =>
    rw [offerTo]
    cases hoffer : Provider.offer? devices slot m with
    | none => exact ih proper devices
    | some reply =>
      have proper' := keeps.offer hoffer proper
      dsimp only
      split
      · exact proper'
      · exact ih proper' reply.device

/-- A tick leaves a mode in its proper form, in whatever form it found it. -/
lemma tick_isProper (keeps : Provider.KeepsProper β) (config : Config) (m : Machine) (devices : β) :
    (m.tick config devices).machine.mode.IsProper := by
  have proper : m.canonicalize.mode.IsProper := Mode.isProper_canonical m.mode
  rcases tick_cases config m devices with ⟨-, e, -⟩ | ⟨-, e, -⟩
  · rw [e]; exact step_isProper keeps proper config devices none
  · rw [e]; exact offerTo_isProper keeps config.reach proper devices

/-- What the body goes on with keeps its name. -/
lemma driveBody?_isProper {m m' : Machine} {body body' : κ} {outcome : DriveOutcome}
    (h : m.driveBody? body = some (outcome, m', body')) (proper : m.mode.IsProper) :
    m'.mode.IsProper := by
  rcases driveBody?_cases h with ⟨_, mode, -, rfl, -⟩ | ⟨_, mode, -, rfl, -⟩ | ⟨-, rfl, -⟩ |
    ⟨-, rfl, -⟩ | ⟨name, data, _, -, hmode, rfl, -⟩
  · exact Mode.isProper_canonical mode
  · exact Mode.isProper_canonical mode
  · exact proper
  · exact proper
  · rw [hmode, Mode.isProper_other_iff] at proper
    exact Mode.isProper_other_iff.2 proper

/-- A driven tick does so too. -/
lemma drive_isProper (keeps : Provider.KeepsProper β) (config : Config) (m : Machine) (body : κ)
    (devices : β) : (m.drive config body devices).machine.mode.IsProper := by
  rw [drive]
  dsimp only
  cases hbody : m.canonicalize.driveBody? body with
  | none => exact tick_isProper keeps config m.canonicalize devices
  | some taken => exact driveBody?_isProper hbody (Mode.isProper_canonical m.mode)

end Machine

/-- What can become of the mode of a machine with a body and timers: the host enters a mode, puts it into
its proper form, gives the machine its tick back, resets it or loads it from a document, or there is a
tick, driven or not. -/
inductive ModeOperation
  | setMode (mode : Mode)
  | canonicalize
  | resume
  | reset
  | decode (doc : Json)
  | tick (config : Config)
  | drive (config : Config)

namespace ModeOperation

variable {κ : Type} [Chassis κ]

/-- Does an operation. -/
def run (r : Rig κ (Bank Timer)) : ModeOperation → Rig κ (Bank Timer)
  | .setMode mode => { r with machine := r.machine.setMode mode }
  | .canonicalize => { r with machine := r.machine.canonicalize }
  | .resume => { r with machine := r.machine.resume }
  | .reset => { r with machine := r.machine.reset }
  | .decode doc => { r with machine := (Snapshot.decode doc).value }
  | .tick config => r.tick config
  | .drive config => r.drive config

/-- Does operations one after the other. -/
def runAll (operations : List ModeOperation) (r : Rig κ (Bank Timer)) : Rig κ (Bank Timer) :=
  operations.foldl run r

end ModeOperation

/-- A loaded mode is in its proper form, whatever the document. -/
lemma Snapshot.decode_isProper (doc : Json) : (decode doc).value.mode.IsProper := by
  rw [decode]
  cases doc.object? with
  | none => rfl
  | some fields => exact decodeFields_canonical fields

namespace ModeOperation

variable {κ : Type} [Chassis κ]

/-- Every operation leaves a mode in its proper form, whatever it was before. -/
lemma run_isProper (r : Rig κ (Bank Timer)) (operation : ModeOperation) :
    (operation.run r).machine.mode.IsProper := by
  cases operation with
  | setMode mode => exact Mode.isProper_canonical mode
  | canonicalize => exact Mode.isProper_canonical r.machine.mode
  | resume => rfl
  | reset => rfl
  | decode doc => exact Snapshot.decode_isProper doc
  | tick config => exact Machine.tick_isProper Timer.keepsProper config r.machine r.devices
  | drive config => exact Machine.drive_isProper Timer.keepsProper config r.machine r.body r.devices

/-- The last of some operations decides. -/
lemma runAll_isProper (r : Rig κ (Bank Timer)) {operations : List ModeOperation}
    (h : operations ≠ []) : (runAll operations r).machine.mode.IsProper := by
  obtain ⟨earlier, last, rfl⟩ := (List.eq_nil_or_concat operations).resolve_left h
  rw [runAll, List.concat_eq_append, List.foldl_concat]
  exact run_isProper _ last

end ModeOperation

/-- The proper form of a mode is what its name and data make. It has the same name and is its own proper
form, it is the executing mode exactly under that name, and it is a name with data exactly if the name
is none of the four reserved ones. After any operations on a machine, at least one, its mode is in its
proper form, whatever it was before, so that no reserved name is held with data. -/
theorem proper_form_is_a_retract_and_lasts {κ : Type} [Chassis κ] :
    (∀ mode : Mode,
      mode.canonical = .ofParts mode.id mode.data ∧ mode.canonical.id = mode.id ∧
      mode.canonical.canonical = mode.canonical ∧
      (mode.canonical = .executing ↔ mode.id = .own Mode.executingPath) ∧
      ((∃ name data, mode.canonical = .other name data) ↔ mode.id ∉ Mode.reserved)) ∧
    ∀ (r : Rig κ (Bank Timer)) (operations : List ModeOperation), operations ≠ [] →
      let mode := (ModeOperation.runAll operations r).machine.mode
      mode.canonical = mode ∧ ∀ name data, mode = .other name data → name ∉ Mode.reserved := by
  refine ⟨fun mode => ⟨(mode.ofParts_id_data).symm, mode.id_canonical, mode.canonical_canonical, ?_,
    mode.canonical_eq_other_iff⟩, fun r operations h => ?_⟩
  · rw [← Mode.canonical_isExecuting_iff]
    cases mode.canonical <;> simp [Mode.isExecuting]
  · have proper := ModeOperation.runAll_isProper r h
    exact ⟨proper, Mode.isProper_iff.1 proper⟩

/-- A request to move, held with its data and something else. Its distance is a text. -/
def wordyRequest : Mode :=
  .other (.own Mode.moveStartPath)
    ((ModeData.empty.insert Mode.distanceKey (.text "five")).insert "extra" (.int 1))

/-- `wordyRequest` asks for a move of zero in its proper form, and this is what a tick makes of it; a
driven tick after that takes it up. -/
theorem wordyRequest_is_put_right :
    let rig : Rig PlanarChassis (Bank Timer) := ⟨{ mode := wordyRequest }, {}, oneTimer⟩
    let mode := (ModeOperation.runAll [.tick {}, .drive {}] rig).machine.mode
    wordyRequest.canonical = .moveStart 0 ∧ wordyRequest.canonical.id = wordyRequest.id ∧
      ¬ (∃ name data, wordyRequest.canonical = .other name data) ∧
      (ModeOperation.runAll [.tick {}] rig).machine.mode = .moveStart 0 ∧
      mode.id = .own Drive.movingPath ∧ mode.canonical = mode ∧
      ∀ name data, mode = .other name data → name ∉ Mode.reserved := by
  intro rig mode
  obtain ⟨-, hid, -, -, hother⟩ :=
    (proper_form_is_a_retract_and_lasts (κ := PlanarChassis)).1 wordyRequest
  obtain ⟨hproper, hname⟩ :=
    proper_form_is_a_retract_and_lasts.2 rig [.tick {}, .drive {}] (List.cons_ne_nil _ _)
  refine ⟨rfl, hid, fun h => hother.1 h ?_, rfl, rfl, hproper, hname⟩
  exact List.mem_cons_of_mem _ List.mem_cons_self

end CardMachine
