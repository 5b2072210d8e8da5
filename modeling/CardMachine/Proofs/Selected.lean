import CardMachine.Proofs.Semantics

/-!
# The instruction that a step comes to

`Machine.Selects` names the instruction that a step runs, pointers astray included. Unless it is a call,
peripherals have no part in the step: it commits what the instruction wants done and leaves the
peripherals alone (`execute_of_selects`). The registers that come of it are the ones the opcode means
(`toInt_register_of_selects`).
-/

namespace CardMachine.Machine

variable {β : Type} [Provider β]

/-- A step of `m` comes to the instruction `i`, which stands at `k` on the card that is scanned. -/
def Selects (m : Machine) (k : Nat) (i : Instruction) : Prop :=
  Card.FirstEligible m.homeCard.currentCard m.ip m.registers.c k i

variable {m : Machine} {k : Nat} {i : Instruction}

/-- Where an instruction is found, there is a program. -/
lemma Selects.isEmpty_eq_false (h : m.Selects k i) : m.program.isEmpty = false := by
  rw [← Bool.not_eq_true]
  intro hempty
  have hcard : m.homeCard.currentCard = [] := by
    rw [currentCard, homeCard_program, Program.card, List.isEmpty_iff.1 hempty]
    rfl
  have hlt := h.lt
  rw [hcard] at hlt
  cases hlt

/-- A step runs the instruction that the machine selects. -/
lemma step_of_selects (h : m.Selects k i) (config : Config) (devices : β) (log : Log) :
    m.step config devices log = m.homeCard.runInstruction config devices k i log := by
  rw [step, if_neg (by simp [h.isEmpty_eq_false])]
  dsimp only
  rw [homeCard_ip, homeCard_registers, Card.select_eq_selected_iff.2 h]

/-- The form of the mode has no part in the choice. -/
lemma selects_canonicalize_iff : m.canonicalize.Selects k i ↔ m.Selects k i := by
  rw [Selects, Selects, homeCard_eq, homeCard_eq]
  rfl

/-- An opcode that retired is that of the instruction which the step came to. -/
lemma exists_selects_of_retired {config : Config} {devices : β} {opcode : Opcode}
    (h : (m.execute config devices).outcome = .retired opcode) :
    ∃ k i, m.Selects k i ∧ i.opcode = opcode := by
  rw [execute] at h
  rcases step_cases config m devices none with
    ⟨-, e⟩ | ⟨-, -, e⟩ | ⟨-, -, -, e⟩ | ⟨k, i, -, first, e⟩
  · rw [e] at h; cases h
  · rw [e] at h; cases h
  · rw [e] at h; cases h
  · rw [e, runInstruction_outcome] at h
    split at h
    · cases h
    · cases h
      exact ⟨k, i, first, rfl⟩

/-- Only a call has a slot to call. -/
lemma dispatch_slot_eq_none (h : i.opcode ≠ .phl) (m : Machine) (position : Pointer) :
    (m.dispatch i position).slot = none := by
  cases hslot : (m.dispatch i position).slot with
  | none => rfl
  | some v => exact absurd (dispatch_of_slot hslot).1 h

/-- A step that calls nobody commits what its instruction wants done, whatever is plugged in. -/
lemma execute_of_selects (h : m.Selects k i) (hop : i.opcode ≠ .phl) (config : Config) (devices : β) :
    m.execute config devices =
      ⟨Semantics.outcome (i.argument.resolve m.registers).toInt i.opcode,
        m.homeCard.commit (m.homeCard.dispatch i (.narrow k)), devices, none⟩ := by
  have hfault := dispatch_fault m.homeCard i (.narrow k)
  simp only [homeCard_registers, Semantics.word_eq_zero_iff] at hfault
  rw [execute, step_of_selects h, runInstruction,
    makeCall_of_slot_eq_none (dispatch_slot_eq_none hop m.homeCard (.narrow k)), Semantics.outcome]
  dsimp only
  rw [hfault]
  by_cases hz : i.opcode = .dvm ∧ (i.argument.resolve m.registers).toInt = 0
  · rw [if_pos hz, if_pos hz]
    rfl
  · rw [if_neg hz, if_neg hz]
    rfl

/-- A step that calls nobody leaves in the registers what the opcode means. -/
lemma toInt_register_of_selects (inRange : m.registers.InRange) (h : m.Selects k i)
    (hop : i.opcode ≠ .phl) (config : Config) (devices : β) (r : Register) :
    ((m.execute config devices).machine.registers.get r).toInt =
      Semantics.registers (fun s => (m.registers.get s).toInt)
        (i.argument.resolve m.registers).toInt i.opcode r := by
  have hregister := Semantics.toInt_commit_register (m := m.homeCard)
    (by rwa [homeCard_registers]) i (.narrow k) r
  rw [homeCard_registers] at hregister
  rw [execute_of_selects h hop, hregister]

end CardMachine.Machine
