import CardMachine.Peripheral.Timer
import CardMachine.Proofs.Commit

/-!
# Well-formed machines

A machine is well formed when its registers hold values between -999 and 999 and every position of
its program can be named; pointers and mode may be anything. Code outside the machine cannot break
this: it writes registers only through `Machine.setRegister`, which saturates, and makes programs only
with `Program.ofCards`, `Program.replaceCard` and `Program.pushCard?`. `Machine.Edited` collects what such
code can do, and `Edited.wellFormed` is the invariant.

`Provider.CallsEdit` and `Provider.OffersKeepRange` state this of a provider's peripherals. A bank has
both laws if its peripherals do (`Bank.callsEdit`, `Bank.offersKeepRange`), and timers do.
-/

namespace CardMachine

namespace Machine

/-- Registers in range and an addressable program. -/
structure WellFormed (m : Machine) : Prop where
  registers : m.registers.InRange
  program : Addressable m.program.cards

/-- `m'` is what code outside the machine can make of `m`. -/
inductive Edited (m : Machine) : Machine → Prop where
  | refl : Edited m m
  | ip {m'} (v : Pointer) : Edited m m' → Edited m { m' with ip := v }
  | card {m'} (v : Pointer) : Edited m m' → Edited m { m' with card := v }
  | mode {m'} (mode : Mode) : Edited m m' → Edited m { m' with mode }
  | register {m'} (r : Register) (v : Int) : Edited m m' → Edited m (m'.setRegister r v)
  | load {m'} (cards : List Card) :
    Edited m m' →
    Edited m { m' with program := .ofCards cards }
  | replaceCard {m' program} (index : Nat) (card : Card) :
    m'.program.replaceCard index card = .ok program →
    Edited m m' →
    Edited m { m' with program }
  | pushCard {m' program index} (card : Card) :
    m'.program.pushCard? card = some (program, index) →
    Edited m m' →
    Edited m { m' with program }

end Machine

/-- Replacing a card keeps a program addressable. -/
lemma Addressable.replaceCard {p p' : Program} {index : Nat} {card : Card} (h : Addressable p.cards)
    (e : p.replaceCard index card = .ok p') : Addressable p'.cards := by
  rw [Program.replaceCard] at e
  split at e
  · cases e
    refine ⟨by rw [List.length_set]; exact h.1, ?_⟩
    intro c hc
    rcases List.mem_or_eq_of_mem_set hc with hc | rfl
    · exact h.2 c hc
    · exact List.length_take_le _ _
  · cases e

/-- Adding a card keeps a program addressable. -/
lemma Addressable.pushCard {p p' : Program} {index : Nat} {card : Card} (h : Addressable p.cards)
    (e : p.pushCard? card = some (p', index)) : Addressable p'.cards := by
  rw [Program.pushCard?] at e
  split at e
  case isTrue hroom =>
    cases e
    refine ⟨by rw [List.length_append]; exact hroom, ?_⟩
    intro c hc
    rcases List.mem_append.1 hc with hc | hc
    · exact h.2 c hc
    · rw [List.mem_singleton.1 hc]
      exact List.length_take_le _ _
  case isFalse => cases e

/-- Code outside the machine keeps it well formed. -/
lemma Machine.Edited.wellFormed {m m' : Machine} (h : m.Edited m') (wf : m.WellFormed) :
    m'.WellFormed := by
  induction h with
  | refl => exact wf
  | ip _ _ ih => exact ⟨ih.registers, ih.program⟩
  | card _ _ ih => exact ⟨ih.registers, ih.program⟩
  | mode _ _ ih => exact ⟨ih.registers, ih.program⟩
  | register r v _ ih => exact ⟨ih.registers.set r v, ih.program⟩
  | load cards _ ih => exact ⟨ih.registers, Program.addressable_ofCards cards⟩
  | replaceCard _ _ e _ ih => exact ⟨ih.registers, ih.program.replaceCard e⟩
  | pushCard _ e _ ih => exact ⟨ih.registers, ih.program.pushCard e⟩

/-- A call of a peripheral changes the machine only as code outside it can; it may leave pointers,
mode and program as it likes. -/
def Provider.CallsEdit (β : Type) [Provider β] : Prop :=
  ∀ (devices : β) (slot : Slot) (m : Machine) (reply : Reply β),
    Provider.call? devices slot m = some reply → m.Edited reply.machine

/-- A peripheral that is offered a mode changes the machine only as code outside it can, and leaves
the pointers of a well-formed machine in range if they were. -/
def Provider.OffersKeepRange (β : Type) [Provider β] : Prop :=
  ∀ (devices : β) (slot : Slot) (m : Machine) (reply : Reply β),
    Provider.offer? devices slot m = some reply →
      m.Edited reply.machine ∧ (m.WellFormed → m.InRange → reply.machine.InRange)

namespace Bank

variable {π : Type}

/-- What a bank replies is what the peripheral in the slot replied. -/
lemma use_machine {bank : Bank π} {slot : Slot} {f : π → Reply π} {reply : Reply (Bank π)}
    (h : bank.use slot f = some reply) : ∃ p, reply.machine = (f p).machine := by
  obtain ⟨p, -, rfl⟩ := Option.map_eq_some_iff.1 h
  exact ⟨p, rfl⟩

/-- The calls of a bank edit, if those of its peripherals do. -/
lemma callsEdit [Peripheral π] (h : ∀ (p : π) (m : Machine), m.Edited (Peripheral.call p m).machine) :
    Provider.CallsEdit (Bank π) := by
  intro bank slot m reply e
  obtain ⟨p, hp⟩ := use_machine e
  rw [hp]
  exact h p m

/-- Offers to a bank keep the pointers in range, if those to its peripherals do. -/
lemma offersKeepRange [Peripheral π]
    (h : ∀ (p : π) (m : Machine), m.Edited (Peripheral.offer p m).machine ∧
      (m.InRange → (Peripheral.offer p m).machine.InRange)) :
    Provider.OffersKeepRange (Bank π) := by
  intro bank slot m reply e
  obtain ⟨p, hp⟩ := use_machine e
  rw [hp]
  exact ⟨(h p m).1, fun _ => (h p m).2⟩

end Bank

namespace Timer

/-- A call of a timer edits the mode or the accumulator. -/
lemma call_edited (t : Timer) (m : Machine) : m.Edited (t.call m).machine := by
  rw [call]
  dsimp only
  split
  · exact .mode _ .refl
  · exact .register _ _ .refl

/-- A timer that is offered a mode changes nothing of the machine but the mode. -/
lemma offer_frame (t : Timer) (m : Machine) : ∃ mode, (t.offer m).machine = { m with mode } := by
  rw [offer]
  split
  · split
    · dsimp only
      split
      · exact ⟨_, rfl⟩
      · exact ⟨_, rfl⟩
    · exact ⟨m.mode, rfl⟩
  · exact ⟨m.mode, rfl⟩

/-- The calls of a bank of timers edit. -/
lemma callsEdit : Provider.CallsEdit (Bank Timer) := Bank.callsEdit call_edited

/-- Offers to a bank of timers keep the pointers in range. -/
lemma offersKeepRange : Provider.OffersKeepRange (Bank Timer) := by
  refine Bank.offersKeepRange fun t m => ?_
  obtain ⟨mode, e⟩ := offer_frame t m
  show m.Edited (t.offer m).machine ∧ (m.InRange → (t.offer m).machine.InRange)
  rw [e]
  exact ⟨.mode mode .refl, fun h => h⟩

end Timer

end CardMachine
