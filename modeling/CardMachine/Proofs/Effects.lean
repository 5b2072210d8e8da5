import CardMachine.Proofs.Semantics

/-!
# What pending effects mean

Effects may be gathered by anyone, and no two fields of a `Pending` need fit together. `Commits` says
what they come to, part by part and in plain integers: which card the machine goes to, where on that
card it stands, what each register holds and which mode it is in. The rules hold for every record, and
they leave no choice (`Commits.unique`), so a commit does what they say and nothing else.

A fault takes away everything but the move of the pointer: registers and mode stay, and the card that
is waiting is not looked at.
-/

namespace CardMachine.Semantics

open Machine

/-- The card that effects ask for: the one that is waiting, if any, and after a fault the current
one. -/
def requestedCard (m : Machine) (p : Pending) : Pointer :=
  if p.fault = none then p.nextCard.getD m.card else m.card

/-- The position that effects ask for, on a card of length `len`: an empty card has only 0, and any
other is gone round as often as it takes, in either direction. -/
def requestedPosition (p : Pending) (len : Nat) : Int :=
  if len = 0 then 0 else (p.nextIp + if p.advance then 1 else 0) % len

/-- The effects `p` make `m'` of `m`. -/
structure Commits (m : Machine) (p : Pending) (m' : Machine) : Prop where
  program : m'.program = m.program
  /-- A card that does not exist has the first one for its home. -/
  card : m'.card.val =
    if (requestedCard m p).val < m.program.cardCount then (requestedCard m p).val else 0
  ip : (m'.ip.val : Int) = requestedPosition p (m.program.cardLength m'.card)
  written (hfault : p.fault = none) {r : Register} {v : Int} (hv : p.writes.get r = some v) :
    (m'.registers.get r).toInt = max (-999) (min v 999)
  unwritten (hfault : p.fault = none) {r : Register} (hv : p.writes.get r = none) :
    m'.registers.get r = m.registers.get r
  entered (hfault : p.fault = none) {mode : Mode} (hmode : p.mode = some mode) :
    m'.mode = mode.canonical
  kept (hfault : p.fault = none) (hmode : p.mode = none) : m'.mode = m.mode
  /-- A fault changes no register and no mode. -/
  faulted (hfault : p.fault ≠ none) : m'.registers = m.registers ∧ m'.mode = m.mode

namespace Commits

variable {m m₁ m₂ : Machine} {p : Pending}

/-- The rules settle the registers. -/
lemma registers_eq (h₁ : Commits m p m₁) (h₂ : Commits m p m₂) : m₁.registers = m₂.registers := by
  by_cases hfault : p.fault = none
  · apply Registers.ext_toInt
    intro r
    cases hv : p.writes.get r with
    | some v => exact (h₁.written hfault hv).trans (h₂.written hfault hv).symm
    | none => rw [h₁.unwritten hfault hv, h₂.unwritten hfault hv]
  · exact (h₁.faulted hfault).1.trans (h₂.faulted hfault).1.symm

/-- The rules settle the mode. -/
lemma mode_eq (h₁ : Commits m p m₁) (h₂ : Commits m p m₂) : m₁.mode = m₂.mode := by
  by_cases hfault : p.fault = none
  · cases hmode : p.mode with
    | some mode => exact (h₁.entered hfault hmode).trans (h₂.entered hfault hmode).symm
    | none => exact (h₁.kept hfault hmode).trans (h₂.kept hfault hmode).symm
  · exact (h₁.faulted hfault).2.trans (h₂.faulted hfault).2.symm

/-- The rules leave no choice. -/
lemma unique (h₁ : Commits m p m₁) (h₂ : Commits m p m₂) : m₁ = m₂ := by
  have hcard : m₁.card = m₂.card := Fin.ext (h₁.card.trans h₂.card.symm)
  have hip : m₁.ip = m₂.ip := by
    have e := h₁.ip
    rw [hcard, ← h₂.ip] at e
    exact Fin.ext (Int.ofNat_inj.1 e)
  have hregisters := h₁.registers_eq h₂
  have hmode := h₁.mode_eq h₂
  have hprogram := h₁.program.trans h₂.program.symm
  cases m₁
  cases m₂
  cases hcard
  cases hip
  cases hregisters
  cases hmode
  cases hprogram
  rfl

end Commits

/-- A commit ends on the card that was asked for, or on the first one where there is no such card. -/
lemma commit_card_eq_home (m : Machine) (p : Pending) :
    (m.commit p).card.val =
      if (requestedCard m p).val < m.program.cardCount then (requestedCard m p).val else 0 := by
  have hcard : (m.applyUnlessFault p).card = requestedCard m p := by
    rw [applyUnlessFault, requestedCard]
    cases p.fault <;> rfl
  rw [commit_card, homeCard_eq]
  dsimp only
  rw [scannedCard, hcard, applyUnlessFault_program]
  split <;> rfl

/-- A commit follows the rules. -/
lemma commits_commit {m : Machine} (h : Addressable m.program.cards) (p : Pending) :
    Commits m p (m.commit p) where
  program := commit_program m p
  card := commit_card_eq_home m p
  ip := by
    rw [val_commit_ip h, commit_program]
    rfl
  written hfault r v hv := by
    rw [commit_registers, hfault, Option.isNone_none, if_pos rfl, toInt_write, hv]
    rfl
  unwritten hfault r hv := by
    rw [commit_registers, hfault, Option.isNone_none, if_pos rfl, Registers.get_write, hv]
    rfl
  entered hfault mode hmode := by
    rw [commit_mode, hfault, Option.isNone_none, if_pos rfl, hmode]
    rfl
  kept hfault hmode := by
    rw [commit_mode, hfault, Option.isNone_none, if_pos rfl, hmode]
    rfl
  faulted hfault := by
    have hnone : ¬ p.fault.isNone = true := by rwa [Option.isNone_iff_eq_none]
    rw [commit_registers, commit_mode, if_neg hnone, if_neg hnone]
    exact ⟨rfl, rfl⟩

end Semantics

open Semantics in
/-- Whatever is pending, a commit makes of a machine with an addressable program exactly what the rules
say. The card pointer it leaves names a card, or is 0 if there is none. -/
theorem commit_iff_commits {m : Machine} (h : Addressable m.program.cards) (p : Pending) :
    (∀ m', m.commit p = m' ↔ Commits m p m') ∧
    (m.program.cards ≠ [] → (m.commit p).card.val < m.program.cardCount) ∧
    (m.program.cards = [] → (m.commit p).card.val = 0) := by
  have commits := commits_commit h p
  refine ⟨fun m' => ⟨?_, commits.unique⟩, ?_, ?_⟩
  · intro e
    exact e ▸ commits
  · intro hcards
    have hpos : 0 < m.program.cardCount := List.length_pos_iff.2 hcards
    rw [commits.card]
    split
    · assumption
    · exact hpos
  · intro hcards
    have hzero : m.program.cardCount = 0 := by rw [Program.cardCount, hcards]; rfl
    rw [commits.card, hzero]
    rfl

/-- Both pointers are astray and a nap is asked for. -/
def strandedNapper : Machine :=
  { ip := .narrow 90
    card := .narrow 200
    registers := { a := 4, b := 8 }
    program := ⟨[[⟨.add, .literal 1, none⟩, ⟨.sub, .literal 1, none⟩, ⟨.lda, .literal 0, none⟩],
      [⟨.add, .literal 2, none⟩, ⟨.jmp, .literal 0, none⟩]]⟩
    mode := .sleepStart 3 }

/-- Everything is asked for at once: a value that no register holds, a position before the start, another
card, and a mode in an improper form. -/
def unfitEffects : Pending :=
  { position := .narrow 7
    writes := { a := some 5000, c := some (-7) }
    nextIp := -4
    nextCard := some (.narrow 1)
    mode := some (.other (.own Mode.executingPath) .empty) }

/-- All of it is done, and after a fault nothing but the move of the pointer. -/
theorem strandedNapper_commits :
    Addressable strandedNapper.program.cards ∧
    Semantics.Commits strandedNapper unfitEffects
      { strandedNapper with
        ip := 1, card := 1, registers := { a := 999, b := 8, c := -7 }, mode := .executing } ∧
    Semantics.Commits strandedNapper { unfitEffects with fault := some .divideByZero }
      { strandedNapper with ip := 0, card := 0 } := by
  have h : Addressable strandedNapper.program.cards := by decide
  exact ⟨h, ((commit_iff_commits h _).1 _).1 rfl, ((commit_iff_commits h _).1 _).1 rfl⟩

end CardMachine
