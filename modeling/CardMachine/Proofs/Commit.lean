import CardMachine.Pending
import Mathlib.Tactic.Lemma

/-!
# What a commit leaves

`Machine.commit` is a chain of small changes. Each part of the machine is followed through that chain
once, here, so that later proofs read a part off (`commit_registers`, `commit_card`, `val_commit_ip`)
and never open the chain. In a program of which every position can be named, no integer is lost when
it is narrowed to a pointer (`val_narrow_floorMod`, `val_narrow_card`), and the pointers a commit
leaves are in range (`commit_inRange`).
-/

namespace CardMachine

/-- No card of an addressable program is longer than a pointer can reach. -/
lemma Addressable.cardLength_le {p : Program} (h : Addressable p.cards) (index : Nat) :
    p.cardLength index ≤ addressableLimit := by
  rw [Program.cardLength, Program.card, List.getD_eq_getElem?_getD]
  by_cases hi : index < p.cards.length
  · rw [List.getElem?_eq_getElem hi]
    exact h.2 _ (List.getElem_mem hi)
  · rw [List.getElem?_eq_none (by omega)]
    exact Nat.zero_le _

/-- The card that a step works on: the current one, if there is such a card, and else the first. -/
def Machine.scannedCard (m : Machine) : Pointer :=
  if m.card < m.program.cardCount then m.card else .zero

/-- Writing registers keeps all of them in range. -/
lemma Registers.InRange.write {rs : Registers} (h : rs.InRange) (w : Writes) :
    (rs.write w).InRange := by
  intro r
  rw [Registers.get_write]
  cases w.get r with
  | none => exact h r
  | some v =>
    show -999 ≤ (saturate v).toInt ∧ (saturate v).toInt ≤ 999
    rw [toInt_saturate]
    omega

/-- The remainder is on the card, or zero if the card is empty. -/
lemma floorMod_bounds (v : Int) (len : Nat) :
    0 ≤ floorMod v len ∧ floorMod v len < max 1 len := by
  rw [floorMod]
  split
  case isTrue h => omega
  case isFalse h =>
    have lo := Int.emod_nonneg v (show (len : Int) ≠ 0 by omega)
    have hi := Int.emod_lt_of_pos v (show (0 : Int) < len by omega)
    omega

/-- A remainder by the length of an addressable card fits a pointer. -/
lemma val_narrow_floorMod {len : Nat} (h : len ≤ addressableLimit) (v : Int) :
    ((Pointer.narrow (floorMod v len)).val : Int) = floorMod v len := by
  obtain ⟨lo, hi⟩ := floorMod_bounds v len
  have hlimit : addressableLimit = 256 := rfl
  exact Pointer.val_narrow lo (by omega)

/-- The index of a card of an addressable program fits a pointer. -/
lemma val_narrow_card {p : Program} (h : Addressable p.cards) {target : Int}
    (valid : cardTargetValid target p.cardCount = true) :
    ((Pointer.narrow target).val : Int) = target := by
  simp only [cardTargetValid, Bool.and_eq_true, decide_eq_true_eq] at valid
  have hcount : p.cardCount ≤ addressableLimit := h.1
  have hlimit : addressableLimit = 256 := rfl
  exact Pointer.val_narrow valid.1 (by omega)

namespace Machine

/-- Only the card pointer goes home. -/
@[simp] lemma homeCard_ip (m : Machine) : m.homeCard.ip = m.ip := by
  rw [homeCard]; split <;> rfl

@[simp] lemma homeCard_registers (m : Machine) : m.homeCard.registers = m.registers := by
  rw [homeCard]; split <;> rfl

@[simp] lemma homeCard_program (m : Machine) : m.homeCard.program = m.program := by
  rw [homeCard]; split <;> rfl

@[simp] lemma homeCard_mode (m : Machine) : m.homeCard.mode = m.mode := by
  rw [homeCard]; split <;> rfl

/-- To go home is to go to the card that a step works on. -/
lemma homeCard_eq (m : Machine) : m.homeCard = { m with card := m.scannedCard } := by
  rw [homeCard, scannedCard]
  split <;> rfl

/-- The card that is scanned is the one the pointer is at home on. -/
lemma homeCard_card (m : Machine) : m.homeCard.card = m.scannedCard := by rw [homeCard_eq]

/-- The current card at home is the one that a step works on. -/
lemma homeCard_currentCard (m : Machine) : m.homeCard.currentCard = m.program.card m.scannedCard := by
  rw [currentCard, homeCard_program, homeCard_card]

/-- The home card exists, if any card does. -/
lemma homeCard_lt {m : Machine} (h : m.program.isEmpty = false) :
    m.homeCard.card < m.program.cardCount := by
  rw [homeCard]
  split
  case isTrue hlt => exact hlt
  case isFalse hge =>
    rw [Program.isEmpty, List.isEmpty_eq_false_iff] at h
    exact List.length_pos_iff.2 h

/-- A card that exists is its own home. -/
lemma homeCard_eq_self {m : Machine} (h : m.card < m.program.cardCount) : m.homeCard = m := by
  rw [homeCard, if_pos h]

/-- To bring the pointers into range leaves the registers. -/
@[simp] lemma normalize_registers (m : Machine) (ip : Int) :
    (m.normalize ip).registers = m.registers := homeCard_registers m

@[simp] lemma normalize_program (m : Machine) (ip : Int) :
    (m.normalize ip).program = m.program := homeCard_program m

@[simp] lemma normalize_mode (m : Machine) (ip : Int) :
    (m.normalize ip).mode = m.mode := homeCard_mode m

/-- To bring the pointers into range takes the card pointer home. -/
@[simp] lemma normalize_card (m : Machine) (ip : Int) :
    (m.normalize ip).card = m.homeCard.card := rfl

/-- Normalization takes the instruction pointer modulo the length of the card that is now current,
and loses nothing of the remainder. -/
lemma val_normalize_ip {m : Machine} (h : Addressable m.program.cards) (ip : Int) :
    ((m.normalize ip).ip.val : Int) = floorMod ip (m.program.cardLength m.homeCard.card) := by
  have e : (m.normalize ip).ip =
      Pointer.narrow (floorMod ip (m.homeCard.program.cardLength m.homeCard.card)) := rfl
  rw [e, homeCard_program]
  exact val_narrow_floorMod (h.cardLength_le _) ip

/-- Normalization brings both pointers into range. -/
lemma normalize_inRange {m : Machine} (h : Addressable m.program.cards) (ip : Int) :
    (m.normalize ip).InRange := by
  -- without cards every pointer is in range
  cases hempty : m.program.isEmpty with
  | true => exact .inl (by rwa [normalize_program])
  | false =>
    refine .inr ⟨?_, ?_⟩
    · rw [normalize_program, normalize_card]
      exact homeCard_lt hempty
    · have hip := val_normalize_ip h ip
      have hlt := (floorMod_bounds ip (m.program.cardLength m.homeCard.card)).2
      rw [normalize_program, normalize_card]
      omega

/-- Only a division by zero faults. -/
lemma dispatch_fault (m : Machine) (i : Instruction) (position : Pointer) :
    (m.dispatch i position).fault =
      if i.opcode = .dvm ∧ i.argument.resolve m.registers = 0 then some .divideByZero else none := by
  rw [dispatch]
  generalize i.argument.resolve m.registers = arg
  cases i.opcode
  case dvm => dsimp only; split <;> simp_all
  case crd | crj => dsimp only; rw [changeCard]; split <;> rfl
  all_goals rfl

/-- Only a call names a slot, and it has nothing else to do. -/
lemma dispatch_of_slot {m : Machine} {i : Instruction} {position : Pointer} {v : Word}
    (h : (m.dispatch i position).slot = some v) :
    i.opcode = .phl ∧ m.dispatch i position = { position, slot := some v } := by
  rw [dispatch] at h ⊢
  generalize i.argument.resolve m.registers = arg at h
  cases hop : i.opcode <;> simp only [hop] at h
  case phl => cases h; exact ⟨rfl, rfl⟩
  case dvm => split at h <;> cases h
  case crd | crj => rw [changeCard] at h; split at h <;> cases h
  all_goals cases h

/-- The machine a commit normalizes: the effects are applied to it, unless there was a fault. -/
def applyUnlessFault (m : Machine) (p : Pending) : Machine :=
  if p.fault.isNone then m.apply p else m

/-- A commit in two moves: the effects, then the pointers. -/
lemma commit_eq (m : Machine) (p : Pending) :
    m.commit p = (m.applyUnlessFault p).normalize (p.nextIp + if p.advance then 1 else 0) := rfl

/-- The effects of an instruction leave the program. -/
@[simp] lemma applyUnlessFault_program (m : Machine) (p : Pending) :
    (m.applyUnlessFault p).program = m.program := by
  rw [applyUnlessFault]; split <;> rfl

/-- A commit leaves the program alone. -/
@[simp] lemma commit_program (m : Machine) (p : Pending) : (m.commit p).program = m.program := by
  rw [commit_eq, normalize_program, applyUnlessFault_program]

/-- A commit writes the registers, unless there was a fault. -/
lemma commit_registers (m : Machine) (p : Pending) :
    (m.commit p).registers = if p.fault.isNone then m.registers.write p.writes else m.registers := by
  rw [commit_eq, normalize_registers, applyUnlessFault]
  split <;> rfl

/-- A commit enters the mode that is waiting, unless there was a fault. -/
lemma commit_mode (m : Machine) (p : Pending) :
    (m.commit p).mode = if p.fault.isNone then (p.mode.map Mode.canonical).getD m.mode else m.mode := by
  rw [commit_eq, normalize_mode, applyUnlessFault]
  split <;> rfl

/-- A commit goes to the card that is waiting, unless there was a fault; a card that does not exist
has the first one for its home. -/
lemma commit_card (m : Machine) (p : Pending) :
    (m.commit p).card = (m.applyUnlessFault p).homeCard.card := rfl

/-- A commit takes the instruction pointer modulo the length of the card that is now current. -/
lemma val_commit_ip {m : Machine} (h : Addressable m.program.cards) (p : Pending) :
    ((m.commit p).ip.val : Int) =
      floorMod (p.nextIp + if p.advance then 1 else 0)
        ((m.commit p).program.cardLength (m.commit p).card) := by
  rw [commit_program, commit_card, commit_eq, ← applyUnlessFault_program m p]
  exact val_normalize_ip (by rwa [applyUnlessFault_program]) _

/-- A commit leaves both pointers in range. -/
lemma commit_inRange {m : Machine} (h : Addressable m.program.cards) (p : Pending) :
    (m.commit p).InRange := by
  rw [commit_eq]
  exact normalize_inRange (by rwa [applyUnlessFault_program]) _

/-- A commit leaves every register in range. -/
lemma commit_registers_inRange {m : Machine} (h : m.registers.InRange) (p : Pending) :
    (m.commit p).registers.InRange := by
  rw [commit_registers]
  split
  case isTrue => exact h.write _
  case isFalse => exact h

end Machine

end CardMachine
