import CardMachine.Proofs.Course
import CardMachine.Proofs.Selected

/-!
# Machines that get nowhere

A step gets nowhere if it finds nothing to run, or if it runs a change to a card that does not exist.
`Halts` says what such a step leaves: the machine as it was, with the card pointer at home and, after a
change of card that came to nothing, the instruction pointer at that instruction. From there the same
instruction, or nothing, is found again (`Halts.again`), so the machine has come to a standstill: no
number of steps changes it any more.
-/

namespace CardMachine

namespace Machine

/-- The instruction changes to a card that the program does not have. -/
def LeadsNowhere (m : Machine) (i : Instruction) : Prop :=
  (i.opcode = .crd ∨ i.opcode = .crj) ∧
    ¬ (0 ≤ (i.argument.resolve m.registers).toInt ∧
      (i.argument.resolve m.registers).toInt < m.program.cardCount)

/-- A step of `m` that goes so gets nowhere. -/
def Stalls (m : Machine) : StepOutcome → Prop
  | .emptyProgram | .emptyCard | .noEligibleInstruction => True
  | .retired _ => ∃ k i, m.Selects k i ∧ m.LeadsNowhere i
  | .fault _ => False

/-- A step of `m` that goes so gets nowhere and leaves this machine. -/
inductive Halts (m : Machine) : StepOutcome → Machine → Prop where
  | emptyProgram :
    m.program.isEmpty = true →
    Halts m .emptyProgram m
  | emptyCard :
    m.program.isEmpty = false →
    m.homeCard.currentCard = [] →
    Halts m .emptyCard m.homeCard
  | noneEligible :
    m.program.isEmpty = false →
    m.homeCard.currentCard ≠ [] →
    (∀ i ∈ m.homeCard.currentCard, i.eligible m.registers.c = false) →
    Halts m .noEligibleInstruction m.homeCard
  | noSuchCard {k i} (ip : Pointer) :
    m.Selects k i →
    m.LeadsNowhere i →
    ip.val = k →
    Halts m (.retired i.opcode) { m.homeCard with ip }

/-- A machine at home stays there. -/
lemma homeCard_homeCard (m : Machine) : m.homeCard.homeCard = m.homeCard := by
  cases h : m.program.isEmpty with
  | true =>
    have hcount : m.program.cardCount = 0 := by
      rw [Program.cardCount, List.isEmpty_iff.1 h, List.length_nil]
    simp [homeCard, hcount]
  | false => exact homeCard_eq_self (by rw [homeCard_program]; exact homeCard_lt h)

variable {m m' : Machine} {outcome : StepOutcome}

/-- The pointer at an instruction that may run, the scan comes to that instruction at once. -/
lemma Selects.again {k : Nat} {i : Instruction} {ip : Pointer} (h : m.Selects k i) (hip : ip.val = k) :
    { m.homeCard with ip }.Selects k i := by
  have hhome : { m.homeCard with ip }.homeCard = { m.homeCard with ip } :=
    homeCard_eq_self (by rw [homeCard_program]; exact homeCard_lt h.isEmpty_eq_false)
  have hlt := h.lt
  obtain ⟨d, hd, -, stored, eligible, -⟩ := h
  rw [Selects, hhome]
  refine ⟨0, Nat.zero_lt_of_lt hlt, ?_, stored, ?_, fun d hd => absurd hd (Nat.not_lt_zero d)⟩
  · rw [hip]
    exact (Nat.mod_eq_of_lt hlt).symm
  · rw [homeCard_registers]
    exact eligible

/-- Where a machine has come to a halt, it comes to a halt again. -/
lemma Halts.again (h : m.Halts outcome m') : m'.Halts outcome m' := by
  have hhome := homeCard_homeCard m
  cases h with
  | emptyProgram hempty => exact .emptyProgram hempty
  | emptyCard hempty hcard =>
    have again := Halts.emptyCard (m := m.homeCard) (by rwa [homeCard_program]) (by rwa [hhome])
    rwa [hhome] at again
  | noneEligible hempty hcard hall =>
    have again := Halts.noneEligible (m := m.homeCard) (by rwa [homeCard_program]) (by rwa [hhome])
      (by rwa [hhome, homeCard_registers])
    rwa [hhome] at again
  | @noSuchCard k i ip hselects nowhere hip =>
    have again := hselects.again hip
    have hself : { m.homeCard with ip }.homeCard = { m.homeCard with ip } :=
      homeCard_eq_self (by rw [homeCard_program]; exact homeCard_lt hselects.isEmpty_eq_false)
    have nowhere' : { m.homeCard with ip }.LeadsNowhere i := by
      rw [LeadsNowhere, homeCard_registers, homeCard_program]
      exact nowhere
    have halts := Halts.noSuchCard ip again nowhere' hip
    rwa [hself] at halts

/-- A change to a card that does not exist leaves the pointer at the instruction, and all else as it
is. -/
lemma commit_of_leadsNowhere (hcard : m.card < m.program.cardCount)
    {ip : Pointer} (hip : ip.val < m.program.cardLength m.card) {i : Instruction}
    (h : m.LeadsNowhere i) : m.commit (m.dispatch i ip) = { m with ip } := by
  have hdispatch : m.dispatch i ip = { position := ip, advance := false } := by
    have hvalid : ¬ cardTargetValid (i.argument.resolve m.registers).toInt m.program.cardCount = true := by
      simp only [cardTargetValid, Bool.and_eq_true, decide_eq_true_eq]
      exact h.2
    rcases h.1 with hop | hop <;> simp only [dispatch, hop, changeCard, if_neg hvalid]
  have hfloor : Pointer.narrow (floorMod ((ip.val : Int) + 0) (m.program.cardLength m.card)) = ip := by
    rw [Semantics.floorMod_of_lt hip]
    exact Fin.ext (Int.ofNat_inj.1 (Pointer.val_narrow (by omega) (by omega)))
  -- nothing is written, and no mode or card is waiting
  have happly : m.applyUnlessFault { position := ip, advance := false } = m := rfl
  rw [hdispatch, commit_eq, happly, normalize, homeCard_eq_self hcard]
  exact congrArg (fun ip => { m with ip }) hfloor

variable {β : Type} [Provider β]

/-- A step that halts leaves what the rules say, and the peripherals as they are. -/
lemma Halts.execute_eq (h : m.Halts outcome m') (config : Config) (devices : β) :
    m.execute config devices = ⟨outcome, m', devices, none⟩ := by
  cases h with
  | emptyProgram hempty => rw [execute, step, if_pos hempty]
  | emptyCard hempty hcard =>
    rw [execute, step, if_neg (by simp [hempty])]
    dsimp only
    rw [Card.select_eq_emptyCard_iff.2 hcard]
  | noneEligible hempty hcard hall =>
    rw [execute, step, if_neg (by simp [hempty])]
    dsimp only
    rw [homeCard_registers, Card.select_eq_noneEligible_iff.2 ⟨hcard, hall⟩]
    rfl
  | @noSuchCard k i ip hselects nowhere hip =>
    have hop : i.opcode ≠ .phl ∧ i.opcode ≠ .dvm := by rcases nowhere.1 with e | e <;> simp [e]
    have hlt := hselects.lt
    have hnarrow : Pointer.narrow k = ip := by
      refine Fin.ext (Int.ofNat_inj.1 ?_)
      rw [Pointer.val_narrow (by omega) (by omega), hip]
    have hcommit : m.homeCard.commit (m.homeCard.dispatch i ip) = { m.homeCard with ip } :=
      commit_of_leadsNowhere
      (by rw [homeCard_program]; exact homeCard_lt hselects.isEmpty_eq_false)
      (by rw [hip]; exact hlt)
      (by rw [LeadsNowhere, homeCard_registers, homeCard_program]; exact nowhere)
    rw [execute_of_selects hselects hop.1, hnarrow, hcommit, Semantics.outcome,
      if_neg fun e => hop.2 e.1]

/-- A step that gets nowhere halts. -/
lemma halts_execute (haddr : Addressable m.program.cards) (config : Config) (devices : β)
    (h : m.Stalls (m.execute config devices).outcome) :
    m.Halts (m.execute config devices).outcome (m.execute config devices).machine := by
  rcases step_cases config m devices none with
    ⟨hempty, e⟩ | ⟨hempty, hcard, e⟩ | ⟨hempty, hcard, hall, e⟩ | ⟨k, i, -, first, e⟩
  · rw [execute, e]
    exact .emptyProgram hempty
  · rw [execute, e]
    exact .emptyCard hempty hcard
  · rw [execute, e]
    exact .noneEligible hempty hcard hall
  · -- the one instruction that the step ran is the one that leads nowhere
    have nowhere : m.LeadsNowhere i := by
      rw [execute, e, runInstruction_outcome] at h
      split at h
      · exact h.elim
      · obtain ⟨k', i', selects, nowhere⟩ := h
        obtain ⟨-, rfl⟩ := first.unique selects
        exact nowhere
    have hlt : k < m.homeCard.currentCard.length := first.lt
    have hle : m.homeCard.currentCard.length ≤ addressableLimit := by
      have hle := haddr.cardLength_le m.homeCard.card
      rwa [← homeCard_program m] at hle
    have halts := Halts.noSuchCard ⟨k, Nat.lt_of_lt_of_le hlt hle⟩ first nowhere rfl
    rw [halts.execute_eq config devices]
    exact halts

end Machine

/-- Stuck means stuck: a step that finds nothing to run, or that changes to a card which does not exist,
moves at most the card pointer home and the instruction pointer to that change of card. However many
steps come after it, under whatever configuration, they all go as it did and change nothing, neither of
the machine nor of its peripherals. -/
theorem stuck_stays_stuck {κ β : Type} [Chassis κ] [Provider β] (config : Config) {m : Machine}
    (haddr : Addressable m.program.cards) (body : κ) (devices : β) :
    let turn := m.execute config devices
    m.Stalls turn.outcome →
      m.Halts turn.outcome turn.machine ∧ turn.devices = devices ∧
      ∀ (config' : Config) (n : Nat),
        let stuck : Rig κ β := ⟨turn.machine, body, turn.devices⟩
        let course := stuck.serveAll config' (.replicate n .execute)
        course.answers = .replicate n (.step turn.outcome) ∧ course.rig = stuck := by
  intro turn h
  have halts : m.Halts turn.outcome turn.machine := Machine.halts_execute haddr config devices h
  have hdevices : turn.devices = devices := congrArg Turn.devices (halts.execute_eq config devices)
  refine ⟨halts, hdevices, ?_⟩
  intro config' n stuck course
  have step : ∀ (_ : Nat) (r : Rig κ β), r = stuck →
      (r.serve config' .execute).answer = .step turn.outcome ∧ (r.serve config' .execute).rig = stuck := by
    rintro _ r rfl
    have again := halts.again.execute_eq config' turn.devices
    rw [Rig.serve, again]
    exact ⟨rfl, rfl⟩
  obtain ⟨hanswers, hrig⟩ := Rig.serveAll_countdown (fun _ r => r = stuck) step (n := n) rfl
  exact ⟨hanswers, hrig n (Nat.le_refl n)⟩

/-- Both pointers are astray. Of its instructions only a change to a second card may run, and there is
none. -/
def deadEnd : Machine :=
  { ip := .narrow 200
    card := .narrow 9
    registers := { b := 1, c := -1 }
    program := ⟨[[⟨.add, .literal 1, some .pos⟩, ⟨.crj, .register .b, some .neg⟩,
      ⟨.phl, .literal 0, some .equ⟩]]⟩ }

/-- It stops at the change of card, with a timer plugged in that nobody calls, and is there still after a
thousand steps. -/
theorem deadEnd_stays_stuck :
    let turn := deadEnd.execute {} oneTimer
    let stuck : Rig PlanarChassis (Bank Timer) := ⟨{ deadEnd with ip := 1, card := 0 }, {}, oneTimer⟩
    Addressable deadEnd.program.cards ∧ deadEnd.Stalls turn.outcome ∧
      deadEnd.Halts (.retired .crj) stuck.machine ∧
      (stuck.serveAll {} (.replicate 1000 .execute)).answers = .replicate 1000 (.step (.retired .crj)) ∧
      (stuck.serveAll {} (.replicate 1000 .execute)).rig = stuck := by
  have haddr : Addressable deadEnd.program.cards := by decide
  have hselects : deadEnd.Selects 1 ⟨.crj, .register .b, some .neg⟩ :=
    Card.select_eq_selected_iff.1 (by decide)
  have hturn : deadEnd.execute {} oneTimer =
      ⟨.retired .crj, { deadEnd with ip := 1, card := 0 }, oneTimer, none⟩ := rfl
  have hstalls : deadEnd.Stalls (deadEnd.execute {} oneTimer).outcome := by
    rw [hturn]
    exact ⟨1, _, hselects, .inr rfl, by decide⟩
  obtain ⟨halts, -, hstuck⟩ :=
    stuck_stays_stuck {} haddr ({} : PlanarChassis) oneTimer hstalls
  rw [hturn] at halts hstuck
  exact ⟨haddr, hstalls, halts, hstuck {} 1000⟩

end CardMachine
