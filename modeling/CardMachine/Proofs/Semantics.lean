import CardMachine.Proofs.Turn
import CardMachine.Proofs.WellFormed

/-!
# What an instruction means

The machine gathers the effects of an instruction, commits them and then normalizes its pointers.
`Semantics` says what comes of it without those stages, in plain integers: the registers, the mode,
the place (card and position) and the outcome after an opcode with a given argument. `Executes` puts
them together as a relation between a machine and what one step makes of it when no peripheral is
plugged in, scan and empty programs included.

The parts are compared one by one (`toInt_commit_register`, `commit_mode_eq`, `commit_place`), and
`Executes.unique` makes the relation a function, so that the step is the relation and nothing else.
-/

namespace CardMachine

namespace Semantics

/-- The nearest value between -999 and 999. -/
def clip (v : Int) : Int := max (-999) (min v 999)

/-- What an argument stands for, if the registers held `old`: a literal for its value, and a register for
what it held. -/
def argument (old : Register → Int) : Argument → Int
  | .literal v => v.toInt
  | .register r => old r

/-- What a register holds after an opcode with argument `arg`, if the registers held `old`. -/
def registers (old : Register → Int) (arg : Int) : Opcode → Register → Int
  | .add, .a => clip (old .a + arg)
  | .sub, .a => clip (old .a - arg)
  | .mul, .a => clip (old .a * arg)
  | .dvm, .a => if arg = 0 then old .a else (old .a).tdiv arg
  | .dvm, .b => if arg = 0 then old .b else (old .a).tmod arg
  | .rlb, .b => old .a
  | .rlc, .c => old .a
  | .rld, .d => old .a
  | .lda, .a => clip arg
  | .rlb, .a => clip arg
  | .rlc, .a => clip arg
  | .rld, .a => clip arg
  | _, r => old r

/-- The mode after an opcode with argument `arg`. A request carries the argument as it is. -/
def mode (old : Mode) (arg : Word) : Opcode → Mode
  | .mov => .moveStart arg
  | .rot => .rotateStart arg
  | .slp => .sleepStart arg
  | _ => old

/-- Where a jump to `target` lands: there, if that is on the card, and else at the start. -/
def landing (target : Int) (len : Nat) : Nat :=
  if 0 ≤ target ∧ target < len then target.toNat else 0

/-- The position `k` on a card of length `len`, modulo that length; an empty card has only 0. -/
def wrapped (k len : Nat) : Nat :=
  if len = 0 then 0 else k % len

/-- The card and the position on it after an opcode with argument `arg`, which stands at `k` on the
card `card`. -/
def place (p : Program) (card k : Nat) (arg : Int) : Opcode → Nat × Nat
  | .jmp => (card, landing arg (p.cardLength card))
  | .jby => (card, landing (k + arg) (p.cardLength card))
  | .crd => if 0 ≤ arg ∧ arg < p.cardCount then (arg.toNat, 0) else (card, k)
  | .crj =>
    if 0 ≤ arg ∧ arg < p.cardCount then (arg.toNat, wrapped k (p.cardLength arg.toNat))
    else (card, k)
  | _ => (card, (k + 1) % p.cardLength card)

/-- How an opcode with argument `arg` goes. -/
def outcome (arg : Int) (opcode : Opcode) : StepOutcome :=
  if opcode = .dvm ∧ arg = 0 then .fault .divideByZero else .retired opcode

/-- One step of `m`, without peripherals, goes so and leaves this machine. -/
inductive Executes (m : Machine) : StepOutcome → Machine → Prop where
  | emptyProgram :
    m.program.cards = [] →
    Executes m .emptyProgram m
  | emptyCard :
    m.program.cards ≠ [] →
    m.program.card m.scannedCard = [] →
    Executes m .emptyCard { m with card := m.scannedCard }
  | noneEligible :
    m.program.cards ≠ [] →
    m.program.card m.scannedCard ≠ [] →
    (∀ i ∈ m.program.card m.scannedCard, i.eligible m.registers.c = false) →
    Executes m .noEligibleInstruction { m with card := m.scannedCard }
  | ran {k i m'} {arg : Word} :
    m.program.cards ≠ [] →
    Card.FirstEligible (m.program.card m.scannedCard) m.ip m.registers.c k i →
    arg.toInt = argument (fun s => (m.registers.get s).toInt) i.argument →
    (m'.card.val, m'.ip.val) = place m.program m.scannedCard k arg.toInt i.opcode →
    (∀ r, (m'.registers.get r).toInt =
      registers (fun s => (m.registers.get s).toInt) arg.toInt i.opcode r) →
    m'.mode = mode m.mode arg i.opcode →
    m'.program = m.program →
    Executes m (outcome arg.toInt i.opcode) m'

end Semantics

/-- Registers are determined by the integers they hold. -/
lemma Registers.ext_toInt {x y : Registers} (h : ∀ r, (x.get r).toInt = (y.get r).toInt) : x = y := by
  obtain ⟨xa, xb, xc, xd⟩ := x
  obtain ⟨ya, yb, yc, yd⟩ := y
  have ea : xa = ya := Int16.toInt.inj (h .a)
  have eb : xb = yb := Int16.toInt.inj (h .b)
  have ec : xc = yc := Int16.toInt.inj (h .c)
  have ed : xd = yd := Int16.toInt.inj (h .d)
  rw [ea, eb, ec, ed]

namespace Semantics

open Machine

/-- An argument is read as what it stands for. -/
lemma toInt_resolve (rs : Registers) (a : Argument) :
    (a.resolve rs).toInt = argument (fun s => (rs.get s).toInt) a := by
  cases a <;> rfl

/-- A machine takes at most one step. -/
lemma Executes.unique {m m₁ m₂ : Machine} {o₁ o₂ : StepOutcome} (h₁ : Executes m o₁ m₁)
    (h₂ : Executes m o₂ m₂) : o₁ = o₂ ∧ m₁ = m₂ := by
  -- the premises of two different rules contradict each other
  cases h₁ with
  | emptyProgram hp =>
    cases h₂ with
    | emptyProgram _ => exact ⟨rfl, rfl⟩
    | emptyCard hp' _ => exact absurd hp hp'
    | noneEligible hp' _ _ => exact absurd hp hp'
    | ran hp' _ _ _ _ _ _ => exact absurd hp hp'
  | emptyCard hp hc =>
    cases h₂ with
    | emptyProgram hp' => exact absurd hp' hp
    | emptyCard _ _ => exact ⟨rfl, rfl⟩
    | noneEligible _ hc' _ => exact absurd hc hc'
    | ran _ first _ _ _ _ _ => rw [hc] at first; exact absurd first.lt (by simp)
  | noneEligible hp hc hall =>
    cases h₂ with
    | emptyProgram hp' => exact absurd hp' hp
    | emptyCard _ hc' => exact absurd hc' hc
    | noneEligible _ _ _ => exact ⟨rfl, rfl⟩
    | ran _ first _ _ _ _ _ =>
      obtain ⟨_, _, _, hi, hel, _⟩ := first
      rw [hall _ (List.mem_of_getElem? hi)] at hel
      cases hel
  | @ran k i _ arg hp first harg hplace hregs hmode hprog =>
    cases h₂ with
    | emptyProgram hp' => exact absurd hp' hp
    | emptyCard _ hc' => rw [hc'] at first; exact absurd first.lt (by simp)
    | noneEligible _ _ hall =>
      obtain ⟨_, _, _, hi, hel, _⟩ := first
      rw [hall _ (List.mem_of_getElem? hi)] at hel
      cases hel
    | @ran _ _ _ arg' _ first' harg' hplace' hregs' hmode' hprog' =>
      -- both ran the same instruction, and a place, registers and a mode make a machine
      obtain ⟨rfl, rfl⟩ := first.unique first'
      obtain rfl : arg = arg' := Int16.toInt.inj (harg.trans harg'.symm)
      refine ⟨rfl, ?_⟩
      obtain ⟨hcard, hip⟩ := Prod.mk.inj (hplace.trans hplace'.symm)
      have ecard : m₁.card = m₂.card := Fin.ext hcard
      have eip : m₁.ip = m₂.ip := Fin.ext hip
      have eregs : m₁.registers = m₂.registers :=
        Registers.ext_toInt fun r => (hregs r).trans (hregs' r).symm
      have emode := hmode.trans hmode'.symm
      have eprog := hprog.trans hprog'.symm
      cases m₁; cases m₂; simp_all

/-- A truncated quotient is no larger than what was divided. -/
lemma tdiv_bounds {a : Int} (h : -999 ≤ a ∧ a ≤ 999) (v : Int) :
    -999 ≤ a.tdiv v ∧ a.tdiv v ≤ 999 := by
  have hle := Int.natAbs_tdiv_le_natAbs a v
  omega

/-- A truncated remainder is no larger than what was divided. -/
lemma tmod_bounds {a : Int} (h : -999 ≤ a ∧ a ≤ 999) (v : Int) :
    -999 ≤ a.tmod v ∧ a.tmod v ≤ 999 := by
  have hle := Int.natAbs_tmod a v
  have hmod := Nat.mod_le a.natAbs v.natAbs
  omega

/-- A word is zero exactly if its value is. -/
lemma word_eq_zero_iff (w : Word) : w = 0 ↔ w.toInt = 0 := by
  rw [← Int16.toInt_inj, Int16.toInt_zero]

/-- A register with a value waiting holds it, clipped; the others keep theirs. -/
lemma toInt_write (rs : Registers) (w : Writes) (r : Register) :
    ((rs.write w).get r).toInt = ((w.get r).map clip).getD (rs.get r).toInt := by
  rw [Registers.get_write]
  cases w.get r with
  | none => rfl
  | some v => exact toInt_saturate v

/-- The commit of an instruction leaves the registers that the opcode means. -/
lemma toInt_commit_register {m : Machine} (h : m.registers.InRange) (i : Instruction)
    (position : Pointer) (r : Register) :
    ((m.commit (m.dispatch i position)).registers.get r).toInt =
      registers (fun s => (m.registers.get s).toInt) (i.argument.resolve m.registers).toInt
        i.opcode r := by
  have ha := h .a
  have clip_of_bounds {v : Int} (hv : -999 ≤ v ∧ v ≤ 999) : clip v = v := by
    rw [clip]; omega
  -- the old accumulator is in range, so the loads of `B`, `C` and `D` do not clip it
  have hclip := clip_of_bounds ha
  rw [commit_registers, dispatch, show m.registers.a = m.registers.get .a from rfl]
  generalize i.argument.resolve m.registers = arg
  cases i.opcode
  case dvm =>
    dsimp only
    by_cases hz : arg = 0
    · rw [if_pos hz, (word_eq_zero_iff arg).1 hz]
      cases r <;> rfl
    · have hz' : arg.toInt ≠ 0 := fun e => hz ((word_eq_zero_iff arg).2 e)
      have hq := clip_of_bounds (tdiv_bounds ha arg.toInt)
      have hr := clip_of_bounds (tmod_bounds ha arg.toInt)
      rw [if_neg hz]
      cases r <;> simp [hz', hq, hr, registers, toInt_write, Writes.get]
  case crd | crj =>
    dsimp only
    rw [changeCard]
    split <;> cases r <;> rfl
  all_goals
    cases r <;> simp [jump, registers, toInt_write, Writes.get, hclip]

/-- The commit of an instruction leaves the mode that the opcode means. -/
lemma commit_mode_eq (m : Machine) (i : Instruction) (position : Pointer) :
    (m.commit (m.dispatch i position)).mode =
      mode m.mode (i.argument.resolve m.registers) i.opcode := by
  rw [commit_mode, dispatch]
  generalize i.argument.resolve m.registers = arg
  cases i.opcode
  case dvm =>
    dsimp only
    split <;> rfl
  case crd | crj =>
    dsimp only
    rw [changeCard]
    split <;> rfl
  all_goals rfl

/-- Once the card is settled, a commit leaves that card and the position modulo its length. -/
lemma commit_place_of_card {m : Machine} (h : Addressable m.program.cards) {p : Pending}
    {card : Pointer} (hcard : (m.applyUnlessFault p).card = card)
    (hlt : card.val < m.program.cardCount) {position : Nat}
    (hip : floorMod (p.nextIp + if p.advance then 1 else 0) (m.program.cardLength card) = position) :
    ((m.commit p).card.val, (m.commit p).ip.val) = (card.val, position) := by
  have ecard : (m.commit p).card = card := by
    rw [commit_card, homeCard_eq_self (by rwa [hcard, applyUnlessFault_program]), hcard]
  have eip := val_commit_ip h p
  rw [commit_program, ecard, hip] at eip
  rw [ecard, Int.ofNat_inj.1 eip]

/-- Without a card to go to, a commit stays on the card. -/
lemma commit_place_of_stay {m : Machine} (h : Addressable m.program.cards)
    (hlt : m.card < m.program.cardCount) {p : Pending} {position : Nat} (hnext : p.nextCard = none)
    (hip : floorMod (p.nextIp + if p.advance then 1 else 0) (m.program.cardLength m.card) = position) :
    ((m.commit p).card.val, (m.commit p).ip.val) = (m.card.val, position) := by
  refine commit_place_of_card h ?_ hlt hip
  rw [applyUnlessFault]
  split
  · rw [apply, hnext]; rfl
  · rfl

/-- With a card to go to, a commit goes there. -/
lemma commit_place_of_change {m : Machine} (h : Addressable m.program.cards) {p : Pending}
    {card : Pointer} (hlt : card.val < m.program.cardCount) {position : Nat} (hfault : p.fault = none)
    (hnext : p.nextCard = some card)
    (hip : floorMod (p.nextIp + if p.advance then 1 else 0) (m.program.cardLength card) = position) :
    ((m.commit p).card.val, (m.commit p).ip.val) = (card.val, position) := by
  refine commit_place_of_card h ?_ hlt hip
  rw [applyUnlessFault, if_pos (by rw [hfault]; rfl), apply, hnext]
  rfl

/-- The position after `k`, going round. -/
lemma floorMod_succ {k len : Nat} (h : k < len) :
    floorMod ((k : Int) + 1) len = ((k + 1) % len : Nat) := by
  rw [floorMod, if_neg (by omega), Int.natCast_emod, Int.natCast_add]
  rfl

/-- A position on the card stays. -/
lemma floorMod_of_lt {k len : Nat} (h : k < len) : floorMod ((k : Int) + 0) len = k := by
  rw [floorMod, if_neg (by omega), Int.add_zero]
  exact Int.emod_eq_of_lt (by omega) (by omega)

/-- A position on another card. -/
lemma floorMod_eq_wrapped (k len : Nat) : floorMod ((k : Int) + 0) len = wrapped k len := by
  rw [floorMod, wrapped, Int.add_zero]
  split
  · rfl
  · exact (Int.natCast_emod k len).symm

/-- A jump lands where it says, if that is on the card, and past the end or before the start it lands
at the start. -/
lemma floorMod_clampJump (target : Int) {len : Nat} (h : 0 < len) :
    floorMod (clampJump target len + 0) len = landing target len := by
  rw [floorMod, if_neg (by omega), clampJump, landing, Int.add_zero]
  split
  case isTrue ht =>
    rw [Int.emod_eq_of_lt (by omega) (by omega)]
    omega
  case isFalse ht =>
    -- the clamp stops at the start or at the end of the card, and the end is the start again
    have hend : max 0 (min target len) = 0 ∨ max 0 (min target len) = (len : Int) := by omega
    rcases hend with e | e
    · rw [e]; rfl
    · rw [e, Int.emod_self]; rfl

/-- A change of card goes to a card that exists, to its start or to the same position on it; else
the machine stays where it is. -/
lemma commit_changeCard {m : Machine} (h : Addressable m.program.cards)
    (hcard : m.card < m.program.cardCount) {k : Nat} {position : Pointer}
    (hk : k < m.program.cardLength m.card) (hpos : (position.val : Int) = k) (arg : Word)
    (rewind : Bool) :
    ((m.commit (m.changeCard position arg rewind)).card.val,
      (m.commit (m.changeCard position arg rewind)).ip.val) =
      if 0 ≤ arg.toInt ∧ arg.toInt < m.program.cardCount then
        (arg.toInt.toNat, if rewind then 0 else wrapped k (m.program.cardLength arg.toInt.toNat))
      else (m.card.val, k) := by
  rw [changeCard]
  by_cases hvalid : cardTargetValid arg.toInt m.program.cardCount = true
  · have hval := val_narrow_card h hvalid
    rw [if_pos hvalid]
    simp only [cardTargetValid, Bool.and_eq_true, decide_eq_true_eq] at hvalid
    have htarget : (Pointer.narrow arg.toInt).val = arg.toInt.toNat := by omega
    rw [if_pos hvalid, ← htarget]
    refine commit_place_of_change h (by omega) rfl rfl ?_
    cases rewind with
    | true =>
      have hstart := floorMod_eq_wrapped 0 (m.program.cardLength (Pointer.narrow arg.toInt))
      rwa [wrapped, Nat.zero_mod, ite_self] at hstart
    | false =>
      show floorMod ((position.val : Int) + 0) _ = (wrapped k _ : Nat)
      rw [hpos, floorMod_eq_wrapped]
  · rw [if_neg hvalid]
    simp only [cardTargetValid, Bool.and_eq_true, decide_eq_true_eq] at hvalid
    rw [if_neg hvalid]
    refine commit_place_of_stay h hcard rfl ?_
    show floorMod ((position.val : Int) + 0) _ = k
    rw [hpos, floorMod_of_lt hk]

/-- The commit of an instruction leaves the machine at the place that the opcode means. -/
lemma commit_place {m : Machine} (h : Addressable m.program.cards)
    (hcard : m.card < m.program.cardCount) {k : Nat} (hk : k < m.program.cardLength m.card)
    (i : Instruction) :
    ((m.commit (m.dispatch i (.narrow k))).card.val, (m.commit (m.dispatch i (.narrow k))).ip.val) =
      place m.program m.card k (i.argument.resolve m.registers).toInt i.opcode := by
  have hlen := h.cardLength_le m.card
  have hlimit : addressableLimit = 256 := rfl
  have hpos : ((Pointer.narrow k).val : Int) = k := Pointer.val_narrow (by omega) (by omega)
  have hnext : floorMod (((Pointer.narrow k).val : Int) + 1) (m.program.cardLength m.card) =
      ((k + 1) % m.program.cardLength m.card : Nat) := by
    rw [hpos, floorMod_succ hk]
  rw [dispatch]
  generalize i.argument.resolve m.registers = arg
  cases i.opcode
  case jmp =>
    refine commit_place_of_stay h hcard rfl ?_
    exact floorMod_clampJump _ (by omega)
  case jby =>
    refine commit_place_of_stay h hcard rfl ?_
    show floorMod (clampJump ((Pointer.narrow k).val + arg.toInt) _ + 0) _ = _
    rw [hpos]
    exact floorMod_clampJump _ (by omega)
  case dvm =>
    dsimp only
    split
    · exact commit_place_of_stay h hcard rfl hnext
    · exact commit_place_of_stay h hcard rfl hnext
  case crd => exact commit_changeCard h hcard hk hpos arg true
  case crj => exact commit_changeCard h hcard hk hpos arg false
  all_goals exact commit_place_of_stay h hcard rfl hnext

/-- A commit does not look at the instruction pointer. -/
lemma commit_withIp (m : Machine) (ip : Pointer) (p : Pending) :
    { m with ip }.commit p = m.commit p := by
  rw [commit_eq, commit_eq, applyUnlessFault, applyUnlessFault]
  split <;> rw [Machine.normalize, Machine.normalize, homeCard_eq, homeCard_eq] <;> rfl

/-- Where no peripheral is plugged in, a call finds nobody and the machine moves on. -/
lemma makeCall_noPeripherals (config : Config) (m : Machine) {p : Pending} {v : Word}
    (h : p.slot = some v) : m.makeCall config NoPeripherals.mk p =
      ({ p with advance := true, nextIp := (p.position.val : Int) }, { m with ip := p.position },
        NoPeripherals.mk) := by
  have hreply : { m with ip := p.position }.callSlot config NoPeripherals.mk v =
      ⟨true, NoPeripherals.mk, { m with ip := p.position }⟩ := by
    rw [callSlot]
    split <;> rfl
  rw [makeCall, h]
  dsimp only
  rw [hreply]

/-- Without peripherals an instruction is committed as it was dispatched, and its outcome is the one
the opcode means. -/
lemma runInstruction_noPeripherals (config : Config) (m : Machine) (k : Nat) (i : Instruction)
    (log : Log) :
    (m.runInstruction config NoPeripherals.mk k i log).machine =
      m.commit (m.dispatch i (.narrow k)) ∧
    (m.runInstruction config NoPeripherals.mk k i log).outcome =
      outcome (i.argument.resolve m.registers).toInt i.opcode := by
  rw [runInstruction_machine, runInstruction_outcome, outcome]
  have hfault := dispatch_fault m i (.narrow k)
  simp only [word_eq_zero_iff] at hfault
  cases hslot : (m.dispatch i (.narrow k)).slot with
  | none =>
    rw [makeCall_of_slot_eq_none hslot, hfault]
    refine ⟨rfl, ?_⟩
    by_cases hz : i.opcode = .dvm ∧ (i.argument.resolve m.registers).toInt = 0
    · rw [if_pos hz, if_pos hz]
    · rw [if_neg hz, if_neg hz]
  | some v =>
    rw [makeCall_noPeripherals config m hslot, hfault]
    obtain ⟨hop, hdispatch⟩ := dispatch_of_slot hslot
    rw [hop, hdispatch]
    exact ⟨commit_withIp m _ _, rfl⟩

/-- What a step does is what it means. -/
lemma executes_execute (config : Config) {m : Machine} (wf : m.WellFormed) :
    Executes m (m.execute config NoPeripherals.mk).outcome
      (m.execute config NoPeripherals.mk).machine := by
  have hhome := homeCard_eq m
  have hcards (h : m.program.isEmpty = false) : m.program.cards ≠ [] := by
    simpa [Program.isEmpty] using h
  have hcurrent := homeCard_currentCard m
  rw [execute]
  rcases step_cases config m NoPeripherals.mk none with
    ⟨hp, e⟩ | ⟨hp, hc, e⟩ | ⟨hp, hc, hall, e⟩ | ⟨k, i, hp, first, e⟩
  · rw [e]
    exact .emptyProgram (by simpa [Program.isEmpty] using hp)
  · rw [e, hhome]
    exact .emptyCard (hcards hp) (hcurrent ▸ hc)
  · rw [e, hhome]
    rw [hcurrent] at hc hall
    exact .noneEligible (hcards hp) hc hall
  -- the instruction runs on the machine at home, which differs from `m` in the card alone
  · obtain ⟨hmachine, houtcome⟩ := runInstruction_noPeripherals config m.homeCard k i none
    have hplace := commit_place (m := m.homeCard) (by rw [homeCard_program]; exact wf.program)
      (by rw [homeCard_program]; exact homeCard_lt hp) first.lt i
    have hregs := toInt_commit_register (m := m.homeCard)
      (by rw [homeCard_registers]; exact wf.registers) i (.narrow k)
    have hmode := commit_mode_eq m.homeCard i (.narrow k)
    have hprogram := commit_program m.homeCard (m.homeCard.dispatch i (.narrow k))
    rw [← hmachine] at hplace hregs hmode hprogram
    rw [hhome] at hplace hregs hmode hprogram
    rw [e, houtcome, hhome]
    exact .ran (hcards hp) (hcurrent ▸ first) (toInt_resolve m.registers i.argument) hplace hregs hmode
      hprogram

end Semantics

/-- Without peripherals, one step of a well-formed machine does exactly what the instructions mean:
whatever comes out of it is what `Executes` allows, and what `Executes` allows comes out. -/
theorem execute_iff_executes (config : Config) {m : Machine} (wf : m.WellFormed)
    (outcome : StepOutcome) (m' : Machine) :
    ((m.execute config NoPeripherals.mk).outcome = outcome ∧
      (m.execute config NoPeripherals.mk).machine = m') ↔ Semantics.Executes m outcome m' := by
  have means := Semantics.executes_execute config wf
  constructor
  · rintro ⟨rfl, rfl⟩
    exact means
  · exact means.unique

/-- Both pointers are astray, and `C` allows only the division, whose divisor is the register that
takes the remainder. -/
def strayDivider : Machine :=
  { ip := .narrow 5
    card := .narrow 200
    registers := { a := -7, b := 2, c := -3 }
    program := ⟨[[⟨.add, .literal 1, some .pos⟩, ⟨.dvm, .register .b, some .neg⟩]]⟩ }

/-- The same, but `C` allows only the addition of a literal. -/
def strayAdder : Machine := { strayDivider with registers := { a := -7, b := 2, c := 3 } }

/-- The division truncates, and the pointers come back to the start of the first card. The addition takes
the literal for its value. -/
theorem strayDivider_executes :
    strayDivider.WellFormed ∧ strayAdder.WellFormed ∧
      Semantics.Executes strayDivider (.retired .dvm)
        { strayDivider with
          ip := 0, card := 0, registers := { a := -3, b := -1, c := -3 } } ∧
      Semantics.Executes strayAdder (.retired .add)
        { strayAdder with
          ip := 1, card := 0, registers := { a := -6, b := 2, c := 3 } } := by
  have wf : strayDivider.WellFormed := ⟨by intro r; cases r <;> decide, by decide⟩
  have wf' : strayAdder.WellFormed := ⟨by intro r; cases r <;> decide, by decide⟩
  exact ⟨wf, wf', (execute_iff_executes {} wf _ _).1 ⟨rfl, rfl⟩,
    (execute_iff_executes {} wf' _ _).1 ⟨rfl, rfl⟩⟩

end CardMachine
