import CardMachine.Proofs.Selected
import Mathlib.Logic.Equiv.Basic

/-!
# Arithmetic without loss

A division is exact: what it leaves in `A` and `B` is the quotient, cut off towards zero, and the
remainder, whichever register the divisor came from, and neither had to be saturated (`Truncates`).

The values that an instruction wants written are products of a register and a word at most
(`dispatch_modest`), and the pointer that it wants to go to is on the longest card or right behind it
(`dispatch_nextIp_bounds`). So a machine that has only 64 bits for what it computes never runs out of
them: `dispatch64?` and `commit64?` stop at an overflow, and none comes up.

A roll of a backup register into `A` is an exchange (`get_of_exchanges`), and its own inverse.
-/

namespace CardMachine

/-- `q` and `r` are the quotient and the remainder of `a` by `v`, cut off towards zero. -/
structure Truncates (a v q r : Int) : Prop where
  recovers : a = q * v + r
  small : r.natAbs < v.natAbs
  sign : r = 0 ∨ r.sign = a.sign

/-- The division that cuts off towards zero has the quotient and the remainder of `Truncates`. -/
lemma truncates_tdiv_tmod (a : Int) {v : Int} (h : v ≠ 0) : Truncates a v (a.tdiv v) (a.tmod v) := by
  refine ⟨?_, ?_, ?_⟩
  · rw [Int.mul_comm, Int.mul_tdiv_add_tmod]
  · rw [Int.natAbs_tmod]
    exact Nat.mod_lt _ (Int.natAbs_pos.2 h)
  · by_cases hdvd : v ∣ a
    · exact .inl (Int.tmod_eq_zero_of_dvd hdvd)
    · rw [Int.sign_tmod, if_neg hdvd]
      exact .inr rfl

/-- A value no greater than the product of a register and a word, whatever its sign. -/
def Modest (v : Int) : Prop := -(999 * 32768) ≤ v ∧ v ≤ 999 * 32768

/-- A value, if 64 bits can hold it. -/
def fits64? (v : Int) : Option Int :=
  if -9223372036854775808 ≤ v ∧ v ≤ 9223372036854775807 then some v else none

/-- A modest number fits into 64 bits. -/
lemma Modest.fits64? {v : Int} (h : Modest v) : fits64? v = some v := by
  rw [Modest] at h
  exact if_pos ⟨by omega, by omega⟩

/-- What the machine computes from a register and a word is modest. -/
structure ModestResults (a v : Int) : Prop where
  register : Modest a
  word : Modest v
  add : Modest (a + v)
  sub : Modest (a - v)
  mul : Modest (a * v)
  tdiv : Modest (a.tdiv v)
  tmod : Modest (a.tmod v)

/-- A register in range and a word make modest results. -/
lemma modestResults {a : Int} (ha : -999 ≤ a ∧ a ≤ 999) (w : Word) : ModestResults a w.toInt := by
  have lo := w.le_toInt
  have hi := w.toInt_lt
  have hmul : a.natAbs * w.toInt.natAbs ≤ 999 * 32768 := Nat.mul_le_mul (by omega) (by omega)
  have habs := Int.natAbs_mul a w.toInt
  have hdiv := Semantics.tdiv_bounds ha w.toInt
  have hmod := Semantics.tmod_bounds ha w.toInt
  constructor <;> rw [Modest] <;> omega

/-- The instruction rolls a backup register into `A`, and `A` into that register. -/
inductive Instruction.Exchanges : Instruction → Register → Prop where
  | b {flag} : Exchanges ⟨.rlb, .register .b, flag⟩ .b
  | c {flag} : Exchanges ⟨.rlc, .register .c, flag⟩ .c
  | d {flag} : Exchanges ⟨.rld, .register .d, flag⟩ .d

namespace Machine

/-- What an instruction wants done, computed with 64 bits. -/
def dispatch64? (m : Machine) (i : Instruction) (position : Pointer) : Option Pending :=
  let arg := i.argument.resolve m.registers
  let a := m.registers.a.toInt
  match i.opcode with
  | .add => (fits64? (a + arg.toInt)).map fun v => { position, writes := { a := some v } }
  | .sub => (fits64? (a - arg.toInt)).map fun v => { position, writes := { a := some v } }
  | .mul => (fits64? (a * arg.toInt)).map fun v => { position, writes := { a := some v } }
  | .dvm =>
    if arg = 0 then some { position, fault := some .divideByZero }
    else do
      let q ← fits64? (a.tdiv arg.toInt)
      let r ← fits64? (a.tmod arg.toInt)
      return { position, writes := { a := some q, b := some r } }
  | .jby => (fits64? (position.val + arg.toInt)).map (m.jump position)
  -- the others compute nothing
  | _ => some (m.dispatch i position)

/-- Does what is pending, where to go computed with 64 bits. -/
def commit64? (m : Machine) (p : Pending) : Option Machine :=
  (fits64? (p.nextIp + if p.advance then 1 else 0)).map (m.applyUnlessFault p).normalize

variable {m : Machine}

/-- What an instruction leaves for a register is modest. -/
lemma dispatch_modest (h : m.registers.InRange) (i : Instruction) (position : Pointer)
    {r : Register} {v : Int} (hv : (m.dispatch i position).writes.get r = some v) : Modest v := by
  have results := modestResults (h .a) (i.argument.resolve m.registers)
  rw [dispatch] at hv
  generalize i.argument.resolve m.registers = arg at hv results
  generalize i.opcode = opcode at hv
  cases opcode
  case add => cases r <;> cases hv; exact results.add
  case sub => cases r <;> cases hv; exact results.sub
  case mul => cases r <;> cases hv; exact results.mul
  case dvm =>
    dsimp only at hv
    split at hv
    · cases r <;> cases hv
    · cases r <;> cases hv
      · exact results.tdiv
      · exact results.tmod
  case lda => cases r <;> cases hv; exact results.word
  case rlb | rlc | rld =>
    cases r <;> cases hv
    · exact results.word
    · exact results.register
  case crd | crj =>
    dsimp only at hv
    rw [changeCard] at hv
    split at hv <;> cases r <;> cases hv
  all_goals cases r <;> cases hv

/-- The position that an instruction goes to is reckoned between 0 and 256. -/
lemma dispatch_nextIp_bounds (haddr : Addressable m.program.cards) (i : Instruction)
    (position : Pointer) :
    0 ≤ (m.dispatch i position).nextIp ∧ (m.dispatch i position).nextIp ≤ 256 := by
  have hposition := position.isLt
  have hlength : m.program.cardLength m.card ≤ 256 := haddr.cardLength_le m.card
  have hjump (target : Int) : 0 ≤ (m.jump position target).nextIp ∧
      (m.jump position target).nextIp ≤ 256 := by
    dsimp only [jump, clampJump]
    omega
  rw [dispatch]
  cases i.opcode
  case jmp => exact hjump _
  case jby => exact hjump _
  case dvm =>
    dsimp only
    split <;> dsimp only <;> omega
  case crd | crj =>
    dsimp only
    rw [changeCard]
    split <;> dsimp only <;> omega
  all_goals
    dsimp only
    omega

/-- Reckoned in 64 bits an instruction does what it does in whole numbers. -/
lemma dispatch64?_eq (h : m.registers.InRange) (i : Instruction) (position : Pointer) :
    m.dispatch64? i position = some (m.dispatch i position) := by
  have results := modestResults (h .a) (i.argument.resolve m.registers)
  -- a relative jump starts from a position, which is less than a register may hold
  have htarget : Modest (position.val + (i.argument.resolve m.registers).toInt) := by
    have lo := (i.argument.resolve m.registers).le_toInt
    have hi := (i.argument.resolve m.registers).toInt_lt
    have hposition := position.isLt
    rw [Modest]
    omega
  rw [dispatch64?, dispatch]
  generalize i.argument.resolve m.registers = arg at results htarget
  cases i.opcode
  case add => exact congrArg (Option.map _) results.add.fits64?
  case sub => exact congrArg (Option.map _) results.sub.fits64?
  case mul => exact congrArg (Option.map _) results.mul.fits64?
  case dvm =>
    dsimp only
    split
    · rfl
    · rw [show m.registers.a = m.registers.get .a from rfl, results.tdiv.fits64?, results.tmod.fits64?]
      rfl
  case jby => exact congrArg (Option.map _) htarget.fits64?
  all_goals rfl

/-- Where to go is known with 64 bits, if it is on a card or right behind it. -/
lemma commit64?_eq {p : Pending} (h : 0 ≤ p.nextIp ∧ p.nextIp ≤ 256) (m : Machine) :
    m.commit64? p = some (m.commit p) := by
  have hmodest : Modest (p.nextIp + if p.advance then 1 else 0) := by
    rw [Modest]
    split <;> omega
  rw [commit64?, hmodest.fits64?, commit_eq]
  rfl

variable {β : Type} [Provider β] {k : Nat} {i : Instruction}

/-- After a call the pointer goes on from where the peripheral left it, which is some position. -/
lemma makeCall_nextIp_bounds {p : Pending} (h : 0 ≤ p.nextIp ∧ p.nextIp ≤ 256) (config : Config)
    (m : Machine) (devices : β) :
    0 ≤ (m.makeCall config devices p).1.nextIp ∧ (m.makeCall config devices p).1.nextIp ≤ 256 := by
  rw [makeCall]
  split
  · exact h
  · dsimp only
    omega

/-- A division leaves the quotient and the remainder as they were computed. -/
lemma execute_of_division (h : m.registers.InRange) (selects : m.Selects k i) (hop : i.opcode = .dvm)
    (hv : Semantics.argument (fun s => (m.registers.get s).toInt) i.argument ≠ 0) (config : Config)
    (devices : β) :
    let v := Semantics.argument (fun s => (m.registers.get s).toInt) i.argument
    let q := (m.execute config devices).machine.registers.a.toInt
    let r := (m.execute config devices).machine.registers.b.toInt
    Truncates m.registers.a.toInt v q r ∧
      (m.homeCard.dispatch i (.narrow k)).writes = { a := some q, b := some r } := by
  have hregister := toInt_register_of_selects h selects (by rw [hop]; nofun) config devices
  rw [hop] at hregister
  rw [← Semantics.toInt_resolve] at hv ⊢
  have hq : (m.execute config devices).machine.registers.a.toInt = m.registers.a.toInt.tdiv _ :=
    (hregister .a).trans (if_neg hv)
  have hr : (m.execute config devices).machine.registers.b.toInt = m.registers.a.toInt.tmod _ :=
    (hregister .b).trans (if_neg hv)
  dsimp only
  rw [hq, hr]
  refine ⟨truncates_tdiv_tmod _ hv, ?_⟩
  rw [dispatch, hop, homeCard_registers]
  dsimp only
  rw [if_neg fun e => hv ((Semantics.word_eq_zero_iff _).1 e)]

/-- An exchange puts each register where the other was. -/
lemma get_of_exchanges (h : m.registers.InRange) (selects : m.Selects k i) {r : Register}
    (exchanges : i.Exchanges r) (config : Config) (devices : β) (s : Register) :
    (m.execute config devices).machine.registers.get s = m.registers.get (Equiv.swap .a r s) := by
  -- both values come out of registers, so there is nothing to clip
  have hclip (s : Register) : Semantics.clip (m.registers.get s).toInt = (m.registers.get s).toInt := by
    have hs := h s
    rw [Semantics.clip]
    omega
  have hop : i.opcode ≠ .phl := by cases exchanges <;> simp
  apply Int16.toInt.inj
  rw [toInt_register_of_selects h selects hop]
  cases exchanges <;> cases s <;> first | exact hclip _ | rfl

/-- A second exchange undoes the first. -/
lemma registers_of_exchanges_twice (h : m.registers.InRange) (selects : m.Selects k i) {r : Register}
    (exchanges : i.Exchanges r) (config config' : Config) (devices devices' : β) {k' : Nat}
    {i' : Instruction} (selects' : (m.execute config devices).machine.Selects k' i') (exchanges' : i'.Exchanges r) :
    ((m.execute config devices).machine.execute config' devices').machine.registers = m.registers := by
  have once := get_of_exchanges h selects exchanges config devices
  have h' : (m.execute config devices).machine.registers.InRange := by
    intro s
    rw [once]
    exact h _
  apply Registers.ext_toInt
  intro s
  rw [get_of_exchanges h' selects' exchanges', once, Equiv.swap_apply_self]

end Machine

/-- Arithmetic is exact. A division faults if the divisor is zero, and else it leaves the quotient and the
remainder, neither of them saturated. What any instruction computes is far from the limits of 64 bits. A
roll of a backup register into `A` is an exchange, and two of them leave everything as it was. -/
theorem arithmetic_is_exact {β : Type} [Provider β] {m : Machine} (h : m.registers.InRange)
    (config : Config) (devices : β) :
    (∀ k i, m.Selects k i → i.opcode = .dvm →
      let v := Semantics.argument (fun s => (m.registers.get s).toInt) i.argument
      let turn := m.execute config devices
      turn.outcome = (if v = 0 then .fault .divideByZero else .retired .dvm) ∧
      (v ≠ 0 →
        let q := turn.machine.registers.a.toInt
        let r := turn.machine.registers.b.toInt
        Truncates m.registers.a.toInt v q r ∧
          (m.homeCard.dispatch i (.narrow k)).writes = { a := some q, b := some r })) ∧
    (∀ i position,
      (∀ r v, (m.dispatch i position).writes.get r = some v → Modest v) ∧
      m.dispatch64? i position = some (m.dispatch i position) ∧
      (Addressable m.program.cards →
        let (pending, called, _) := m.makeCall config devices (m.dispatch i position)
        (0 ≤ (m.dispatch i position).nextIp ∧ (m.dispatch i position).nextIp ≤ 256) ∧
          called.commit64? pending = some (called.commit pending))) ∧
    (∀ k i r, m.Selects k i → i.Exchanges r →
      let m' := (m.execute config devices).machine
      (∀ s, m'.registers.get s = m.registers.get (Equiv.swap .a r s)) ∧
      ∀ (config' : Config) (devices' : β) k' i', m'.Selects k' i' → i'.Exchanges r →
        (m'.execute config' devices').machine.registers = m.registers) := by
  refine ⟨?_, ?_, ?_⟩
  · intro k i selects hop v turn
    have houtcome : turn.outcome = Semantics.outcome v i.opcode := by
      have e := Machine.execute_of_selects selects (by rw [hop]; nofun) config devices
      rw [Semantics.toInt_resolve] at e
      exact congrArg Turn.outcome e
    rw [hop] at houtcome
    refine ⟨?_, fun hv => ?_⟩
    · rw [houtcome, Semantics.outcome]
      simp
    · exact Machine.execute_of_division h selects hop hv config devices
  · intro i position
    refine ⟨fun r v => Machine.dispatch_modest h i position, Machine.dispatch64?_eq h i position, ?_⟩
    intro haddr
    have hbounds := Machine.dispatch_nextIp_bounds haddr i position
    exact ⟨hbounds, Machine.commit64?_eq (Machine.makeCall_nextIp_bounds hbounds config m devices) _⟩
  · intro k i r selects exchanges m'
    refine ⟨Machine.get_of_exchanges h selects exchanges config devices, ?_⟩
    intro config' devices' k' i' selects' exchanges'
    exact Machine.registers_of_exchanges_twice h selects exchanges config config' devices devices' selects'
      exchanges'

/-- Divides by the register that takes the remainder. -/
def selfDivider : Machine :=
  { registers := { a := -999, b := -7 }
    program := ⟨[[⟨.dvm, .register .b, none⟩]]⟩ }

/-- Exchanges the accumulator with the register that conditions look at. -/
def exchanger : Machine :=
  { registers := { a := 5, c := -3 }
    program := ⟨[[⟨.rlc, .register .c, some .neg⟩, ⟨.rlc, .register .c, some .pos⟩]]⟩ }

/-- The remainder has the sign of what was divided, though the divisor was in its place; the widest product
fits; and a second exchange, under the opposite condition, undoes the first. -/
theorem selfDivider_and_exchanger_exact :
    let turn := selfDivider.execute {} NoPeripherals.mk
    let exchanged := (exchanger.execute {} NoPeripherals.mk).machine
    let product : Instruction := ⟨.mul, .literal (-32768), none⟩
    selfDivider.registers.InRange ∧ exchanger.registers.InRange ∧
      turn.outcome = .retired .dvm ∧
      turn.machine.registers.a = 142 ∧ turn.machine.registers.b = -5 ∧
      Truncates (-999) (-7) 142 (-5) ∧
      selfDivider.dispatch64? product .zero =
        some { position := .zero, writes := { a := some (999 * 32768) } } ∧
      exchanged.registers = { a := -3, c := 5 } ∧
      (exchanged.execute {} NoPeripherals.mk).machine.registers = exchanger.registers := by
  intro turn exchanged product
  have hdivider : selfDivider.registers.InRange := by intro r; cases r <;> decide
  have hexchanger : exchanger.registers.InRange := by intro r; cases r <;> decide
  obtain ⟨hdivide, hfits, -⟩ := arithmetic_is_exact hdivider {} NoPeripherals.mk
  obtain ⟨-, -, hexchange⟩ := arithmetic_is_exact hexchanger {} NoPeripherals.mk
  obtain ⟨houtcome, hexact⟩ := hdivide 0 ⟨.dvm, .register .b, none⟩
    (Card.select_eq_selected_iff.1 (by decide)) rfl
  obtain ⟨-, hback⟩ := hexchange 0 ⟨.rlc, .register .c, some .neg⟩ .c
    (Card.select_eq_selected_iff.1 (by decide)) .c
  refine ⟨hdivider, hexchanger, houtcome, rfl, rfl, (hexact (by decide)).1, ?_, rfl, ?_⟩
  · exact (hfits product .zero).2.1
  · exact hback {} NoPeripherals.mk 1 ⟨.rlc, .register .c, some .pos⟩
      (Card.select_eq_selected_iff.1 (by decide)) .c

end CardMachine
