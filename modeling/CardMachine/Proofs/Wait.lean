import CardMachine.Proofs.Ownership
import CardMachine.Proofs.Reach
import CardMachine.Proofs.Selected

/-!
# How long a wait for a timer lasts

A wait is offered each tick, and of several timers the one in the lowest slot takes it, whichever started
it (`offerTo_of_lowest`). It counts the wait down, one each tick, and gives the machine back in the last,
so that a wait of `n` ticks takes exactly `n`, or one if `n` is no more than that (`waitsFor`). Only then
is the wait counted, and only by that timer.

A call of a timer while `D` is positive starts a wait of `D` ticks, and otherwise tells how many waits are
over (`call_eq`). In both cases the machine moves on past the call (`execute_of_call`).
-/

namespace CardMachine

variable {κ π : Type}

namespace Bank

/-- The lowest slot that is not empty, and what is in it. -/
structure Lowest (bank : Bank π) (slot : Slot) (p : π) : Prop where
  occupied : bank.get? slot = some p
  empty : ∀ lower : Slot, lower < slot → bank.get? lower = none

/-- The lowest slot is below all that are occupied. -/
lemma Lowest.le {bank : Bank π} {slot slot' : Slot} {p p' : π} (h : bank.Lowest slot p)
    (occupied : bank.get? slot' = some p') : slot ≤ slot' := by
  refine Fin.not_lt.1 fun hlt => ?_
  rw [h.empty slot' hlt] at occupied
  cases occupied

/-- To put in what is there changes nothing. -/
lemma set_of_get? {bank : Bank π} {slot : Slot} {p : Option π} (h : bank.get? slot = p) :
    bank.set slot p = bank := by
  apply ext_get?
  intro slot'
  rw [get?_set]
  split
  · next e => rw [e, h]
  · rfl

end Bank

namespace Config

/-- The slots in reach are offered the mode from the lowest one up. -/
lemma pairwise_reach (config : Config) : config.reach.Pairwise (· < ·) :=
  (List.pairwise_lt_finRange slotLimit).sublist (List.take_sublist _ _)

/-- The number of a slot in reach calls that slot. -/
lemma slot?_of_lt {config : Config} {slot : Slot} (h : slot.val < config.slotCount) {v : Int}
    (hv : v = slot.val) : config.slot? v = some slot := by
  rw [slot?, dif_pos (by omega)]
  refine congrArg some (Fin.ext ?_)
  show v.toNat = slot.val
  omega

end Config

namespace Machine

/-- A mode that the lowest peripheral takes is offered to no other. -/
lemma offerTo_of_lowest [Peripheral π] {bank : Bank π} {slot : Slot} {p : π} (h : bank.Lowest slot p)
    {slots : List Slot} (sorted : slots.Pairwise (· < ·)) (hmem : slot ∈ slots) {m : Machine}
    (takes : (Peripheral.offer p m).answer = true) :
    m.offerTo bank slots = (some slot, (Peripheral.offer p m).machine,
      bank.set slot (some (Peripheral.offer p m).device)) := by
  induction slots with
  | nil => cases hmem
  | cons first rest ih =>
    obtain ⟨below, sorted⟩ := List.pairwise_cons.1 sorted
    rw [offerTo]
    rcases List.mem_cons.1 hmem with rfl | hmem
    · have hoffer : Provider.offer? bank slot m = some ⟨(Peripheral.offer p m).answer,
          bank.set slot (some (Peripheral.offer p m).device), (Peripheral.offer p m).machine⟩ :=
        congrArg (Option.map _) h.occupied
      rw [hoffer]
      dsimp only
      rw [if_pos takes]
    · have hoffer : Provider.offer? bank first m = none :=
        congrArg (Option.map _) (h.empty first (below slot hmem))
      rw [hoffer]
      exact ih sorted hmem

end Machine

namespace Timer

/-- A completed wait is counted, up to the greatest count. -/
lemma toNat_complete (t : Timer) : t.complete.completed.toNat = min (t.completed.toNat + 1) 4294967295 := by
  have hlt := t.completed.toNat_lt
  rw [complete]
  split
  · next h =>
    rw [h]
    decide
  · next h =>
    have hne : t.completed.toNat ≠ 4294967295 := fun e => h (UInt32.toNat_inj.1 e)
    rw [UInt32.toNat_add]
    have hone : (1 : UInt32).toNat = 1 := rfl
    omega

/-- The mode of a wait has no form of its own. -/
lemma waitPath_not_reserved : ModeId.own waitPath ∉ Mode.reserved := by decide +kernel

/-- What a call of a timer leaves: the mode of a wait while `D` is positive, and else the number of
completed waits in `A`. -/
lemma call_eq (t : Timer) (m : Machine) :
    t.call m = ⟨true, t, { m with
      registers := if 0 < m.registers.d.toInt then m.registers else m.registers.set .a t.completed.toNat
      mode := if 0 < m.registers.d.toInt then
          .other (.own waitPath)
            (ModeData.empty.insert remainingKey (.int (Int64.ofInt m.registers.d.toInt)))
        else m.mode }⟩ := by
  have hwait (data : ModeData) : (Mode.other (.own waitPath) data).canonical = .other (.own waitPath) data :=
    (Mode.eq_other_of_not_reserved (.other (.own waitPath) data) waitPath_not_reserved).2
  rw [call]
  dsimp only
  split
  · rw [Machine.setMode, hwait]
  · rfl

/-- A timer takes every tick of a wait: it counts down, and in the last one it counts the wait and gives the
machine back. -/
lemma offer_of_waiting (t : Timer) {m : Machine} (h : m.mode.id = .own waitPath) :
    t.offer m =
      let remaining := m.mode.number remainingKey
      if remaining.toInt ≤ 1 then ⟨true, t.complete, m.resume⟩
      else
        ⟨true, t,
          { m with mode := .other m.mode.id (m.mode.data.insert remainingKey (.int (remaining - 1))) }⟩ := by
  obtain ⟨hother, -⟩ := Mode.eq_other_of_not_reserved m.mode (by rw [h]; exact waitPath_not_reserved)
  have hown : m.mode.id.isOwn waitPath = true := ModeId.isOwn_iff.2 h
  rw [offer]
  split
  · next name data e =>
    rw [e] at hown ⊢
    rw [if_pos (show name.isOwn waitPath = true from hown)]
    rfl
  · next e => exact absurd hother (e _ _)

end Timer

namespace Machine

/-- A tick of a wait goes to the lowest timer, if that is in reach. -/
lemma tick_of_waiting {config : Config} {m : Machine} (h : m.mode.id = .own Timer.waitPath)
    {bank : Bank Timer} {slot : Slot} {t : Timer} (lowest : bank.Lowest slot t)
    (reach : slot.val < config.slotCount) :
    m.tick config bank =
      ⟨.modeClaimed slot, (t.offer m).machine, bank.set slot (some (t.offer m).device), none⟩ := by
  obtain ⟨-, hcanonical⟩ :=
    Mode.eq_other_of_not_reserved m.mode (by rw [h]; exact Timer.waitPath_not_reserved)
  have hself : m.canonicalize = m := by rw [canonicalize, hcanonical]
  have hexec : ¬ m.mode.isExecuting = true := by
    rw [← hcanonical, Mode.canonical_isExecuting_iff, h]
    decide +kernel
  have takes : (t.offer m).answer = true := by
    rw [t.offer_of_waiting h]
    dsimp only
    split <;> rfl
  rw [tick_eq, hself, ownTurn, if_neg hexec, offerMode,
    offerTo_of_lowest lowest config.pairwise_reach (Config.mem_reach_iff.2 reach) takes]
  rfl

/-- The machine moves on past the instruction at `k`, which a pointer can reach if the program is
addressable. -/
structure MovesPast (m : Machine) (k : Nat) (m' : Machine) : Prop where
  program : m'.program = m.program
  card : m'.card = m.homeCard.card
  ip : Addressable m.program.cards → m'.ip.val = (k + 1) % m.homeCard.currentCard.length

/-- A commit that changes nothing but registers and mode moves past the instruction. -/
lemma movesPast_commit {m : Machine} {k : Nat} {i : Instruction} (selects : m.Selects k i)
    (registers : Registers) (mode : Mode) (v : Word) :
    m.MovesPast k
      ({ m.homeCard with ip := .narrow k, registers, mode }.commit
        { position := .narrow k, slot := some v }) := by
  have hcard := homeCard_lt selects.isEmpty_eq_false
  rw [← homeCard_program m] at hcard
  refine ⟨?_, ?_, fun haddr => ?_⟩
  · rw [commit_program, homeCard_program]
  · rw [commit_card, homeCard_eq_self]
    · rfl
    · exact hcard
  · have hlt : k < m.homeCard.program.cardLength m.homeCard.card := selects.lt
    rw [← homeCard_program m] at haddr
    have hle := haddr.cardLength_le m.homeCard.card
    have hlimit : addressableLimit = 256 := rfl
    -- the position survives being narrowed to a pointer, and so does the next one
    have hpos : ((Pointer.narrow k).val : Int) = k := Pointer.val_narrow (by omega) (by omega)
    have hnext : floorMod (((Pointer.narrow k).val : Int) + 1)
        (m.homeCard.program.cardLength m.homeCard.card) =
          ((k + 1) % m.homeCard.program.cardLength m.homeCard.card : Nat) := by
      rw [hpos, Semantics.floorMod_succ hlt]
    have hplace := Semantics.commit_place_of_stay
      (m := { m.homeCard with ip := .narrow k, registers, mode }) haddr hcard
      (p := { position := .narrow k, slot := some v }) rfl hnext
    exact (Prod.mk.inj hplace).2

/-- A timer in reach is called by the number of its slot, and leaves itself as it is. -/
lemma callSlot_of_occupied {config : Config} {bank : Bank Timer} {slot : Slot} {t : Timer}
    (occupied : bank.get? slot = some t) (reach : slot.val < config.slotCount) {v : Word}
    (hv : v.toInt = slot.val) (m : Machine) :
    m.callSlot config bank v = ⟨true, bank, (t.call m).machine⟩ := by
  have hreply : Provider.call? bank slot m = some ⟨(t.call m).answer,
      bank.set slot (some (t.call m).device), (t.call m).machine⟩ :=
    congrArg (Option.map _) occupied
  rw [callSlot, Config.slot?_of_lt reach hv]
  dsimp only
  rw [hreply, t.call_eq, Bank.set_of_get? occupied]
  rfl

/-- A call of a timer that is in reach retires and leaves the timers as they are. The machine moves on
past it, with the registers and the mode that the timer leaves. -/
lemma execute_of_call {config : Config} {m : Machine} {k : Nat} {i : Instruction}
    (selects : m.Selects k i) (hop : i.opcode = .phl) {slot : Slot}
    (hslot : (i.argument.resolve m.registers).toInt = slot.val) (reach : slot.val < config.slotCount)
    {bank : Bank Timer} {t : Timer} (occupied : bank.get? slot = some t) :
    let turn := m.execute config bank
    turn.outcome = .retired .phl ∧ turn.devices = bank ∧ m.MovesPast k turn.machine ∧
      turn.machine.registers = (t.call m).machine.registers ∧
      turn.machine.mode = (t.call m).machine.mode := by
  have hdispatch : m.homeCard.dispatch i (.narrow k) =
      { position := .narrow k, slot := some (i.argument.resolve m.registers) } := by
    rw [dispatch, hop, homeCard_registers]
  have hcalled : (t.call { m.homeCard with ip := .narrow k }).machine =
      { m.homeCard with
        ip := .narrow k
        registers := (t.call m).machine.registers
        mode := (t.call m).machine.mode } := by
    rw [t.call_eq, t.call_eq, homeCard_registers, homeCard_mode]
  rw [execute, step_of_selects selects, runInstruction, hdispatch, makeCall]
  dsimp only
  rw [callSlot_of_occupied occupied reach hslot, hcalled, hop]
  refine ⟨rfl, rfl, movesPast_commit selects _ _ _, ?_, ?_⟩
  · rw [commit_registers]
    rfl
  · rw [commit_mode]
    rfl

end Machine

namespace Rig

/-- `q` is `r` waiting for a timer, with so many ticks of the wait to come. Nothing but the mode is
another. -/
def Waiting (r : Rig κ (Bank Timer)) (n : Nat) (q : Rig κ (Bank Timer)) : Prop :=
  ∃ mode, q = r.inMode mode ∧ mode.id = .own Timer.waitPath ∧
    (max (mode.number Timer.remainingKey).toInt 1).toNat = n

variable [Chassis κ]

/-- The machine of `r` waits through `n` ticks, all of them taken by the timer in a slot, and executes
again after the last. That timer counts one wait more, up to the greatest count there is, and no other
timer changes. -/
structure WaitsFor (config : Config) (r : Rig κ (Bank Timer)) (slot : Slot) (n : Nat) : Prop where
  answers : (r.serveAll config (.replicate n .tick)).answers =
    .replicate n (.tick (.modeClaimed slot))
  waiting : ∀ j < n, r.Waiting (n - j) (r.serveAll config (.replicate j .tick)).rig
  machine : (r.serveAll config (.replicate n .tick)).rig.machine = { r.machine with mode := .executing }
  body : (r.serveAll config (.replicate n .tick)).rig.body = r.body
  counted : ∃ t t', r.devices.get? slot = some t ∧
    (r.serveAll config (.replicate n .tick)).rig.devices.get? slot = some t' ∧
    t'.completed.toNat = min (t.completed.toNat + 1) 4294967295
  uncounted : ∀ slot' ≠ slot,
    (r.serveAll config (.replicate n .tick)).rig.devices.get? slot' = r.devices.get? slot'

variable {config : Config} {r q : Rig κ (Bank Timer)} {slot : Slot} {t : Timer}
  (lowest : r.devices.Lowest slot t) (reach : slot.val < config.slotCount)
include lowest reach

/-- A tick of a wait leaves one tick less to come. -/
lemma serve_of_waiting {n : Nat} (h : r.Waiting (n + 2) q) :
    (q.serve config .tick).answer = .tick (.modeClaimed slot) ∧
      r.Waiting (n + 1) (q.serve config .tick).rig := by
  obtain ⟨mode, rfl, hid, hn⟩ := h
  have lowest' : (r.inMode mode).devices.Lowest slot t := lowest
  rw [serve, Machine.tick_of_waiting hid lowest' reach,
    t.offer_of_waiting hid]
  dsimp only [inMode]
  rw [if_neg (by omega), Bank.set_of_get? lowest.occupied]
  refine ⟨rfl, _, rfl, hid, ?_⟩
  rw [Mode.number_insert, Mode.toInt_sub_one (by omega)]
  omega

/-- The last tick of a wait ends it, counts it and lets the machine go on. -/
lemma serve_of_waited (h : r.Waiting 1 q) :
    (q.serve config .tick).answer = .tick (.modeClaimed slot) ∧
      (q.serve config .tick).rig =
        ⟨{ r.machine with mode := .executing }, r.body, r.devices.set slot (some t.complete)⟩ := by
  obtain ⟨mode, rfl, hid, hn⟩ := h
  have lowest' : (r.inMode mode).devices.Lowest slot t := lowest
  rw [serve, Machine.tick_of_waiting hid lowest' reach,
    t.offer_of_waiting hid]
  dsimp only [inMode]
  rw [if_pos (by omega)]
  exact ⟨rfl, rfl⟩

/-- A timer waits for as many ticks as the mode tells, and for one at least. -/
lemma waitsFor (h : r.machine.mode.id = .own Timer.waitPath) :
    r.WaitsFor config slot (max (r.machine.mode.number Timer.remainingKey).toInt 1).toNat := by
  -- the last tick of the wait is set apart from the ones before it
  obtain ⟨n, hn⟩ : ∃ n, (max (r.machine.mode.number Timer.remainingKey).toInt 1).toNat = n + 1 :=
    ⟨_, (Nat.sub_add_cancel (by omega)).symm⟩
  rw [hn]
  have now : r.Waiting (n + 1) r := ⟨r.machine.mode, rfl, h, hn⟩
  obtain ⟨hanswers, hwaiting⟩ := serveAll_countdown (fun n => r.Waiting (n + 1))
    (fun _ _ => serve_of_waiting lowest reach) now
  have hlast := hwaiting n (Nat.le_refl n)
  rw [Nat.sub_self] at hlast
  obtain ⟨hanswer, hresumed⟩ := serve_of_waited lowest reach hlast
  obtain ⟨hcourse, hrig⟩ := serveAll_replicate_succ config r n .tick
  rw [hanswers, hanswer, ← List.replicate_succ'] at hcourse
  rw [hresumed] at hrig
  refine ⟨hcourse, fun j hj => ?_, by rw [hrig], by rw [hrig], ?_, fun other hne => ?_⟩
  · have hle := Nat.le_of_lt_succ hj
    rw [Nat.succ_sub hle]
    exact hwaiting j hle
  · refine ⟨t, t.complete, lowest.occupied, ?_, t.toNat_complete⟩
    rw [hrig, Bank.get?_set, if_pos rfl]
  · rw [hrig, Bank.get?_set, if_neg hne]

omit lowest reach in
/-- A tick that runs a call of a timer. -/
lemma serve_of_call (hid : r.machine.mode.id = .own Mode.executingPath) {k : Nat} {i : Instruction}
    (selects : r.machine.Selects k i) (hop : i.opcode = .phl)
    (hslot : (i.argument.resolve r.machine.registers).toInt = slot.val)
    (reach : slot.val < config.slotCount) (occupied : r.devices.get? slot = some t) :
    let served := r.serve config .tick
    let registers := r.machine.registers
    served.answer = .tick (.executed (.retired .phl)) ∧ served.rig.body = r.body ∧
      served.rig.devices = r.devices ∧ r.machine.MovesPast k served.rig.machine ∧
      served.rig.machine.registers =
        (if 0 < registers.d.toInt then registers else registers.set .a t.completed.toNat) ∧
      served.rig.machine.mode =
        if 0 < registers.d.toInt then
          .other (.own Timer.waitPath)
            (ModeData.empty.insert Timer.remainingKey (.int (Int64.ofInt registers.d.toInt)))
        else .executing := by
  obtain ⟨houtcome, hdevices, ⟨hprogram, hcard, hip⟩, hregisters, hmode⟩ :=
    Machine.execute_of_call (Machine.selects_canonicalize_iff.2 selects) hop hslot reach occupied
  have hhome : r.machine.canonicalize.homeCard =
      { r.machine.homeCard with mode := r.machine.mode.canonical } := by
    rw [Machine.homeCard_eq, Machine.homeCard_eq]
    rfl
  have hexecuting : r.machine.mode.canonical = .executing := by
    rw [← Mode.ofParts_id_data r.machine.mode, hid]
    rfl
  rw [hhome] at hcard hip
  rw [t.call_eq] at hregisters hmode
  rw [serve, Machine.tick_eq_of_executing hid]
  refine ⟨?_, rfl, hdevices, ⟨hprogram, hcard, hip⟩, hregisters, ?_⟩
  · exact congrArg (fun outcome => Answer.tick (.executed outcome)) houtcome
  · rw [← hexecuting]
    exact hmode

end Rig

/-- A wait for a timer takes as many ticks as asked, and at least one. The lowest timer takes them all and
counts the wait once; nothing else changes but the mode. A call of a timer moves on to the next
instruction: while `D` is positive it starts a wait of `D` ticks, and otherwise it tells in `A` how many
waits the timer that was called has counted. -/
theorem timer_wait_takes_as_long_as_asked [Chassis κ] (config : Config) {r : Rig κ (Bank Timer)}
    {slot : Slot} {t : Timer} (lowest : r.devices.Lowest slot t) :
    (r.machine.mode.id = .own Timer.waitPath → slot.val < config.slotCount →
      r.WaitsFor config slot
        (max ((r.machine.mode.data.int? Timer.remainingKey).getD 0).toInt 1).toNat) ∧
    ∀ k i named called, r.machine.mode.id = .own Mode.executingPath → r.machine.Selects k i →
      i.opcode = .phl → (i.argument.resolve r.machine.registers).toInt = named.val →
      named.val < config.slotCount → r.devices.get? named = some called →
      let served := r.serve config .tick
      let d := r.machine.registers.d.toInt
      served.answer = .tick (.executed (.retired .phl)) ∧ served.rig.body = r.body ∧
        served.rig.devices = r.devices ∧ r.machine.MovesPast k served.rig.machine ∧
        (0 < d → served.rig.machine.registers = r.machine.registers ∧
          served.rig.WaitsFor config slot d.toNat) ∧
        (d ≤ 0 → served.rig.machine.mode = .executing ∧
          (served.rig.machine.registers.get .a).toInt = min 999 called.completed.toNat ∧
          ∀ s ≠ .a, served.rig.machine.registers.get s = r.machine.registers.get s) := by
  refine ⟨fun hid reach => Rig.waitsFor lowest reach hid, ?_⟩
  intro k i named called hid selects hop hnamed reach occupied served d
  obtain ⟨hanswer, hbody, hdevices, hmoves, hregisters, hmode⟩ :=
    Rig.serve_of_call hid selects hop hnamed reach occupied
  refine ⟨hanswer, hbody, hdevices, hmoves, fun hpos => ?_, fun hneg => ?_⟩
  · rw [if_pos hpos] at hregisters hmode
    refine ⟨hregisters, ?_⟩
    have hwaits := Rig.waitsFor (r := served.rig) (by rw [hdevices]; exact lowest)
      (Nat.lt_of_le_of_lt (lowest.le occupied) reach) (by rw [hmode]; rfl)
    have hlength : (max (served.rig.machine.mode.number Timer.remainingKey).toInt 1).toNat = d.toNat := by
      have lo := r.machine.registers.d.le_toInt
      have hi := r.machine.registers.d.toInt_lt
      rw [hmode, Mode.number_insert, Int64.toInt_ofInt_of_le (by omega) (by omega)]
      omega
    rwa [hlength] at hwaits
  · rw [if_neg (Int.not_lt.2 hneg)] at hregisters hmode
    refine ⟨hmode, ?_, fun s hs => ?_⟩
    · rw [hregisters, Registers.get_set, if_pos rfl, toInt_saturate]
      omega
    · rw [hregisters, Registers.get_set, if_neg hs]

/-- Two timers, of which the lower one has counted as far as it can. -/
def twoTimers : Bank Timer :=
  (({} : Bank Timer).set ⟨1, by decide⟩ (some ⟨4294967295⟩)).set ⟨2, by decide⟩ (some ⟨5000⟩)

/-- Calls the timer that `B` names, from a pointer past the end of the card. -/
def timerCaller (d : Word) : Machine :=
  { ip := .narrow 9
    registers := { b := 2, d }
    program := ⟨[[⟨.add, .literal 1, some .pos⟩, ⟨.phl, .register .b, none⟩]]⟩
    mode := .other (.own Mode.executingPath) .empty }

/-- The upper timer is called and starts a wait of three ticks, but the lower one takes them. Asked for its
count, the upper one tells what a register can hold. A wait that does not say for how long takes one
tick. -/
theorem timerCaller_waits_for_lower_timer :
    let config : Config := { slots := 3 }
    let lower : Slot := ⟨1, by decide⟩
    let rig (d : Word) : Rig PlanarChassis (Bank Timer) := ⟨timerCaller d, {}, twoTimers⟩
    twoTimers.Lowest lower ⟨4294967295⟩ ∧
      ((rig 3).serve config .tick).answer = .tick (.executed (.retired .phl)) ∧
      ((rig 3).serve config .tick).rig.WaitsFor config lower 3 ∧
      (((rig (-1)).serve config .tick).rig.machine.registers.get .a).toInt = 999 ∧
      ((rig 0).inMode (.other (.own Timer.waitPath) .empty)).WaitsFor config lower 1 := by
  intro config lower rig
  have lowest : twoTimers.Lowest lower ⟨4294967295⟩ := ⟨rfl, by decide⟩
  have selects (d : Word) : (timerCaller d).Selects 1 ⟨.phl, .register .b, none⟩ :=
    (Card.select_eq_selected_iff.1 (by decide) : (timerCaller 0).Selects 1 _)
  have call (d : Word) := (timer_wait_takes_as_long_as_asked config (r := rig d) lowest).2 1 _
    ⟨2, by decide⟩ ⟨5000⟩ rfl (selects d) rfl rfl (by decide) rfl
  obtain ⟨hanswer, -, -, -, hwaits, -⟩ := call 3
  obtain ⟨-, -, -, -, -, hcount⟩ := call (-1)
  refine ⟨lowest, hanswer, (hwaits (by decide)).2, (hcount (by decide)).2.1, ?_⟩
  exact (timer_wait_takes_as_long_as_asked config lowest).1 rfl (by decide)

end CardMachine
