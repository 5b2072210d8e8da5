import CardMachine.Proofs.Exchange
import Mathlib.Data.List.Chain

/-!
# Slots out of reach

To put other peripherals into the slots out of reach (`Bank.overlay`) is a map that keeps the answers of
those in reach. So nothing a machine does depends on the hidden slots, and nothing it does changes them
(`Rig.serveAll_overlay`).

What happens in reach when a mode goes round is told by a `Ledger`, a bank that writes down the offers made
to its peripherals. To keep a ledger changes nothing either, and what is in it is an `Offering`: the
occupied slots are asked in order, each about the machine that the one before it left, until one takes the
mode.
-/

namespace CardMachine

variable {κ π : Type}

namespace Bank

/-- A slot holds what is put into it, and the others what they held. -/
lemma get?_set (bank : Bank π) (slot slot' : Slot) (p : Option π) :
    (bank.set slot p).get? slot' = if slot' = slot then p else bank.get? slot' := by
  show (bank.slots.set slot p)[slot'.val] = _
  rw [Vector.getElem_set]
  simp only [Fin.val_inj, eq_comm (a := slot)]
  rfl

/-- Banks that hold the same in each slot are the same. -/
lemma ext_get? {bank bank' : Bank π} (h : ∀ slot, bank.get? slot = bank'.get? slot) : bank = bank' := by
  obtain ⟨slots⟩ := bank
  obtain ⟨slots'⟩ := bank'
  congr
  ext k hk : 1
  exact h ⟨k, hk⟩

/-- Those of the slots that hold a peripheral. -/
def occupied (bank : Bank π) (slots : List Slot) : List Slot :=
  slots.filter fun slot => (bank.get? slot).isSome

/-- An empty slot is passed over. -/
lemma occupied_cons_of_none {bank : Bank π} {slot : Slot} (h : bank.get? slot = none)
    (rest : List Slot) : bank.occupied (slot :: rest) = bank.occupied rest :=
  List.filter_cons_of_neg (by simp [h])

/-- A slot with a peripheral in it counts. -/
lemma occupied_cons_of_some {bank : Bank π} {slot : Slot} {p : π} (h : bank.get? slot = some p)
    (rest : List Slot) : bank.occupied (slot :: rest) = slot :: bank.occupied rest :=
  List.filter_cons_of_pos (by simp [h])

/-- Slots that are not touched stay occupied or empty. -/
lemma occupied_set_of_not_mem {slot : Slot} {slots : List Slot} (h : slot ∉ slots) (bank : Bank π)
    (p : Option π) : (bank.set slot p).occupied slots = bank.occupied slots := by
  refine List.filter_congr fun slot' hslot' => ?_
  rw [get?_set, if_neg]
  rintro rfl
  exact h hslot'

/-- The slots in reach hold the same. -/
def Agrees (config : Config) (bank bank' : Bank π) : Prop :=
  ∀ slot : Slot, slot.val < config.slotCount → bank.get? slot = bank'.get? slot

/-- Takes the slots in reach from `bank` and the others from `hidden`. -/
def overlay (config : Config) (hidden bank : Bank π) : Bank π :=
  ⟨.ofFn fun slot => if slot.val < config.slotCount then bank.get? slot else hidden.get? slot⟩

/-- In reach an overlay holds what is on top, and out of reach what is hidden. -/
lemma get?_overlay (config : Config) (hidden bank : Bank π) (slot : Slot) :
    (overlay config hidden bank).get? slot =
      if slot.val < config.slotCount then bank.get? slot else hidden.get? slot :=
  Vector.getElem_ofFn slot.isLt

/-- Banks that agree differ only in what is hidden. -/
lemma overlay_of_agrees {config : Config} {bank bank' : Bank π} (h : bank.Agrees config bank') :
    overlay config bank' bank = bank' := by
  apply ext_get?
  intro slot
  rw [get?_overlay]
  split
  · next visible => exact h slot visible
  · rfl

/-- What is put into a slot in reach is put on top. -/
lemma overlay_set {config : Config} {slot : Slot} (visible : slot.val < config.slotCount)
    (hidden bank : Bank π) (p : Option π) :
    (overlay config hidden bank).set slot p = overlay config hidden (bank.set slot p) := by
  apply ext_get?
  intro slot'
  rw [get?_set, get?_overlay, get?_overlay, get?_set]
  by_cases e : slot' = slot
  · rw [if_pos e, if_pos (e ▸ visible), if_pos e]
  · rw [if_neg e, if_neg e]

/-- A slot in reach is used as it is without the hidden ones. -/
lemma use_overlay {config : Config} {slot : Slot} (visible : slot.val < config.slotCount)
    (hidden bank : Bank π) (f : π → Reply π) :
    (overlay config hidden bank).use slot f = (bank.use slot f).map (.mapDevice (overlay config hidden)) := by
  rw [use, use, get?_overlay, if_pos visible, Option.map_map]
  congr
  funext p
  simp only [Function.comp_apply, Reply.mapDevice, overlay_set visible]

/-- Peripherals in reach answer the same over any that are hidden. -/
lemma overlay_respects [Peripheral π] (config : Config) (hidden : Bank π) :
    Provider.Respects config (overlay config hidden) where
  call bank _ m visible := use_overlay visible hidden bank (Peripheral.call · m)
  offer bank _ m visible := use_overlay visible hidden bank (Peripheral.offer · m)

end Bank

/-- Requests leave on one bank what they leave on any other that agrees with it in reach; only the hidden
slots are the other's own. -/
lemma Rig.serveAll_overlay [Chassis κ] [Peripheral π] {config : Config} {bank bank' : Bank π}
    (h : bank.Agrees config bank') (m : Machine) (body : κ) (requests : List Request) :
    (⟨m, body, bank'⟩ : Rig κ (Bank π)).serveAll config requests =
      ((⟨m, body, bank⟩ : Rig κ (Bank π)).serveAll config requests).mapDevices
        (.overlay config bank') := by
  rw [← serveAll_map (Bank.overlay_respects config bank'), mapDevices, Bank.overlay_of_agrees h]

/-- An offer of a mode: the slot it went to, the peripheral there and the machine it was asked about. -/
structure Offer (π : Type) where
  slot : Slot
  device : π
  machine : Machine

/-- What came of it. -/
def Offer.reply [Peripheral π] (o : Offer π) : Reply π := Peripheral.offer o.device o.machine

/-- A bank, and the offers that were made to its peripherals. -/
structure Ledger (π : Type) where
  bank : Bank π
  offers : List (Offer π) := []

/-- Writes down an offer, and what it makes of the bank. -/
def Ledger.enter [Peripheral π] (ledger : Ledger π) (o : Offer π) : Ledger π :=
  ⟨ledger.bank.set o.slot (some o.reply.device), ledger.offers ++ [o]⟩

instance [Peripheral π] : Provider (Ledger π) where
  call? ledger slot m :=
    (Provider.call? ledger.bank slot m).map (.mapDevice ({ ledger with bank := · }))
  offer? ledger slot m := (ledger.bank.get? slot).map fun p =>
    let o : Offer π := ⟨slot, p, m⟩
    ⟨o.reply.answer, ledger.enter o, o.reply.machine⟩

/-- How a mode goes round `slots`: the offers that are made about `m`, the one who takes the mode, and the
machine and the bank that are left. -/
structure Bank.Offering [Peripheral π] (bank : Bank π) (slots : List Slot) (m : Machine)
    (offers : List (Offer π)) (claimed : Option Slot) (m' : Machine) (bank' : Bank π) : Prop where
  /-- The occupied slots are asked in order, from the first one on. -/
  order : offers.map Offer.slot <+: bank.occupied slots
  present : ∀ o ∈ offers, bank.get? o.slot = some o.device
  first : ∀ o ∈ offers.head?, o.machine = m
  /-- Each is asked about the machine that the one before it left. -/
  handed : offers.IsChain fun o next => next.machine = o.reply.machine
  /-- Nobody is asked after the one who takes the mode. -/
  refused : ∀ o ∈ offers.dropLast, o.reply.answer = false
  /-- Everybody is asked if nobody takes it. -/
  exhausted : (∀ o ∈ offers, o.reply.answer = false) → offers.map Offer.slot = bank.occupied slots
  claimed : claimed = (offers.find? (·.reply.answer)).map Offer.slot
  machine : m' = (offers.getLast?.map (·.reply.machine)).getD m
  asked : ∀ o ∈ offers, bank'.get? o.slot = some o.reply.device
  unasked : ∀ slot, slot ∉ offers.map Offer.slot → bank'.get? slot = bank.get? slot

namespace Bank.Offering

variable [Peripheral π] {bank bank' : Bank π} {slot : Slot} {slots : List Slot} {m m' : Machine}
  {offers : List (Offer π)} {claimed : Option Slot}

/-- Only the given slots are asked. -/
lemma mem_slots (h : bank.Offering slots m offers claimed m' bank')
    (hslot : slot ∈ offers.map Offer.slot) : slot ∈ slots :=
  List.mem_of_mem_filter (h.order.subset hslot)

/-- Where there are no slots, nobody is asked. -/
lemma nil (bank : Bank π) (m : Machine) : bank.Offering [] m [] none m bank where
  order := List.prefix_rfl
  present := nofun
  first := nofun
  handed := .nil
  refused := nofun
  exhausted _ := rfl
  claimed := rfl
  machine := rfl
  asked := nofun
  unasked _ _ := rfl

/-- Empty slots are passed over. -/
lemma skip (empty : bank.get? slot = none) (h : bank.Offering slots m offers claimed m' bank') :
    bank.Offering (slot :: slots) m offers claimed m' bank' := by
  have e := occupied_cons_of_none empty slots
  exact { h with order := e ▸ h.order, exhausted := e ▸ h.exhausted }

variable {o : Offer π}

/-- The round ends with the one who takes the mode. -/
lemma stop (occupied : bank.get? o.slot = some o.device) (takes : o.reply.answer = true) :
    bank.Offering (o.slot :: slots) o.machine [o] (some o.slot) o.reply.machine
      (bank.set o.slot (some o.reply.device)) where
  order := by
    rw [occupied_cons_of_some occupied]
    exact ⟨_, rfl⟩
  present := by
    intro o' h
    rw [List.mem_singleton.1 h]
    exact occupied
  first := by
    rintro o' ⟨⟩
    rfl
  handed := .singleton o
  refused := nofun
  exhausted h := by
    rw [h o List.mem_cons_self] at takes
    cases takes
  claimed := by simp only [List.find?_singleton, takes, if_true, Option.map_some]
  machine := rfl
  asked := by
    intro o' h
    rw [List.mem_singleton.1 h, get?_set, if_pos rfl]
  unasked := by
    intro slot h
    rw [get?_set, if_neg (List.mem_singleton.not.1 h)]

/-- After a refusal the rest is asked, about the machine and in the bank that the refusal left. -/
lemma goOn (fresh : o.slot ∉ slots) (occupied : bank.get? o.slot = some o.device)
    (refuses : o.reply.answer = false)
    (h : (bank.set o.slot (some o.reply.device)).Offering slots o.reply.machine offers claimed m' bank') :
    bank.Offering (o.slot :: slots) o.machine (o :: offers) claimed m' bank' where
  order := by
    rw [occupied_cons_of_some occupied, List.map_cons, List.prefix_cons_inj,
      ← occupied_set_of_not_mem fresh]
    exact h.order
  present := by
    intro o' ho'
    rcases List.mem_cons.1 ho' with rfl | ho'
    · exact occupied
    -- no slot is asked twice, so the refusal has not touched this one
    have hne : o'.slot ≠ o.slot := fun e => fresh (e ▸ h.mem_slots (List.mem_map_of_mem ho'))
    rw [← h.present o' ho', get?_set, if_neg hne]
  first := by
    rintro o' ⟨⟩
    rfl
  handed := List.isChain_cons.2 ⟨h.first, h.handed⟩
  refused := by
    intro o' ho'
    cases offers with
    | nil => cases ho'
    | cons next offers =>
      rcases List.mem_cons.1 ho' with rfl | ho'
      · exact refuses
      · exact h.refused o' ho'
  exhausted := by
    intro hall
    rw [occupied_cons_of_some occupied, List.map_cons, ← occupied_set_of_not_mem fresh,
      h.exhausted fun o' ho' => hall o' (List.mem_cons_of_mem o ho')]
  claimed := by
    rw [h.claimed, List.find?_cons_of_neg (by simp [refuses])]
  machine := by
    rw [h.machine, List.getLast?_cons]
    cases offers.getLast? <;> rfl
  asked := by
    intro o' ho'
    rcases List.mem_cons.1 ho' with rfl | ho'
    · rw [h.unasked o'.slot fun hmem => fresh (h.mem_slots hmem), get?_set, if_pos rfl]
    · exact h.asked o' ho'
  unasked := by
    intro slot hslot
    obtain ⟨hne, hslot⟩ := not_or.1 (List.mem_cons.not.1 hslot)
    rw [h.unasked slot hslot, get?_set, if_neg hne]

end Bank.Offering

/-- Peripherals answer the same when their offers are written down. -/
lemma Ledger.bank_respects [Peripheral π] (config : Config) :
    Provider.Respects config (Ledger.bank : Ledger π → Bank π) where
  call ledger slot m _ := by
    show _ = ((Provider.call? ledger.bank slot m).map _).map _
    rw [Option.map_map]
    exact Option.map_id'.symm
  offer ledger slot m _ := by
    show _ = ((ledger.bank.get? slot).map _).map _
    rw [Option.map_map]
    rfl

/-- What a ledger says of a mode that goes round. -/
lemma Machine.exists_offering [Peripheral π] {slots : List Slot} (nodup : slots.Nodup) (m : Machine)
    (ledger : Ledger π) :
    let round := m.offerTo ledger slots
    ∃ offers, round.2.2.offers = ledger.offers ++ offers ∧
      ledger.bank.Offering slots m offers round.1 round.2.1 round.2.2.bank := by
  induction slots generalizing m ledger with
  | nil => exact ⟨[], (List.append_nil _).symm, .nil ledger.bank m⟩
  | cons slot rest ih =>
    obtain ⟨fresh, nodup⟩ := List.nodup_cons.1 nodup
    cases hslot : ledger.bank.get? slot with
    | none =>
      have hoffer : Provider.offer? ledger slot m = none := congrArg (Option.map _) hslot
      obtain ⟨offers, hoffers, h⟩ := ih nodup m ledger
      rw [offerTo, hoffer]
      exact ⟨offers, hoffers, h.skip hslot⟩
    | some p =>
      let o : Offer π := ⟨slot, p, m⟩
      have hoffer : Provider.offer? ledger slot m = some ⟨o.reply.answer, ledger.enter o, o.reply.machine⟩ :=
        congrArg (Option.map _) hslot
      rw [offerTo, hoffer]
      cases hanswer : o.reply.answer with
      | true => exact ⟨[o], rfl, .stop (o := o) hslot hanswer⟩
      | false =>
        obtain ⟨offers, hoffers, h⟩ := ih nodup o.reply.machine (ledger.enter o)
        refine ⟨o :: offers, ?_, .goOn (o := o) fresh hslot hanswer h⟩
        exact hoffers.trans (List.append_assoc ledger.offers [o] offers)

/-- Keeping a ledger changes nothing, and an offer of the mode goes round the slots in reach. -/
lemma Machine.offerMode_offering [Peripheral π] (config : Config) (m : Machine) (bank : Bank π)
    (log : Log) :
    let turn := m.offerMode config bank log
    let watched := m.offerMode config (Ledger.mk bank []) log
    watched.mapDevices Ledger.bank = turn ∧
    ∃ claimed : Option Slot, turn.outcome = claimed.elim .modeUnclaimed .modeClaimed ∧
      bank.Offering ((List.finRange slotLimit).filter (·.val < config.slotCount)) m watched.devices.offers
        claimed turn.machine turn.devices := by
  have hwatched : m.offerMode config bank log =
      (m.offerMode config (Ledger.mk bank []) log).mapDevices Ledger.bank :=
    offerMode_map (Ledger.bank_respects config) m ⟨bank, []⟩ log
  have nodup : config.reach.Nodup := (List.nodup_finRange slotLimit).sublist (List.take_sublist _ _)
  obtain ⟨offers, hoffers, h⟩ := exists_offering nodup m ⟨bank, []⟩
  refine ⟨hwatched.symm, (m.offerTo (Ledger.mk bank []) config.reach).1, ?_⟩
  rw [hwatched, ← Config.reach_eq_filter, offerMode]
  generalize m.offerTo (Ledger.mk bank []) config.reach = round at hoffers h
  obtain ⟨claimed, m', ledger⟩ := round
  rw [List.nil_append] at hoffers
  cases hoffers
  cases claimed <;> exact ⟨rfl, h⟩

/-- Slots out of reach are invisible: what becomes of requests, of whatever kind and however many, is the
same on any two banks that hold the same in reach, and the slots out of reach stay as they are. In reach,
the mode goes round the occupied slots in order until one takes it. -/
theorem slots_out_of_reach_invisible [Chassis κ] [Peripheral π] (config : Config) :
    (∀ (m : Machine) (body : κ) (bank bank' : Bank π) (requests : List Rig.Request),
      bank.Agrees config bank' →
      let course := (⟨m, body, bank⟩ : Rig κ (Bank π)).serveAll config requests
      let course' := (⟨m, body, bank'⟩ : Rig κ (Bank π)).serveAll config requests
      course'.answers = course.answers ∧ course'.events = course.events ∧
      course'.rig.machine = course.rig.machine ∧ course'.rig.body = course.rig.body ∧
      course.rig.devices.Agrees config course'.rig.devices ∧
      ∀ slot : Slot, config.slotCount ≤ slot.val →
        course.rig.devices.get? slot = bank.get? slot ∧
        course'.rig.devices.get? slot = bank'.get? slot) ∧
    (∀ (m : Machine) (bank : Bank π) (log : Log),
      let turn := m.offerMode config bank log
      let watched := m.offerMode config (Ledger.mk bank []) log
      watched.mapDevices Ledger.bank = turn ∧
      ∃ claimed : Option Slot, turn.outcome = claimed.elim .modeUnclaimed .modeClaimed ∧
        bank.Offering ((List.finRange slotLimit).filter (·.val < config.slotCount)) m
          watched.devices.offers claimed turn.machine turn.devices) := by
  refine ⟨?_, Machine.offerMode_offering config⟩
  intro m body bank bank' requests agrees
  dsimp only
  rw [Rig.serveAll_overlay agrees]
  refine ⟨rfl, rfl, rfl, rfl, ?_, ?_⟩
  · intro slot visible
    exact ((Bank.get?_overlay config bank' _ slot).trans (if_pos visible)).symm
  · intro slot hslot
    have hidden : ¬ slot.val < config.slotCount := Nat.not_lt.2 hslot
    -- a bank agrees with itself, so its own hidden slots are those it started with
    have itself : bank.Agrees config bank := fun _ _ => rfl
    refine ⟨?_, (Bank.get?_overlay config bank' _ slot).trans (if_neg hidden)⟩
    rw [Rig.serveAll_overlay itself]
    exact (Bank.get?_overlay config bank _ slot).trans (if_neg hidden)

/-- Waits for a timer, and then calls the third slot. -/
def farCaller : Machine :=
  { program := ⟨[[⟨.phl, .literal 2, none⟩]]⟩
    mode := .other (.own Timer.waitPath) .empty }

/-- A timer in the third slot makes no difference to it if only one slot is in use. -/
theorem farCaller_misses_second_timer :
    let config : Config := { slots := 1 }
    let third : Slot := ⟨2, by decide⟩
    let two := oneTimer.set third (some ⟨7⟩)
    let requests : List Rig.Request := [.tick, .execute, .drive, .runUntil .modeChange 3]
    let course := (⟨farCaller, {}, oneTimer⟩ : Rig PlanarChassis (Bank Timer)).serveAll config requests
    let course' := (⟨farCaller, {}, two⟩ : Rig PlanarChassis (Bank Timer)).serveAll config requests
    oneTimer.Agrees config two ∧ oneTimer.get? third = none ∧
      course'.answers = course.answers ∧ course'.rig.machine = course.rig.machine ∧
      course.rig.devices.Agrees config course'.rig.devices ∧
      course.rig.devices.get? third = none ∧ course'.rig.devices.get? third = some ⟨7⟩ := by
  have agrees : oneTimer.Agrees { slots := 1 } (oneTimer.set ⟨2, by decide⟩ (some ⟨7⟩)) := by
    intro slot visible
    rw [Bank.get?_set, if_neg]
    rintro rfl
    exact absurd visible (by decide)
  obtain ⟨hanswers, -, hmachine, -, hvisible, hhidden⟩ :=
    (slots_out_of_reach_invisible (κ := PlanarChassis) { slots := 1 }).1 farCaller {} oneTimer _
      [.tick, .execute, .drive, .runUntil .modeChange 3] agrees
  obtain ⟨hkept, hkept'⟩ := hhidden ⟨2, by decide⟩ (by decide)
  exact ⟨agrees, rfl, hanswers, hmachine, hvisible, hkept, hkept'⟩

end CardMachine
