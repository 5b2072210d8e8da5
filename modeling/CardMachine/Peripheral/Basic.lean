import CardMachine.Machine

/-!
# Peripherals

A peripheral is plugged into one of four slots. An instruction may call it, and while the machine is
not executing it is asked each tick whether the mode is its own. In both cases it may change the
machine as it likes.

The machine reaches peripherals through a `Provider`. The usual one is a `Bank`, which holds one
peripheral, or none, in each slot.
-/

namespace CardMachine

/-- The number of peripheral slots. -/
def slotLimit : Nat := 4

/-- A peripheral slot. -/
abbrev Slot := Fin slotLimit

/-- What a call leaves: the answer, the called one and the machine. -/
structure Reply (δ : Type) where
  answer : Bool
  device : δ
  machine : Machine

/-- Something that can be plugged into a slot. -/
class Peripheral (π : Type) where
  /-- An instruction calls it. The answer tells whether the machine moves on. -/
  call : π → Machine → Reply π
  /-- It is offered a mode. The answer tells whether it took it. -/
  offer : π → Machine → Reply π

/-- Where the machine finds the peripheral of a slot; `none` is an empty slot. -/
class Provider (β : Type) where
  call? : β → Slot → Machine → Option (Reply β)
  offer? : β → Slot → Machine → Option (Reply β)

/-- Four empty slots. -/
structure NoPeripherals where
  deriving DecidableEq

instance : Provider NoPeripherals where
  call? _ _ _ := none
  offer? _ _ _ := none

/-- One of two kinds of peripheral. -/
instance {α β : Type} [Peripheral α] [Peripheral β] : Peripheral (α ⊕ β) where
  call
    | .inl p, m => let r := Peripheral.call p m; ⟨r.answer, .inl r.device, r.machine⟩
    | .inr p, m => let r := Peripheral.call p m; ⟨r.answer, .inr r.device, r.machine⟩
  offer
    | .inl p, m => let r := Peripheral.offer p m; ⟨r.answer, .inl r.device, r.machine⟩
    | .inr p, m => let r := Peripheral.offer p m; ⟨r.answer, .inr r.device, r.machine⟩

/-- Four slots, each empty or with a peripheral in it. -/
structure Bank (π : Type) where
  slots : Vector (Option π) slotLimit := Vector.replicate slotLimit none

namespace Bank

variable {π : Type}

/-- The peripheral in a slot. -/
def get? (bank : Bank π) (slot : Slot) : Option π :=
  bank.slots.get slot

/-- Puts a peripheral into a slot, or takes it out. -/
def set (bank : Bank π) (slot : Slot) (p : Option π) : Bank π :=
  ⟨bank.slots.set slot p⟩

/-- Puts `p` into slot `index` and hands back what does not stay: the one that was there, or `p` if
there is no such slot. -/
def install (bank : Bank π) (index : Nat) (p : π) : Bank π × Option π :=
  if h : index < slotLimit then (bank.set ⟨index, h⟩ (some p), bank.get? ⟨index, h⟩)
  else (bank, some p)

/-- Empties slot `index` and hands back what was in it. -/
def remove (bank : Bank π) (index : Nat) : Bank π × Option π :=
  if h : index < slotLimit then (bank.set ⟨index, h⟩ none, bank.get? ⟨index, h⟩)
  else (bank, none)

/-- Is there a peripheral in slot `index`? -/
def isOccupied (bank : Bank π) (index : Nat) : Bool :=
  if h : index < slotLimit then (bank.get? ⟨index, h⟩).isSome else false

/-- Which slots are occupied, in words. -/
def text (bank : Bank π) : String :=
  "PeripheralSlots \x7b occupied: [" ++
    ", ".intercalate (bank.slots.toList.map fun p => if p.isSome then "true" else "false") ++ "] \x7d"

/-- Calls the peripheral in a slot and keeps what becomes of it. -/
def use (bank : Bank π) (slot : Slot) (f : π → Reply π) : Option (Reply (Bank π)) :=
  (bank.get? slot).map fun p =>
    let r := f p
    ⟨r.answer, bank.set slot (some r.device), r.machine⟩

instance [Peripheral π] : Provider (Bank π) where
  call? bank slot m := bank.use slot (Peripheral.call · m)
  offer? bank slot m := bank.use slot (Peripheral.offer · m)

end Bank

end CardMachine
