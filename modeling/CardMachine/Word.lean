/-!
# Words and pointers

The two widths the machine is built on. A `Word` is what an argument carries and what a register
holds: sixteen bits, signed. A `Pointer` names a card, or a position on a card: eight bits,
unsigned. Every operation that narrows an integer to one of them says here what it does with a
value that does not fit: `Word.ofInt?` refuses it, `Word.clamp` and `Pointer.narrow` move it to the
nearest end of the range.
-/

namespace CardMachine

/-- A signed 16-bit word. -/
abbrev Word := Int16

namespace Word

/-- The word of value `v`, if there is one. -/
def ofInt? (v : Int) : Option Word :=
  if -32768 ≤ v ∧ v ≤ 32767 then some (Int16.ofInt v) else none

/-- The word nearest to `v`. -/
def clamp (v : Int) : Word :=
  Int16.ofInt (max (-32768) (min v 32767))

/-- Every word is the word of its value. -/
theorem ofInt?_toInt (w : Word) : ofInt? w.toInt = some w := by
  have lo := w.le_toInt
  have hi := w.toInt_lt
  rw [ofInt?, if_pos (by omega), Int16.ofInt_toInt]

/-- A word is found exactly for its own value. -/
theorem ofInt?_eq_some_iff {v : Int} {w : Word} : ofInt? v = some w ↔ w.toInt = v := by
  constructor
  · intro h
    rw [ofInt?] at h
    split at h
    · obtain rfl := Option.some.inj h
      exact Int16.toInt_ofInt_of_le (by omega) (by omega)
    · cases h
  · rintro rfl
    exact ofInt?_toInt w

end Word

/-- An unsigned 8-bit pointer. -/
abbrev Pointer := Fin 256

namespace Pointer

/-- The first card, or the first position on a card. -/
def zero : Pointer := ⟨0, by omega⟩

/-- The pointer nearest to `v`. -/
def narrow (v : Int) : Pointer :=
  ⟨min v.toNat 255, by omega⟩

/-- A pointer that fits is kept as it is. -/
theorem val_narrow {v : Int} (lo : 0 ≤ v) (hi : v < 256) : ((narrow v).val : Int) = v := by
  simp only [narrow]
  omega

end Pointer

end CardMachine
