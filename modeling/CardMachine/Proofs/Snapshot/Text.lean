import CardMachine.Proofs.Json.RoundTrip
import CardMachine.Proofs.Snapshot.RoundTrip

/-!
# A saved text is loaded again

The document of a machine is legible if there are no floats in its mode data: its integers have 64
bits, its fields are in order, and it is four levels deep (`legible_encode`). So its text is read back
as the document it was written from, and `decode_encode` does the rest.

Floats are left out because a text does not keep them: reading rounds twice, and the float that comes
back may be a neighbour.
-/

namespace CardMachine.Snapshot

open Json (Legible)

/-- Entries are in order if their keys are. -/
lemma sorted_of_keys {α : Type} {entries : List (String × α)} (keys : List String)
    (e : entries.map Prod.fst = keys) (h : keys.Pairwise (· < ·)) : Dict.Sorted entries := by
  subst e
  exact List.pairwise_map.1 h

/-- A word is written legibly. -/
lemma legible_word {d : Nat} (w : Word) : Legible d (int w.toInt) := by
  have lo := w.le_toInt
  have hi := w.toInt_lt
  exact .int (by omega) (by omega)

lemma legible_pointer {d : Nat} (p : Pointer) : Legible d (int p.val) := by
  have hi := p.isLt
  exact .int (by omega) (by omega)

lemma legible_encodeArgument {d : Nat} (a : Argument) : Legible d (encodeArgument a) := by
  cases a with
  | literal w => exact legible_word w
  | register r => exact .string r.name

lemma legible_encodeInstruction {d : Nat} (i : Instruction) :
    Legible (d + 1) (encodeInstruction i) := by
  have hargument := legible_encodeArgument (d := d) i.argument
  have hopcode : Legible d (.string i.opcode.mnemonic) := .string _
  rw [encodeInstruction]
  cases i.flag with
  | none =>
    refine .object (sorted_of_keys ["argument", "opcode"] rfl (by decide)) ?_
    simp [hargument, hopcode]
  | some f =>
    have hflag : Legible d (int f.byte) := by cases f <;> exact .int (by decide) (by decide)
    refine .object (sorted_of_keys ["argument", "flag", "opcode"] rfl (by decide)) ?_
    simp [hargument, hflag, hopcode]

/-- A program is written legibly. -/
lemma legible_encodeProgram {d : Nat} (p : Program) : Legible (d + 3) (encodeProgram p) := by
  refine .array fun json hjson => ?_
  obtain ⟨card, -, rfl⟩ := List.mem_map.1 hjson
  refine .array fun json hjson => ?_
  obtain ⟨i, -, rfl⟩ := List.mem_map.1 hjson
  exact legible_encodeInstruction i

/-- Registers are written legibly. -/
lemma legible_encodeRegisters {d : Nat} (rs : Registers) :
    Legible (d + 1) (encodeRegisters rs) := by
  refine .object (sorted_of_keys ["A", "B", "C", "D"] rfl (by decide)) fun field hfield => ?_
  obtain ⟨r, -, rfl⟩ := List.mem_map.1 hfield
  exact legible_word (rs.get r)

/-- Mode data without floats are legible. -/
lemma legible_encodeData {d : Nat} {data : ModeData}
    (h : ∀ key x, (key, ModeValue.float x) ∉ data.entries) : Legible (d + 1) (encodeData data) := by
  refine .object (sorted_of_keys (data.entries.map Prod.fst) ?_ ?_) fun field hfield => ?_
  · rw [List.map_map]
    rfl
  · exact List.pairwise_map.2 data.sorted
  · obtain ⟨⟨key, v⟩, hmem, rfl⟩ := List.mem_map.1 hfield
    cases v with
    | int v =>
      have lo := v.le_toInt
      have hi := v.toInt_lt
      exact .int (by omega) (by omega)
    | float x => exact absurd hmem (h key x)
    | text s => exact .string s

/-- The document of a machine without floats is legible. -/
lemma legible_encode {d : Nat} {m : Machine}
    (h : ∀ key x, (key, ModeValue.float x) ∉ m.mode.data.entries) : Legible (d + 4) (encode m) := by
  have hcard : Legible (d + 3) (int m.card.val) := legible_pointer m.card
  have hcards : Legible (d + 3) (encodeProgram m.program) := legible_encodeProgram m.program
  have hip : Legible (d + 3) (int m.ip.val) := legible_pointer m.ip
  have hmode : Legible (d + 3) (.string m.mode.id.text) := .string _
  have hdata : Legible (d + 3) (encodeData m.mode.data) := legible_encodeData h
  have hregisters : Legible (d + 3) (encodeRegisters m.registers) := legible_encodeRegisters m.registers
  have hversion : Legible (d + 3) (int currentVersion) := .int (by decide) (by decide)
  refine .object (sorted_of_keys
    ["cardIdx", "cards", "ip", "mode", "modeData", "registers", "version"] rfl (by decide)) ?_
  simp [hcard, hcards, hip, hmode, hdata, hregisters, hversion]

/-- A machine comes back from the text it was saved as, exactly and without a warning: whatever its
pointers are, and whatever characters and integers its mode data hold, floats aside. -/
theorem load_save (m : Machine) (registers : m.registers.InRange)
    (program : Addressable m.program.cards) (proper : m.mode.canonical = m.mode)
    (space : ':' ∉ m.mode.id.space.toList)
    (data : ∀ key x, (key, ModeValue.float x) ∉ m.mode.data.entries) :
    load (save m) = ⟨m, []⟩ := by
  have hparse : Json.parse? (save m) = some (encode m) := (legible_encode data).parse?_text
  have hfinite : m.mode.data.Finite := fun key x hmem => absurd hmem (data key x)
  have hdecode : decode (encode m) = ⟨m.canonicalize, []⟩ :=
    decode_encode ⟨registers, program⟩ ⟨space, hfinite⟩
  rw [load, hparse]
  dsimp only
  rw [hdecode, Machine.canonicalize, proper]

/-- A machine with every kind of awkward text and the least integer in its mode data. -/
def awkwardNotes : Machine where
  ip := .narrow 3
  card := .narrow 255
  registers := ⟨-999, 0, 999, -1⟩
  program := ⟨[[], [⟨.jby, .literal (-32768), some .equ⟩, ⟨.add, .register .c, none⟩]]⟩
  mode := .other ⟨"sonar \"2\"", "scan:\\wide"⟩
    (.ofList [("\x00\x1f\t\n", .int Int64.minValue), ("quote\"", .text "\\u0041/\x7f\r\x08\x0c😀")])

theorem awkwardNotes_load_save :
    awkwardNotes.registers.InRange ∧ Addressable awkwardNotes.program.cards ∧
      awkwardNotes.mode.canonical = awkwardNotes.mode ∧
      load (save awkwardNotes) = ⟨awkwardNotes, []⟩ := by
  have registers : awkwardNotes.registers.InRange := by
    intro r
    cases r <;> decide
  have program : Addressable awkwardNotes.program.cards := by decide
  have proper : awkwardNotes.mode.canonical = awkwardNotes.mode := by rfl
  have data : ∀ key x, (key, ModeValue.float x) ∉ awkwardNotes.mode.data.entries := by
    have entries : awkwardNotes.mode.data.entries =
        [("\x00\x1f\t\n", .int Int64.minValue),
          ("quote\"", .text "\\u0041/\x7f\r\x08\x0c😀")] := rfl
    simp [entries]
  exact ⟨registers, program, proper, load_save awkwardNotes registers program proper (by decide) data⟩

end CardMachine.Snapshot
