import CardMachine.Proofs.Mode
import CardMachine.Proofs.WellFormed
import CardMachine.Snapshot.Decode

/-!
# What is saved is loaded

Each part of a document is read back as it was written: mnemonics, register names, flag bytes and
arguments one by one (`decodeInstruction_encode`), then instructions, cards and programs along the lists
(`decodeAll_map`), and mode data along their entries (`foldl_decodeNextEntry`). The part lemmas ask only that
the field holds what was written, so they do not depend on the order of the fields.

`decode_encode` puts the parts together: a machine comes back without a warning, with its mode in its
proper form.
-/

namespace CardMachine

/-- An opcode is read from its mnemonic. -/
@[simp] lemma Opcode.ofMnemonic?_mnemonic (op : Opcode) : ofMnemonic? op.mnemonic = some op := by
  cases op <;> rfl

/-- A register is read from its name. -/
@[simp] lemma Register.ofName?_name (r : Register) : ofName? r.name = some r := by
  cases r <;> rfl

namespace Snapshot

/-- An integer of 64 bits is read as itself. -/
lemma int64?_int {v : Int} (lo : -9223372036854775808 ≤ v) (hi : v ≤ 9223372036854775807) :
    (int v).int64? = some v :=
  if_pos ⟨lo, hi⟩

/-- A word is read as its value. -/
lemma int64?_word (w : Word) : (int w.toInt).int64? = some w.toInt := by
  have lo := w.le_toInt
  have hi := w.toInt_lt
  exact int64?_int (by omega) (by omega)

/-- An argument is read as it was saved. -/
lemma decodeArgument?_encode (a : Argument) : decodeArgument? (some (encodeArgument a)) = some a := by
  cases a with
  | literal v =>
    show ((int v.toInt).int64?.bind Word.ofInt?).map Argument.literal = some (.literal v)
    rw [int64?_word, Option.bind_some, Word.ofInt?_toInt]
    rfl
  | register r =>
    show (Register.ofName? r.name).map Argument.register = some (.register r)
    rw [Register.ofName?_name]
    rfl

lemma decodeFlag_encode (f : Flag) : decodeFlag (some (int f.byte)) = (some f, true) := by
  cases f <;> rfl

/-- An instruction is read as it was saved. -/
lemma decodeInstruction_encode (card : Nat) (i : Instruction) (index : Nat) :
    decodeInstruction card (encodeInstruction i) index = ⟨some i, []⟩ := by
  obtain ⟨op, argument, flag⟩ := i
  cases flag with
  | none =>
    simp [decodeInstruction, encodeInstruction, Json.field?, Json.object?, Json.string?,
      Dict.lookup_cons, decodeArgument?_encode, decodeFlag]
  | some f =>
    simp [decodeInstruction, encodeInstruction, Json.field?, Json.object?, Json.string?,
      Dict.lookup_cons, decodeArgument?_encode, decodeFlag_encode]

/-- If each item is read as it was written, wherever it stands, so is a list of them. -/
lemma decodeAll_map {α : Type} {item : Json → Nat → Decoded (Option α)} {write : α → Json}
    (h : ∀ a index, item (write a) index = ⟨some a, []⟩) (index : Nat) (items : List α) :
    decodeAll item index (items.map write) = ⟨some items, []⟩ := by
  induction items generalizing index with
  | nil => rfl
  | cons a rest ih =>
    rw [List.map_cons, decodeAll, h, ih]
    rfl

lemma decodeCard_encode (card : Card) (index : Nat) :
    decodeCard (.array (card.map encodeInstruction)) index = ⟨some card, []⟩ :=
  decodeAll_map (decodeInstruction_encode index) 0 card

variable {doc : Fields}

/-- A program is read as it was saved, if nothing of it is out of reach. -/
lemma decodeProgram_encode {p : Program} (h : doc.lookup "cards" = some (encodeProgram p))
    (hp : Addressable p.cards) : decodeProgram doc = ⟨p, []⟩ := by
  have hread : decodeAll decodeCard 0
      (p.cards.map fun card => .array (card.map encodeInstruction)) = ⟨some p.cards, []⟩ :=
    decodeAll_map decodeCard_encode 0 p.cards
  have hcards : Program.ofCards p.cards = p :=
    congrArg Program.mk ((Program.cards_ofCards_eq_iff p.cards).2 hp)
  simp only [decodeProgram, h, encodeProgram, Json.array?, hread, hcards, if_pos hp, List.append_nil]

/-- A pointer is read as it was saved. -/
lemma decodePointer_encode {field : String} {p : Pointer}
    (h : doc.lookup field = some (int p.val)) : decodePointer doc field = ⟨p, []⟩ := by
  have hp := p.isLt
  have hread : (int p.val).uint64? = some p.val := by
    rw [int, Json.uint64?, if_pos (by omega), Int.toNat_natCast]
  simp only [decodePointer, h, hread, dif_pos hp]

/-- Saturation keeps a value of a register. -/
lemma saturate_toInt {w : Word} (lo : -999 ≤ w.toInt) (hi : w.toInt ≤ 999) :
    saturate w.toInt = w := by
  have e : max (-999) (min w.toInt 999) = w.toInt := by omega
  rw [saturate, e, Int16.ofInt_toInt]

/-- A register in range is read as it was written. -/
lemma decodeNextRegister_encode {rs : Registers} (hr : rs.InRange) (d : Decoded Registers)
    (r : Register) :
    decodeNextRegister (Register.all.map fun r => (r.name, int (rs.get r).toInt)) d r =
      ⟨d.value.set r (rs.get r).toInt, d.warnings⟩ := by
  have hfield : (Register.all.map fun r => (r.name, int (rs.get r).toInt)).lookup r.name =
      some (int (rs.get r).toInt) := by
    cases r <;> rfl
  simp only [decodeNextRegister, decodeRegister, hfield, int64?_word,
    saturate_toInt (hr r).1 (hr r).2, if_true, List.append_nil]

/-- Registers in range are read as they were saved. -/
lemma decodeRegisters_encode {rs : Registers}
    (h : doc.lookup "registers" = some (encodeRegisters rs)) (hr : rs.InRange) :
    decodeRegisters doc = ⟨rs, []⟩ := by
  have hset : ∀ r, saturate (rs.get r).toInt = rs.get r := fun r => saturate_toInt (hr r).1 (hr r).2
  have hnext := decodeNextRegister_encode hr
  simp only [decodeRegisters, h, encodeRegisters, Json.object?]
  generalize (Register.all.map fun r => (r.name, int (rs.get r).toInt)) = fields at hnext
  -- the four writes leave nothing of the registers there were before
  simp only [Register.all, List.foldl_cons, List.foldl_nil, hnext, Registers.set, hset]
  rfl

/-- A value of mode data is read as it was written, unless it is an infinite float. -/
lemma decodeValue?_encode {v : ModeValue} (h : ∀ x, v = .float x → Binary64.isFinite x = true) :
    decodeValue? (encodeValue v) = some v := by
  cases v with
  | int v =>
    have lo := v.le_toInt
    have hi := v.toInt_lt
    have hread : (Json.number (.int v.toInt)).int64? = some v.toInt :=
      int64?_int (by omega) (by omega)
    simp only [encodeValue, int, decodeValue?, hread, Int64.ofInt_toInt]
  | float x => simp only [encodeValue, h x rfl, if_true, decodeValue?]
  | text s => rfl

/-- Finite entries are inserted as they were written, in turn and without a warning. -/
lemma foldl_decodeNextEntry {entries : List (String × ModeValue)}
    (h : ∀ key x, (key, ModeValue.float x) ∈ entries → Binary64.isFinite x = true)
    (acc : Decoded ModeData) :
    (entries.map fun (key, v) => (key, encodeValue v)).foldl decodeNextEntry acc =
      ⟨entries.foldl (fun data e => data.insert e.1 e.2) acc.value, acc.warnings⟩ := by
  induction entries generalizing acc with
  | nil => rfl
  | cons e rest ih =>
    obtain ⟨key, v⟩ := e
    have hv : decodeValue? (encodeValue v) = some v :=
      decodeValue?_encode fun x e => h key x (e ▸ List.mem_cons_self)
    simp only [List.map_cons, List.foldl_cons, decodeNextEntry, hv]
    exact ih (fun key x hmem => h key x (List.mem_cons_of_mem _ hmem)) _

/-- Data are read as they were saved, if their floats are finite. -/
lemma decodeData_encode {data : ModeData} (h : doc.lookup "modeData" = some (encodeData data))
    (hd : data.Finite) : decodeData doc = ⟨data, []⟩ := by
  have hfold := foldl_decodeNextEntry hd ⟨.empty, []⟩
  rw [← ModeData.ofList, ModeData.ofList_entries] at hfold
  simp only [decodeData, h, encodeData, Json.object?]
  exact hfold

/-- A written name is not empty, having a colon. -/
lemma isEmpty_text (id : ModeId) : id.text.isEmpty = false := by
  simp [ModeId.text]

/-- An identifier is read as it was saved, if its space has no colon. -/
lemma decodeModeId_encode {id : ModeId} (h : doc.lookup "mode" = some (.string id.text))
    (hs : ':' ∉ id.space.toList) : decodeModeId doc = ⟨some id, []⟩ := by
  simp only [decodeModeId, h, isEmpty_text, ModeId.parse_text hs]
  rfl

/-- The version that is written is known. -/
lemma decodeVersion_encode (h : doc.lookup "version" = some (int currentVersion)) :
    decodeVersion doc = [] := by
  rw [decodeVersion, h]
  rfl

/-- A machine is loaded as it was saved, with its mode in its proper form. -/
lemma decode_encode {m : Machine} (wf : m.WellFormed) (h : m.mode.Savable) :
    decode (encode m) = ⟨m.canonicalize, []⟩ := by
  show decodeFields _ = _
  -- each `by rfl` finds the field that the part was written to
  rw [decodeFields,
    decodePointer_encode (p := m.ip) (by rfl),
    decodePointer_encode (p := m.card) (by rfl),
    decodeProgram_encode (p := m.program) (by rfl) wf.program,
    decodeRegisters_encode (by rfl) wf.registers,
    decodeData_encode (by rfl) h.data,
    decodeModeId_encode (by rfl) h.space,
    decodeVersion_encode (by rfl)]
  simp only [Mode.ofParts_id_data]
  rfl

/-- Loading what was saved gives no warning and changes nothing but an improper form of the mode. The
pointers may be anywhere, and a mode in its proper form makes the round trip exact. -/
theorem decode_encode_eq_canonicalize (m : Machine) (registers : m.registers.InRange)
    (program : Addressable m.program.cards) (space : ':' ∉ m.mode.id.space.toList)
    (data : m.mode.data.Finite) :
    decode (encode m) = ⟨{ m with mode := m.mode.canonical }, []⟩ ∧
      (m.mode.canonical = m.mode → decode (encode m) = ⟨m, []⟩) := by
  have h : decode (encode m) = ⟨m.canonicalize, []⟩ :=
    decode_encode ⟨registers, program⟩ ⟨space, data⟩
  refine ⟨h, ?_⟩
  intro proper
  rw [h, Machine.canonicalize, proper]

/-- A machine whose pointers are past its program, asked to move by a mode in an improper form. -/
def strayMover : Machine where
  ip := .narrow 200
  card := .narrow 255
  registers := ⟨999, -999, 0, 7⟩
  program := ⟨[[⟨.phl, .register .d, some .neg⟩, ⟨.lda, .literal (-32768), none⟩], []]⟩
  mode := .other (.own Mode.moveStartPath) (ModeData.empty.insert Mode.distanceKey (.float (-2.5)))

theorem strayMover_reloads :
    strayMover.registers.InRange ∧ Addressable strayMover.program.cards ∧
      decode (encode strayMover) = ⟨{ strayMover with mode := .moveStart (-2) }, []⟩ ∧
      decode (encode { strayMover with mode := .moveStart (-2) }) =
        ⟨{ strayMover with mode := .moveStart (-2) }, []⟩ := by
  have registers : strayMover.registers.InRange := by
    intro r
    cases r <;> decide
  have program : Addressable strayMover.program.cards := by decide
  have data : strayMover.mode.data.Finite := by
    refine ModeData.Finite.empty.insert ?_
    intro x e
    cases e
    decide
  have data' : (Mode.moveStart (-2)).data.Finite := ModeData.Finite.empty.insert fun x e => by cases e
  refine ⟨registers, program, ?_, ?_⟩
  · exact (decode_encode_eq_canonicalize strayMover registers program (by decide) data).1
  · exact (decode_encode_eq_canonicalize { strayMover with mode := .moveStart (-2) } registers program
      (by decide) data').2 rfl

end Snapshot

end CardMachine
