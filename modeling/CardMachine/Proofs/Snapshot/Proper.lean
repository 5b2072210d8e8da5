import CardMachine.Proofs.Snapshot.RoundTrip
import Mathlib.Data.List.Forall2

/-!
# Documents in order

`Proper doc` says which documents are in order: what each field may hold, and that a field may be
missing. `Echoes doc saved` says that a saved machine has the pointers, registers and instructions of
a document. Neither mentions the reader.

The fields other than the cards are compared with the reader here, one by one: a field is read without
a warning exactly if it is in order (`*_clean_iff`), and then the value that was read is the one in the
document (`*_value`).
-/

namespace CardMachine.Snapshot

/-- The value is an integer from `lo` to `hi`. -/
def IsIntIn (lo hi : Int) (raw : Json) : Prop :=
  ∃ v, raw = int v ∧ lo ≤ v ∧ v ≤ hi

/-- An instruction in order: an object with the name of an opcode and with an argument, a register or
a word. Its flag is a sign, or null, or missing. -/
structure ProperInstruction (raw : Json) : Prop where
  opcode : ∃ op : Opcode, raw.field? "opcode" = some (.string op.mnemonic)
  argument : ∃ arg, raw.field? "argument" = some arg ∧
    ((∃ r : Register, arg = .string r.name) ∨ IsIntIn (-32768) 32767 arg)
  flag : ∀ flag ∈ raw.field? "flag", flag = .null ∨ IsIntIn (-1) 1 flag

/-- A card in order, whatever its length. -/
def ProperCard (raw : Json) : Prop :=
  ∃ items, raw = .array items ∧ ∀ item ∈ items, ProperInstruction item

/-- A document in order. Every field may be missing, and there may be others. -/
structure Proper (doc : Fields) : Prop where
  version : ∀ raw ∈ doc.lookup "version", raw = int 1
  ip : ∀ raw ∈ doc.lookup "ip", IsIntIn 0 255 raw
  card : ∀ raw ∈ doc.lookup "cardIdx", IsIntIn 0 255 raw
  registers : ∀ raw ∈ doc.lookup "registers", ∃ fields, raw = .object fields ∧
    ∀ r : Register, ∀ v ∈ fields.lookup r.name, IsIntIn (-999) 999 v
  cards : ∀ raw ∈ doc.lookup "cards", ∃ cards, raw = .array cards ∧ cards.length ≤ 256 ∧
    ∀ card ∈ cards, ∃ items, card = .array items ∧ items.length ≤ 256 ∧
      ∀ item ∈ items, ProperInstruction item
  mode : ∀ raw ∈ doc.lookup "mode", ∃ text, raw = .string text ∧ text ≠ ""
  data : ∀ raw ∈ doc.lookup "modeData", ∃ entries, raw = .object entries ∧
    ∀ entry ∈ entries, (∃ n, entry.2 = .number n) ∨ ∃ s, entry.2 = .string s

/-- The value of a field, a null one counting as none. -/
def unlessNull : Option Json → Option Json
  | some .null => none
  | field => field

/-- `saved` says what the instruction `raw` says. -/
structure EchoesInstruction (raw saved : Json) : Prop where
  opcode : saved.field? "opcode" = raw.field? "opcode"
  argument : saved.field? "argument" = raw.field? "argument"
  flag : saved.field? "flag" = unlessNull (raw.field? "flag")

/-- `saved` says what the card `raw` says, instruction by instruction. -/
def EchoesCard (raw saved : Json) : Prop :=
  ∃ items written, raw = .array items ∧ saved = .array written ∧
    List.Forall₂ EchoesInstruction items written

/-- `saved` has the pointers, registers and instructions of `doc`, with zeros and no cards where `doc`
says nothing. -/
structure Echoes (doc : Fields) (saved : Json) : Prop where
  ip : saved.field? "ip" = some ((doc.lookup "ip").getD (int 0))
  card : saved.field? "cardIdx" = some ((doc.lookup "cardIdx").getD (int 0))
  registers : ∀ r : Register, (saved.field? "registers").bind (·.field? r.name) =
    some (((doc.lookup "registers").bind (·.field? r.name)).getD (int 0))
  cards : ∃ written, saved.field? "cards" = some (.array written) ∧
    List.Forall₂ EchoesCard (((doc.lookup "cards").bind Json.array?).getD []) written

@[simp] lemma int_inj {v w : Int} : int v = int w ↔ v = w := by
  simp [int]

/-- An integer of 64 bits is read from that integer and from nothing else. -/
lemma int64?_eq_some_iff {raw : Json} {v : Int} :
    raw.int64? = some v ↔ raw = int v ∧ -9223372036854775808 ≤ v ∧ v ≤ 9223372036854775807 := by
  constructor
  · intro h
    rw [Json.int64?.eq_def] at h
    split at h
    · split at h
      case isTrue hv => cases h; exact ⟨rfl, hv⟩
      case isFalse => cases h
    · cases h
  · rintro ⟨rfl, lo, hi⟩
    exact int64?_int lo hi

/-- An unsigned integer is read from that integer and from nothing else. -/
lemma uint64?_eq_some_iff {raw : Json} {n : Nat} :
    raw.uint64? = some n ↔ raw = int n ∧ n ≤ 18446744073709551615 := by
  constructor
  · intro h
    rw [Json.uint64?.eq_def] at h
    split at h
    case h_1 v =>
      split at h
      case isTrue hv =>
        cases h
        refine ⟨?_, by omega⟩
        rw [int, Int.toNat_of_nonneg hv.1]
      case isFalse => cases h
    · cases h
  · rintro ⟨rfl, hi⟩
    rw [int, Json.uint64?, if_pos (by omega), Int.toNat_natCast]

/-- An integer is between two bounds as a part of a document if it is so as a number. -/
@[simp] lemma isIntIn_int {lo hi v : Int} : IsIntIn lo hi (int v) ↔ lo ≤ v ∧ v ≤ hi := by
  simp [IsIntIn]

/-- What is not a 64-bit integer is not one of a smaller range. -/
lemma not_isIntIn_of_int64? {lo hi : Int} {raw : Json} (h : raw.int64? = none)
    (hlo : -9223372036854775808 ≤ lo) (hhi : hi ≤ 9223372036854775807) : ¬ IsIntIn lo hi raw := by
  rintro ⟨v, rfl, hv⟩
  rw [int64?_int (by omega) (by omega)] at h
  cases h

section Parts

variable {doc : Fields}

/-- A version is read without a warning exactly if it is left out or known. -/
lemma decodeVersion_clean_iff :
    decodeVersion doc = [] ↔ ∀ raw ∈ doc.lookup "version", raw = int 1 := by
  rw [decodeVersion]
  cases doc.lookup "version" with
  | none => simp
  | some raw =>
    have known (v : Int) : isKnownVersion v = true ↔ v = 1 := decide_eq_true_iff
    cases hread : raw.int64? with
    | none =>
      have hne : raw ≠ int 1 := by
        rintro rfl
        rw [int64?_int (by omega) (by omega)] at hread
        cases hread
      simp [hread, hne]
    | some v =>
      obtain ⟨rfl, -⟩ := int64?_eq_some_iff.1 hread
      simp [hread, known]

/-- A pointer is read without a warning exactly if it is left out or fits a byte. -/
lemma decodePointer_clean_iff {field : String} :
    (decodePointer doc field).warnings = [] ↔ ∀ raw ∈ doc.lookup field, IsIntIn 0 255 raw := by
  rw [decodePointer]
  cases doc.lookup field with
  | none => simp
  | some raw =>
    cases hread : raw.uint64? with
    | none =>
      have hnot : ¬ IsIntIn 0 255 raw := by
        rintro ⟨v, rfl, lo, hi⟩
        obtain ⟨n, rfl⟩ := Int.eq_ofNat_of_zero_le lo
        rw [uint64?_eq_some_iff.2 ⟨rfl, by omega⟩] at hread
        cases hread
      simp [hread, hnot]
    | some n =>
      obtain ⟨rfl, -⟩ := uint64?_eq_some_iff.1 hread
      have hin : IsIntIn 0 255 (int n) ↔ n < 256 := by
        rw [isIntIn_int]
        omega
      simp only [hread, Option.mem_some_iff, forall_eq', hin]
      split <;> simp [*]

/-- A pointer that was read without a warning is the one in the document, or zero. -/
lemma decodePointer_value {field : String} (h : (decodePointer doc field).warnings = []) :
    int (decodePointer doc field).value.val = (doc.lookup field).getD (int 0) := by
  rw [decodePointer] at h ⊢
  cases hfield : doc.lookup field with
  | none => rfl
  | some raw =>
    rw [hfield] at h
    cases hread : raw.uint64? with
    | none => simp [hread] at h
    | some n =>
      obtain ⟨rfl, -⟩ := uint64?_eq_some_iff.1 hread
      by_cases hn : n < 256
      · simp [hread, hn]
      · simp [hread, hn] at h

/-- A register is read without a warning exactly if it is missing or holds what a register can. -/
lemma decodeRegister_clean_iff {fields : Fields} {rs : Registers} {r : Register} :
    (decodeRegister fields rs r).warnings = [] ↔
      ∀ raw ∈ fields.lookup r.name, IsIntIn (-999) 999 raw := by
  rw [decodeRegister]
  cases fields.lookup r.name with
  | none => simp
  | some raw =>
    cases hread : raw.int64? with
    | none =>
      have hnot : ¬ IsIntIn (-999) 999 raw := not_isIntIn_of_int64? hread (by omega) (by omega)
      simp [hread, hnot]
    | some v =>
      obtain ⟨rfl, -⟩ := int64?_eq_some_iff.1 hread
      have hin : IsIntIn (-999) 999 (int v) ↔ (saturate v).toInt = v := by
        rw [toInt_saturate, isIntIn_int]
        omega
      simp [hread, hin]

/-- A register that was read without a warning has the value in the document, if there is one; the
others keep theirs. -/
lemma decodeRegister_value {fields : Fields} {rs : Registers} {r : Register}
    (h : (decodeRegister fields rs r).warnings = []) (s : Register) :
    int ((decodeRegister fields rs r).value.get s).toInt =
      if s = r then (fields.lookup r.name).getD (int (rs.get r).toInt)
      else int (rs.get s).toInt := by
  rw [decodeRegister] at h ⊢
  cases hfield : fields.lookup r.name with
  | none => by_cases e : s = r <;> simp [e]
  | some raw =>
    rw [hfield] at h
    cases hread : raw.int64? with
    | none => simp [hread] at h
    | some v =>
      obtain ⟨rfl, -⟩ := int64?_eq_some_iff.1 hread
      have hv : (saturate v).toInt = v := by simpa [hread] using h
      by_cases e : s = r <;> simp [hread, Registers.get_set, e, hv]

/-- Registers are read without a warning exactly if each of them is. -/
lemma foldl_decodeNextRegister_clean_iff {fields : Fields} (rs : List Register)
    (acc : Decoded Registers) :
    (rs.foldl (decodeNextRegister fields) acc).warnings = [] ↔
      acc.warnings = [] ∧ ∀ r ∈ rs, ∀ raw ∈ fields.lookup r.name, IsIntIn (-999) 999 raw := by
  induction rs generalizing acc with
  | nil => simp
  | cons r rest ih =>
    rw [List.foldl_cons, ih, decodeNextRegister]
    simp only [List.append_eq_nil_iff, decodeRegister_clean_iff, List.forall_mem_cons, and_assoc]

lemma mem_all (r : Register) : r ∈ Register.all := by
  cases r <;> decide

/-- Registers are read without a warning exactly if all that are there are in range. -/
lemma decodeRegisters_clean_iff :
    (decodeRegisters doc).warnings = [] ↔
      ∀ raw ∈ doc.lookup "registers", ∃ fields, raw = .object fields ∧
        ∀ r : Register, ∀ v ∈ fields.lookup r.name, IsIntIn (-999) 999 v := by
  rw [decodeRegisters]
  cases doc.lookup "registers" with
  | none => simp
  | some raw =>
    cases raw with
    | object fields => simp [Json.object?, foldl_decodeNextRegister_clean_iff, mem_all]
    | _ => simp [Json.object?]

/-- Registers that were read without a warning have the values in the document. -/
lemma foldl_decodeNextRegister_value {fields : Fields} (rs : List Register) (acc : Decoded Registers)
    (h : (rs.foldl (decodeNextRegister fields) acc).warnings = []) (s : Register) :
    int ((rs.foldl (decodeNextRegister fields) acc).value.get s).toInt =
      if s ∈ rs then (fields.lookup s.name).getD (int (acc.value.get s).toInt)
      else int (acc.value.get s).toInt := by
  induction rs generalizing acc with
  | nil => simp
  | cons r rest ih =>
    rw [List.foldl_cons] at h ⊢
    have hr : (decodeRegister fields acc.value r).warnings = [] := by
      have hall := ((foldl_decodeNextRegister_clean_iff rest _).1 h).1
      exact (List.append_eq_nil_iff.1 hall).2
    have hs := decodeRegister_value hr s
    rw [ih _ h, show (decodeNextRegister fields acc r).value =
      (decodeRegister fields acc.value r).value from rfl, hs]
    by_cases e : s = r
    · subst e
      cases fields.lookup s.name <;> simp
    · simp [e]

/-- Each register that was read without a warning has the value in the document, or zero. -/
lemma decodeRegisters_value (h : (decodeRegisters doc).warnings = []) (r : Register) :
    int ((decodeRegisters doc).value.get r).toInt =
      ((doc.lookup "registers").bind (·.field? r.name)).getD (int 0) := by
  have zero : ((({} : Registers).get r).toInt) = 0 := by cases r <;> rfl
  rw [decodeRegisters] at h ⊢
  cases hfield : doc.lookup "registers" with
  | none => simp [zero]
  | some raw =>
    rw [hfield] at h
    cases raw with
    | object fields =>
      have hvalue := foldl_decodeNextRegister_value Register.all ⟨{}, []⟩ h r
      rw [if_pos (mem_all r), zero] at hvalue
      simpa [Json.object?, Json.field?] using hvalue
    | _ => simp [Json.object?] at h

/-- A value of mode data can be read exactly if it is a number or a text. -/
lemma decodeValue?_isSome_iff {raw : Json} :
    (decodeValue? raw).isSome = true ↔ (∃ n, raw = .number n) ∨ ∃ s, raw = .string s := by
  cases raw with
  | number n =>
    cases n with
    | int v =>
      rw [decodeValue?]
      split <;> simp
    | float x => simp [decodeValue?]
  | _ => simp [decodeValue?]

/-- Mode data are read without a warning exactly if each value can be read. -/
lemma foldl_decodeNextEntry_clean_iff (entries : Fields) (acc : Decoded ModeData) :
    (entries.foldl decodeNextEntry acc).warnings = [] ↔
      acc.warnings = [] ∧
        ∀ entry ∈ entries, (∃ n, entry.2 = .number n) ∨ ∃ s, entry.2 = .string s := by
  induction entries generalizing acc with
  | nil => simp
  | cons entry rest ih =>
    rw [List.foldl_cons, ih, decodeNextEntry, List.forall_mem_cons, ← decodeValue?_isSome_iff]
    cases decodeValue? entry.2 with
    | none => simp
    | some v => simp

/-- Data are read without a warning exactly if each of them is a number or a text. -/
lemma decodeData_clean_iff :
    (decodeData doc).warnings = [] ↔
      ∀ raw ∈ doc.lookup "modeData", ∃ entries, raw = .object entries ∧
        ∀ entry ∈ entries, (∃ n, entry.2 = .number n) ∨ ∃ s, entry.2 = .string s := by
  rw [decodeData]
  cases doc.lookup "modeData" with
  | none => simp
  | some raw =>
    cases raw with
    | object entries => simp [Json.object?, foldl_decodeNextEntry_clean_iff]
    | _ => simp [Json.object?]

/-- An identifier is read without a warning exactly if it is left out or a text that is not empty. -/
lemma decodeModeId_clean_iff :
    (decodeModeId doc).warnings = [] ↔
      ∀ raw ∈ doc.lookup "mode", ∃ text, raw = .string text ∧ text ≠ "" := by
  rw [decodeModeId]
  cases doc.lookup "mode" with
  | none => simp
  | some raw =>
    cases raw with
    | string text =>
      by_cases h : text = ""
      · simp [h]
      · simp [h]
    | _ => simp

end Parts

end CardMachine.Snapshot
