import CardMachine.Proofs.Binary64
import CardMachine.Proofs.Snapshot.RoundTrip

/-!
# Whatever is loaded can be saved

A document may have any shape, and what is wrong with it is put right part by part: registers saturate
(`decodeRegisters_inRange`), a program loses what no pointer can reach (`decodeProgram_addressable`), and
mode data keep only numbers and texts (`decodeData_finite`). The mode is made from what was read and so
is in its proper form (`decodeFields_canonical`). A loaded machine is therefore well formed with a savable
mode, and `decode_encode` applies to it: putting right happens once, and never changes what it made.
-/

namespace CardMachine

/-- Every float of the value is a number. Its integers may be anything. -/
inductive Json.Finite : Json → Prop where
  | null : Finite .null
  | bool (b : Bool) : Finite (.bool b)
  | int (v : Int) : Finite (.number (.int v))
  | float {x : Float} : Binary64.isFinite x = true → Finite (.number (.float x))
  | string (s : String) : Finite (.string s)
  | array {items : List Json} : (∀ item ∈ items, Finite item) → Finite (.array items)
  | object {fields : List (String × Json)} :
    (∀ field ∈ fields, Finite field.2) →
    Finite (.object fields)

namespace Json.Finite

attribute [simp] null bool int string

/-- A float is finite if it is neither infinite nor no number. -/
@[simp] lemma float_iff {x : Float} : (Json.number (.float x)).Finite ↔ Binary64.isFinite x = true :=
  ⟨fun | .float h => h, .float⟩

@[simp] lemma array_iff {items : List Json} :
    (Json.array items).Finite ↔ ∀ item ∈ items, item.Finite :=
  ⟨fun | .array h => h, .array⟩

@[simp] lemma object_iff {fields : List (String × Json)} :
    (Json.object fields).Finite ↔ ∀ field ∈ fields, field.2.Finite :=
  ⟨fun | .object h => h, .object⟩

end Json.Finite

namespace Snapshot

variable {doc : Fields}

/-- Reading a register keeps all in range. -/
lemma decodeRegister_inRange {fields : Fields} {rs : Registers} (h : rs.InRange) (r : Register) :
    (decodeRegister fields rs r).value.InRange := by
  rw [decodeRegister]
  split
  · exact h
  split
  · exact h
  · exact h.set r _

/-- Reading registers one after the other keeps all in range. -/
lemma foldl_decodeNextRegister_inRange {fields : Fields} (rs : List Register) (acc : Decoded Registers)
    (h : acc.value.InRange) :
    (rs.foldl (decodeNextRegister fields) acc).value.InRange := by
  induction rs generalizing acc with
  | nil => exact h
  | cons r rest ih => exact ih _ (decodeRegister_inRange h r)

/-- Registers that were never written are in range. -/
lemma inRange_default : ({} : Registers).InRange := by
  intro r
  cases r <;> decide

/-- Registers are in range when they have been read. -/
lemma decodeRegisters_inRange (doc : Fields) : (decodeRegisters doc).value.InRange := by
  rw [decodeRegisters]
  split
  · exact inRange_default
  split
  · exact inRange_default
  · exact foldl_decodeNextRegister_inRange _ _ inRange_default

/-- A program without cards is addressable. -/
lemma addressable_default : Addressable ({} : Program).cards := by
  decide

/-- A program is addressable when it has been read. -/
lemma decodeProgram_addressable (doc : Fields) : Addressable (decodeProgram doc).value.cards := by
  rw [decodeProgram]
  split
  · exact addressable_default
  split
  · exact addressable_default
  · dsimp only
    split
    · exact addressable_default
    · exact Program.addressable_ofCards _

/-- A value that was read is no infinite float. -/
lemma decodeValue?_finite {raw : Json} {v : ModeValue} (h : raw.Finite)
    (e : decodeValue? raw = some v) : ∀ x, v = .float x → Binary64.isFinite x = true := by
  rintro x rfl
  cases h with
  | int n =>
    rw [decodeValue?] at e
    split at e
    · cases e
    -- an integer that leaves no room for a sign becomes a float
    · cases e
      exact Binary64.isFinite_toFloat _
  | float hx =>
    cases e
    exact hx
  | _ => cases e

/-- Reading entries one after the other keeps data finite. -/
lemma foldl_decodeNextEntry_finite {entries : Fields} (h : ∀ e ∈ entries, e.2.Finite)
    (acc : Decoded ModeData) (ha : acc.value.Finite) :
    (entries.foldl decodeNextEntry acc).value.Finite := by
  induction entries generalizing acc with
  | nil => exact ha
  | cons e rest ih =>
    apply ih (fun e' he => h e' (List.mem_cons_of_mem e he))
    rw [decodeNextEntry]
    split
    case h_1 v hv => exact ha.insert (decodeValue?_finite (h e List.mem_cons_self) hv)
    case h_2 => exact ha

/-- A field of a finite document is finite. -/
lemma finite_of_lookup {field : String} {raw : Json} (h : ∀ e ∈ doc, e.2.Finite)
    (e : doc.lookup field = some raw) : raw.Finite := by
  obtain ⟨before, after, rfl, -⟩ := List.lookup_eq_some_iff.1 e
  exact h (field, raw) (List.mem_append_right _ List.mem_cons_self)

/-- Data are finite when they have been read from a finite document. -/
lemma decodeData_finite (h : ∀ e ∈ doc, e.2.Finite) : (decodeData doc).value.Finite := by
  rw [decodeData]
  split
  case h_1 => exact .empty
  case h_2 raw hraw =>
    cases finite_of_lookup h hraw with
    | object hfields => exact foldl_decodeNextEntry_finite hfields _ .empty
    | _ => exact .empty

/-- The space of a name that was read has no colon. -/
lemma colon_not_mem_space_decodeModeId {id : ModeId} (h : (decodeModeId doc).value = some id) :
    ':' ∉ id.space.toList := by
  rw [decodeModeId] at h
  split at h
  · cases h
  · split at h
    · cases h
    · cases h
      exact ModeId.colon_not_mem_space_parse _
  · cases h

/-- A loaded mode is in its proper form. -/
lemma decodeFields_canonical (doc : Fields) :
    (decodeFields doc).value.mode.canonical = (decodeFields doc).value.mode := by
  rw [decodeFields]
  dsimp only
  split
  case h_1 => rfl
  case h_2 => exact Mode.canonical_ofParts _ _

/-- A loaded mode is savable. -/
lemma decodeFields_savable (h : ∀ e ∈ doc, e.2.Finite) : (decodeFields doc).value.mode.Savable := by
  rw [decodeFields]
  dsimp only
  split
  case h_1 => exact Mode.savable_executing
  case h_2 id hid =>
    refine ⟨?_, Mode.data_ofParts_finite (decodeData_finite h)⟩
    rw [Mode.id_ofParts]
    exact colon_not_mem_space_decodeModeId hid

/-- A loaded machine is well formed, with a savable mode in its proper form. -/
lemma decode_wellFormed {doc : Json} (h : doc.Finite) :
    (decode doc).value.WellFormed ∧ (decode doc).value.mode.Savable ∧
      (decode doc).value.mode.canonical = (decode doc).value.mode := by
  cases h with
  | object hfields =>
    exact ⟨⟨decodeRegisters_inRange _, decodeProgram_addressable _⟩, decodeFields_savable hfields,
      decodeFields_canonical _⟩
  | _ => exact ⟨⟨inRange_default, addressable_default⟩, Mode.savable_executing, rfl⟩

/-- Whatever a document holds, the machine loaded from it has its registers in range, an addressable
program and a savable mode in its proper form; saving and loading it again gives the same machine,
without a warning. -/
theorem decode_reloads (doc : Json) (h : doc.Finite) :
    let m := (decode doc).value
    m.registers.InRange ∧ Addressable m.program.cards ∧ m.mode.canonical = m.mode ∧
      ':' ∉ m.mode.id.space.toList ∧ m.mode.data.Finite ∧ decode (encode m) = ⟨m, []⟩ := by
  intro m
  obtain ⟨wf, savable, proper⟩ := decode_wellFormed h
  refine ⟨wf.registers, wf.program, proper, savable.space, savable.data, ?_⟩
  have reloaded : decode (encode m) = ⟨m.canonicalize, []⟩ := decode_encode wf savable
  rw [reloaded, Machine.canonicalize, proper]

/-- A document with something wrong in every field but the mode. -/
def spoiltDocument : Json :=
  .object [
    ("cardIdx", int 300),
    ("cards", .array [.array [
      .object [("argument", .string "E"), ("flag", int 7), ("opcode", .string "MOV")]], .array []]),
    ("ip", .number (.float 0.5)),
    ("mode", .string "timer:run:fast"),
    ("modeData", .object [
      ("count", int 18446744073709551615), ("left", .array [.null]), ("rate", .number (.float (-2.5)))]),
    ("registers", .object [("A", int 5000), ("B", .bool true), ("D", int (-1))]),
    ("version", .string "1")]

theorem spoiltDocument_reloads :
    spoiltDocument.Finite ∧
      (decode spoiltDocument).warnings =
        [.malformedField "version", .malformedField "ip", .malformedField "cardIdx",
          .malformedArgument 0 0, .invalidFlag 0 0, .registerSaturated .a 5000,
          .malformedField "registers", .malformedField "modeData"] ∧
      decode (encode (decode spoiltDocument).value) = ⟨(decode spoiltDocument).value, []⟩ := by
  have half : Binary64.isFinite 0.5 = true := by decide
  have rate : Binary64.isFinite (-2.5) = true := by decide
  have finite : spoiltDocument.Finite := by simp [spoiltDocument, int, half, rate]
  obtain ⟨_, _, _, _, _, reloaded⟩ := decode_reloads spoiltDocument finite
  exact ⟨finite, by decide, reloaded⟩

end Snapshot

end CardMachine
