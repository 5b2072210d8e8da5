import CardMachine.Proofs.Snapshot.Proper

/-!
# Nothing is put right in silence

A document loads without a warning exactly if it is in order, and then the machine holds what the
document says and nothing else: saved again, it echoes the document.

What is left for that are the cards. Lists are read item by item, so the two statements about an item
carry over to a list of them (`decodeAll_clean_iff`, `decodeAll_value`), once for the instructions on a
card and once for the cards.
-/

namespace CardMachine.Snapshot

variable {doc : Fields}

/-- An argument is read from what it is written as, and from nothing else. -/
lemma decodeArgument?_eq_some_iff {field : Option Json} {a : Argument} :
    decodeArgument? field = some a ↔ field = some (encodeArgument a) := by
  constructor
  · intro h
    rw [decodeArgument?.eq_def] at h
    split at h
    case h_1 name =>
      obtain ⟨r, hr, rfl⟩ := Option.map_eq_some_iff.1 h
      rw [Register.ofName?_eq_some_iff.1 hr]
      rfl
    case h_2 n =>
      obtain ⟨w, hw, rfl⟩ := Option.map_eq_some_iff.1 h
      obtain ⟨v, hv, hw⟩ := Option.bind_eq_some_iff.1 hw
      rw [(int64?_eq_some_iff.1 hv).1, encodeArgument, Word.ofInt?_eq_some_iff.1 hw]
    case h_3 => cases h
  · rintro rfl
    exact decodeArgument?_encode a

/-- What an argument is written as: the name of a register or a word. -/
lemma exists_encodeArgument_iff {arg : Json} :
    (∃ a, arg = encodeArgument a) ↔
      (∃ r : Register, arg = .string r.name) ∨ IsIntIn (-32768) 32767 arg := by
  constructor
  · rintro ⟨a, rfl⟩
    cases a with
    | literal w => exact .inr ⟨w.toInt, rfl, w.le_toInt, by have := w.toInt_lt; omega⟩
    | register r => exact .inl ⟨r, rfl⟩
  · rintro (⟨r, rfl⟩ | ⟨v, rfl, lo, hi⟩)
    · exact ⟨.register r, rfl⟩
    · refine ⟨.literal (Int16.ofInt v), ?_⟩
      rw [encodeArgument, Int16.toInt_ofInt_of_le lo (by omega)]

/-- A flag is proper exactly if it is missing, null or a sign. -/
lemma decodeFlag_clean_iff {field : Option Json} :
    (decodeFlag field).2 = true ↔ ∀ flag ∈ field, flag = .null ∨ IsIntIn (-1) 1 flag := by
  rw [decodeFlag.eq_def]
  split
  case h_1 => simp
  case h_2 => simp
  case h_3 raw hnull =>
    have hne : raw ≠ .null := hnull
    cases hread : raw.int64? with
    | none =>
      have hnot : ¬ IsIntIn (-1) 1 raw := not_isIntIn_of_int64? hread (by omega) (by omega)
      simp [hnot, hne]
    | some v =>
      obtain ⟨rfl, -⟩ := int64?_eq_some_iff.1 hread
      simp [hne]

/-- A proper flag is the one that was written. -/
lemma decodeFlag_value {field : Option Json} (h : (decodeFlag field).2 = true) :
    (decodeFlag field).1.map (int ·.byte) = unlessNull field := by
  rw [decodeFlag.eq_def] at h ⊢
  split at h
  case h_1 => rfl
  case h_2 => rfl
  case h_3 raw hnull =>
    cases hread : raw.int64? with
    | none => simp [hread] at h
    | some v =>
      obtain ⟨rfl, -⟩ := int64?_eq_some_iff.1 hread
      have hv : v = -1 ∨ v = 0 ∨ v = 1 := by
        simp [hread] at h
        omega
      rcases hv with rfl | rfl | rfl <;> rfl

/-- An instruction is saved with its mnemonic. -/
@[simp] lemma field?_encodeInstruction_opcode (i : Instruction) :
    (encodeInstruction i).field? "opcode" = some (.string i.opcode.mnemonic) := by
  rw [encodeInstruction]
  cases i.flag <;> rfl

@[simp] lemma field?_encodeInstruction_argument (i : Instruction) :
    (encodeInstruction i).field? "argument" = some (encodeArgument i.argument) := by
  rw [encodeInstruction]
  cases i.flag <;> rfl

@[simp] lemma field?_encodeInstruction_flag (i : Instruction) :
    (encodeInstruction i).field? "flag" = i.flag.map (int ·.byte) := by
  rw [encodeInstruction]
  cases i.flag <;> rfl

/-- The name of an opcode is found exactly if it stands in the field. -/
lemma ofMnemonic?_field_eq_some_iff {field : Option Json} {op : Opcode} :
    Opcode.ofMnemonic? ((field.bind Json.string?).getD "") = some op ↔
      field = some (.string op.mnemonic) := by
  rw [Opcode.ofMnemonic?_eq_some_iff]
  have hne : op.mnemonic ≠ "" := by cases op <;> decide
  constructor
  · intro h
    cases field with
    | none => exact absurd h.symm hne
    | some raw =>
      cases raw with
      | string name => rw [← h]; rfl
      | _ => exact absurd h.symm hne
  · rintro rfl
    rfl

/-- An instruction is read without a warning exactly if it is proper. -/
lemma decodeInstruction_clean_iff {card index : Nat} {raw : Json} :
    (decodeInstruction card raw index).warnings = [] ↔ ProperInstruction raw := by
  rw [decodeInstruction]
  cases hop : Opcode.ofMnemonic? (((raw.field? "opcode").bind Json.string?).getD "") with
  | none =>
    have hnot : ¬ ProperInstruction raw := by
      rintro ⟨⟨op, e⟩, -, -⟩
      rw [ofMnemonic?_field_eq_some_iff.2 e] at hop
      cases hop
    simp [hnot]
  | some op =>
    have hopcode := ofMnemonic?_field_eq_some_iff.1 hop
    have hargument : (decodeArgument? (raw.field? "argument")).isSome = true ↔
        ∃ arg, raw.field? "argument" = some arg ∧
          ((∃ r : Register, arg = .string r.name) ∨ IsIntIn (-32768) 32767 arg) := by
      simp only [Option.isSome_iff_exists, decodeArgument?_eq_some_iff, ← exists_encodeArgument_iff]
      constructor
      · rintro ⟨a, e⟩
        exact ⟨_, e, a, rfl⟩
      · rintro ⟨_, e, a, rfl⟩
        exact ⟨a, e⟩
    constructor
    · intro h
      have hboth := List.append_eq_nil_iff.1 h
      refine ⟨⟨op, hopcode⟩, hargument.1 ?_, decodeFlag_clean_iff.1 ?_⟩
      · simpa [Option.isSome_iff_ne_none] using hboth.1
      · simpa using hboth.2
    · rintro ⟨-, harg, hflag⟩
      exact List.append_eq_nil_iff.2
        ⟨if_pos (hargument.2 harg), if_pos (decodeFlag_clean_iff.2 hflag)⟩

/-- An instruction that was read without a warning says what the document says. -/
lemma decodeInstruction_value {card index : Nat} {raw : Json}
    (h : (decodeInstruction card raw index).warnings = []) :
    ∃ i, (decodeInstruction card raw index).value = some i ∧
      EchoesInstruction raw (encodeInstruction i) := by
  obtain ⟨⟨op, hop⟩, ⟨arg, harg, hproper⟩, hflag⟩ := decodeInstruction_clean_iff.1 h
  obtain ⟨a, rfl⟩ := exists_encodeArgument_iff.2 hproper
  have hargument := decodeArgument?_eq_some_iff.2 harg
  have hvalue := decodeFlag_value (decodeFlag_clean_iff.2 hflag)
  refine ⟨⟨op, a, (decodeFlag (raw.field? "flag")).1⟩, ?_, ?_, ?_, ?_⟩
  · rw [decodeInstruction, ofMnemonic?_field_eq_some_iff.2 hop, hargument]
    rfl
  · rw [field?_encodeInstruction_opcode, hop]
  · rw [field?_encodeInstruction_argument, harg]
  · rw [field?_encodeInstruction_flag, hvalue]

section Lists

variable {α : Type} {f : Json → Nat → Decoded (Option α)} {Good : Json → Prop}
  {Says : Json → α → Prop}

/-- If an item is read without a warning, it is read; then so is a list of items. -/
lemma decodeAll_value
    (hvalue : ∀ raw index, (f raw index).warnings = [] →
      ∃ a, (f raw index).value = some a ∧ Says raw a)
    (raws : List Json) (index : Nat) (h : (decodeAll f index raws).warnings = []) :
    ∃ as, (decodeAll f index raws).value = some as ∧ List.Forall₂ Says raws as := by
  induction raws generalizing index with
  | nil => exact ⟨[], rfl, .nil⟩
  | cons raw rest ih =>
    rw [decodeAll] at h ⊢
    cases hfirst : (f raw index).value with
    | none =>
      simp only [hfirst] at h
      obtain ⟨a, ha, -⟩ := hvalue raw index h
      rw [hfirst] at ha
      cases ha
    | some a =>
      simp only [hfirst] at h
      obtain ⟨hraw, hrest⟩ := List.append_eq_nil_iff.1 h
      obtain ⟨a', ha, hsays⟩ := hvalue raw index hraw
      obtain ⟨as, has, hall⟩ := ih (index + 1) hrest
      rw [hfirst] at ha
      cases ha
      exact ⟨a :: as, by simp [has], .cons hsays hall⟩

/-- A list of items is read without a warning exactly if every item is. -/
lemma decodeAll_clean_iff (hclean : ∀ raw index, (f raw index).warnings = [] ↔ Good raw)
    (hvalue : ∀ raw index, (f raw index).warnings = [] →
      ∃ a, (f raw index).value = some a ∧ Says raw a)
    (raws : List Json) (index : Nat) :
    (decodeAll f index raws).warnings = [] ↔ ∀ raw ∈ raws, Good raw := by
  induction raws generalizing index with
  | nil => simp [decodeAll]
  | cons raw rest ih =>
    rw [decodeAll]
    cases hfirst : (f raw index).value with
    | none =>
      -- an item that cannot be read has a warning
      have hbad : ¬ Good raw := by
        rw [← hclean raw index]
        intro h
        obtain ⟨a, ha, -⟩ := hvalue raw index h
        rw [hfirst] at ha
        cases ha
      simp [hclean, hbad]
    | some a => simp [ih, hclean]

end Lists

/-- A card is read without a warning exactly if all in it is proper. -/
lemma decodeCard_clean_iff {raw : Json} {index : Nat} :
    (decodeCard raw index).warnings = [] ↔ ProperCard raw := by
  rw [decodeCard]
  cases raw with
  | array items =>
    have hitems := decodeAll_clean_iff (f := decodeInstruction index)
      (fun _ _ => decodeInstruction_clean_iff) (fun _ _ => decodeInstruction_value) items 0
    simpa [Json.array?, ProperCard] using hitems
  | _ => simp [Json.array?, ProperCard]

/-- A card that was read without a warning says what the document says. -/
lemma decodeCard_value {raw : Json} {index : Nat} (h : (decodeCard raw index).warnings = []) :
    ∃ card, (decodeCard raw index).value = some card ∧
      EchoesCard raw (.array (card.map encodeInstruction)) := by
  obtain ⟨items, rfl, -⟩ := decodeCard_clean_iff.1 h
  obtain ⟨card, hcard, hall⟩ := decodeAll_value (f := decodeInstruction index)
    (fun _ _ => decodeInstruction_value) items 0 h
  exact ⟨card, hcard, items, _, rfl, rfl, List.forall₂_map_right_iff.2 hall⟩

/-- A card has as many instructions as the document says. -/
lemma EchoesCard.length_eq {items : List Json} {card : Card}
    (h : EchoesCard (.array items) (.array (card.map encodeInstruction))) :
    items.length = card.length := by
  obtain ⟨_, _, e, e', hall⟩ := h
  cases e
  cases e'
  rw [hall.length_eq, List.length_map]

/-- Cards can be reached by the pointers exactly if the document has not too many nor too long ones. -/
lemma addressable_iff_of_echoes {raws : List Json} {cards : List Card}
    (h : List.Forall₂ (fun raw card => EchoesCard raw (.array (card.map encodeInstruction))) raws cards) :
    Addressable cards ↔
      raws.length ≤ 256 ∧ ∀ raw ∈ raws, ∀ items, raw = .array items → items.length ≤ 256 := by
  rw [Addressable, h.length_eq, show addressableLimit = 256 from rfl]
  refine and_congr Iff.rfl ?_
  induction h with
  | nil => simp
  | @cons raw card raws cards hfirst _ ih =>
    obtain ⟨items, _, rfl, _⟩ := id hfirst
    simp [ih, hfirst.length_eq]

/-- The cards of a document, one by one. -/
lemma decodeAll_decodeCard_clean_iff {raws : List Json} :
    (decodeAll decodeCard 0 raws).warnings = [] ↔ ∀ raw ∈ raws, ProperCard raw :=
  decodeAll_clean_iff (f := decodeCard) (fun _ _ => decodeCard_clean_iff)
    (fun _ _ => decodeCard_value) raws 0

/-- Cards that are read without a warning echo what was read. -/
lemma decodeAll_decodeCard_value {raws : List Json}
    (h : (decodeAll decodeCard 0 raws).warnings = []) :
    ∃ cards, (decodeAll decodeCard 0 raws).value = some cards ∧
      List.Forall₂ (fun raw card => EchoesCard raw (.array (card.map encodeInstruction))) raws cards :=
  decodeAll_value (f := decodeCard) (fun _ _ => decodeCard_value) raws 0 h

/-- Cards in order and not too long. -/
lemma forall_properCard_iff {raws : List Json} :
    (∀ card ∈ raws, ∃ items, card = .array items ∧ items.length ≤ 256 ∧
      ∀ item ∈ items, ProperInstruction item) ↔
      (∀ raw ∈ raws, ProperCard raw) ∧
        ∀ raw ∈ raws, ∀ items, raw = .array items → items.length ≤ 256 := by
  constructor
  · intro h
    refine ⟨fun raw hraw => ?_, fun raw hraw items e => ?_⟩
    · obtain ⟨items, e, -, hitems⟩ := h raw hraw
      exact ⟨items, e, hitems⟩
    · obtain ⟨items', e', hlen, -⟩ := h raw hraw
      cases e.symm.trans e'
      exact hlen
  · rintro ⟨hproper, hlen⟩ raw hraw
    obtain ⟨items, e, hitems⟩ := hproper raw hraw
    exact ⟨items, e, hlen raw hraw items e, hitems⟩

/-- A program is read without a warning exactly if it is within the limits and all in it is proper.
-/
lemma decodeProgram_clean_iff :
    (decodeProgram doc).warnings = [] ↔
      ∀ raw ∈ doc.lookup "cards", ∃ cards, raw = .array cards ∧ cards.length ≤ 256 ∧
        ∀ card ∈ cards, ∃ items, card = .array items ∧ items.length ≤ 256 ∧
          ∀ item ∈ items, ProperInstruction item := by
  rw [decodeProgram]
  cases doc.lookup "cards" with
  | none => simp
  | some raw =>
    cases raw with
    | array raws =>
      simp only [Json.array?, Option.mem_some_iff, forall_eq', Json.array.injEq, exists_eq_left',
        forall_properCard_iff]
      cases hread : (decodeAll decodeCard 0 raws).value with
      | none =>
        have hbad : ¬ ∀ raw ∈ raws, ProperCard raw := by
          rw [← decodeAll_decodeCard_clean_iff]
          intro h
          obtain ⟨cards, hcards, -⟩ := decodeAll_decodeCard_value h
          rw [hread] at hcards
          cases hcards
        simp [decodeAll_decodeCard_clean_iff, hbad]
      | some cards =>
        simp only [List.append_eq_nil_iff, decodeAll_decodeCard_clean_iff]
        -- what can be reached is a matter of lengths once the cards are in order
        rw [← and_assoc, and_comm (a := raws.length ≤ 256), and_assoc]
        refine and_congr_right fun hproper => ?_
        obtain ⟨cards', hcards', hall⟩ :=
          decodeAll_decodeCard_value (decodeAll_decodeCard_clean_iff.2 hproper)
        cases hread.symm.trans hcards'
        rw [← addressable_iff_of_echoes hall]
        simp
    | _ => simp [Json.array?]

/-- A program that was read without a warning says what the document says. -/
lemma decodeProgram_value (h : (decodeProgram doc).warnings = []) :
    List.Forall₂ EchoesCard (((doc.lookup "cards").bind Json.array?).getD [])
      ((decodeProgram doc).value.cards.map fun card => .array (card.map encodeInstruction)) := by
  have hproper := decodeProgram_clean_iff.1 h
  rw [decodeProgram] at h ⊢
  cases hfield : doc.lookup "cards" with
  | none => exact .nil
  | some raw =>
    obtain ⟨raws, rfl, -, hcards⟩ := hproper raw hfield
    have hclean : (decodeAll decodeCard 0 raws).warnings = [] :=
      decodeAll_decodeCard_clean_iff.2 (forall_properCard_iff.1 hcards).1
    obtain ⟨cards, hread, hall⟩ := decodeAll_decodeCard_value hclean
    simp only [hfield, Json.array?, hread, hclean, List.nil_append] at h ⊢
    have haddr : Addressable cards := by simpa using h
    rw [(Program.cards_ofCards_eq_iff cards).2 haddr]
    exact List.forall₂_map_right_iff.2 hall

/-- A document loads without a warning exactly if it is in order. -/
lemma decodeFields_clean_iff : (decodeFields doc).warnings = [] ↔ Proper doc := by
  simp only [decodeFields, List.append_eq_nil_iff, decodeVersion_clean_iff, decodePointer_clean_iff,
    decodeProgram_clean_iff, decodeRegisters_clean_iff, decodeData_clean_iff, decodeModeId_clean_iff]
  constructor
  · rintro ⟨⟨⟨⟨⟨⟨version, ip⟩, card⟩, cards⟩, registers⟩, data⟩, mode⟩
    exact ⟨version, ip, card, registers, cards, mode, data⟩
  · rintro ⟨version, ip, card, registers, cards, mode, data⟩
    exact ⟨⟨⟨⟨⟨⟨version, ip⟩, card⟩, cards⟩, registers⟩, data⟩, mode⟩

/-- A machine that was loaded without a warning is saved as the document says. -/
lemma decodeFields_echoes (h : (decodeFields doc).warnings = []) :
    Echoes doc (encode (decodeFields doc).value) := by
  have hparts := h
  simp only [decodeFields, List.append_eq_nil_iff] at hparts
  obtain ⟨⟨⟨⟨⟨⟨-, ip⟩, card⟩, program⟩, registers⟩, -⟩, -⟩ := hparts
  refine ⟨?_, ?_, ?_, ?_⟩
  · exact congrArg some (decodePointer_value ip)
  · exact congrArg some (decodePointer_value card)
  · intro r
    rw [← decodeRegisters_value registers r]
    cases r <;> rfl
  · exact ⟨_, rfl, decodeProgram_value program⟩

/-- A document loads without a warning exactly if it is in order, and what loads without a warning is
literally what the document says. -/
theorem decode_clean_iff_proper (doc : Fields) :
    ((decode (.object doc)).warnings = [] ↔ Proper doc) ∧
      ((decode (.object doc)).warnings = [] → Echoes doc (encode (decode (.object doc)).value)) :=
  ⟨decodeFields_clean_iff, decodeFields_echoes⟩

/-- A document with little in it, a null flag and fields of somebody else. -/
def sparseDocument : Fields :=
  [("cards", .array [.array [], .array [
      .object [("argument", int (-32768)), ("flag", .null), ("note", .bool true),
        ("opcode", .string "LDA")]]]),
    ("ip", int 255), ("owner", .array []), ("registers", .object [("B", int (-999))])]

theorem sparseDocument_clean :
    Proper sparseDocument ∧ Echoes sparseDocument (encode (decode (.object sparseDocument)).value) := by
  obtain ⟨proper, echoes⟩ := decode_clean_iff_proper sparseDocument
  have clean : (decode (.object sparseDocument)).warnings = [] := by decide
  exact ⟨proper.1 clean, echoes clean⟩

end CardMachine.Snapshot
