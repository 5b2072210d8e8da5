import CardMachine.Line.Parser
import CardMachine.Proofs.Decimal

/-!
# Written instructions are read back

The text of an instruction is two or three words with a space between them. The tokens of the line
are these words (`Instruction.ofLine_text`), each of them is found in the vocabulary under its own
meaning and no other, and a value is read back from its numeral (`value?_int`). So reading the text
gives the instruction, with its argument for an operand (`parse_text`).
-/

namespace CardMachine

namespace Token

/-- The characters of a single token, with no comment in it. -/
structure IsWord (word : List Char) : Prop where
  ne_nil : word ≠ []
  isPart {c : Char} (h : c ∈ word) : isPart c = true
  ne_semicolon {c : Char} (h : c ∈ word) : c ≠ ';'

/-- Characters that may stand in a token make a word. -/
lemma IsWord.of_all {word : List Char} (hne : word.isEmpty = false)
    (h : word.all (fun c => Token.isPart c && c != ';') = true) : IsWord word where
  ne_nil := by simpa using hne
  isPart hc := (Bool.and_eq_true_iff.1 (List.all_eq_true.1 h _ hc)).1
  ne_semicolon hc := by simpa using (Bool.and_eq_true_iff.1 (List.all_eq_true.1 h _ hc)).2

/-- A word is read as one token, up to the separator after it. -/
lemma scan_word {word rest : List Char} (h : IsWord word)
    (hrest : ∀ c ∈ rest.head?, isSeparator c = true) (column : Nat) :
    scan column (word ++ rest) =
      ⟨column, String.ofList word⟩ :: scan (column + Text.byteLength word) rest := by
  obtain ⟨c, cs, rfl⟩ := List.exists_cons_of_ne_nil h.ne_nil
  have hc : isSeparator c = false := by simpa [isPart] using h.isPart List.mem_cons_self
  have hcs : ∀ x ∈ cs, isPart x = true := fun x hx => h.isPart (List.mem_cons_of_mem c hx)
  have hstop : rest.takeWhile isPart = [] ∧ rest.dropWhile isPart = rest := by
    cases rest with
    | nil => exact ⟨rfl, rfl⟩
    | cons x rest =>
      have hx : ¬isPart x = true := by simp [isPart, hrest x rfl]
      exact ⟨List.takeWhile_cons_of_neg hx, List.dropWhile_cons_of_neg hx⟩
  rw [List.cons_append, scan.eq_def]
  dsimp only
  rw [if_neg (by simp [hc]), List.takeWhile_append_of_pos hcs, List.dropWhile_append_of_pos hcs,
    hstop.1, hstop.2, List.append_nil]

/-- A blank between tokens is skipped. -/
lemma scan_space (column : Nat) (rest : List Char) :
    scan column (' ' :: rest) = scan (column + 1) rest := by
  rw [scan.eq_def]
  rfl

/-- Nothing is cut off a line without a semicolon. -/
lemma uncommented_eq {line : String} (h : ∀ c ∈ line.toList, c ≠ ';') :
    uncommented line = line.toList := by
  rw [uncommented, ← List.append_nil line.toList,
    List.takeWhile_append_of_pos fun c hc => by simpa using h c hc]
  rfl

/-- The last word of a line is read as one token. -/
lemma scan_last {word : List Char} (h : IsWord word) (column : Nat) :
    scan column word = [⟨column, String.ofList word⟩] := by
  have hscan := @scan_word word [] h nofun column
  rw [List.append_nil] at hscan
  rw [hscan, scan.eq_def]

/-- A word with a blank after it is read as one token. -/
lemma scan_word_space {word : List Char} (h : IsWord word) (rest : List Char) (column : Nat) :
    scan column (word ++ ' ' :: rest) =
      ⟨column, String.ofList word⟩ :: scan (column + Text.byteLength word + 1) rest := by
  rw [scan_word h (by rintro c ⟨⟩; rfl), scan_space]

end Token

namespace Decimal

/-- The codes of the digits are 48 to 57. -/
lemma toNat_of_isDigit {c : Char} (h : c.isDigit = true) : 48 ≤ c.toNat ∧ c.toNat ≤ 57 := by
  simpa [Char.isDigit, UInt32.le_iff_toNat_le] using h

lemma isPart_of_isDigit {c : Char} (h : c.isDigit = true) : Token.isPart c = true := by
  obtain ⟨hlo, hhi⟩ := toNat_of_isDigit h
  have hcomma : c ≠ ',' := by rintro rfl; cases h
  simp only [Token.isPart, Token.isSeparator, Text.isBlank, hcomma, decide_false, Bool.or_false,
    Bool.not_eq_true', Bool.or_eq_false_iff, Bool.and_eq_false_iff, decide_eq_false_iff_not]
  omega

/-- Beyond code 57 there is no digit. -/
lemma val_lt_of_isDigit {c x : Char} (h : c.isDigit = true) (hx : 58 ≤ x.toNat) : ¬x.val ≤ c.val := by
  obtain ⟨hlo, hhi⟩ := toNat_of_isDigit h
  intro hle
  have hle' : x.toNat ≤ c.toNat := UInt32.le_iff_toNat_le.1 hle
  omega

lemma toUpper_of_isDigit {c : Char} (h : c.isDigit = true) : c.toUpper = c :=
  dif_neg fun hrange => val_lt_of_isDigit h (by decide) hrange.1

lemma isAlpha_of_isDigit {c : Char} (h : c.isDigit = true) : c.isAlpha = false := by
  have hupper : c.isUpper = false :=
    decide_eq_false fun hrange => val_lt_of_isDigit h (by decide) hrange.1
  have hlower : c.isLower = false :=
    Bool.and_eq_false_iff.2 (.inl (decide_eq_false (val_lt_of_isDigit h (by decide))))
  show (c.isUpper || c.isLower) = false
  rw [hupper, hlower]
  rfl

/-- An integer is written as one word. -/
lemma isWord_int (v : Int) : Token.IsWord (int v) where
  ne_nil := int_ne_nil v
  isPart h := by
    rcases isDigit_or_eq_of_mem_int h with hdigit | rfl
    · exact isPart_of_isDigit hdigit
    · rfl
  ne_semicolon h := by
    rcases isDigit_or_eq_of_mem_int h with hdigit | rfl
    · rintro rfl
      cases hdigit
    · decide

end Decimal

/-- A mnemonic is one word. -/
lemma Opcode.isWord_mnemonic (op : Opcode) : Token.IsWord op.mnemonic.toList := by
  cases op <;> exact .of_all rfl rfl

lemma Flag.isWord_name (f : Flag) : Token.IsWord f.name.toList := by
  cases f <;> exact .of_all rfl rfl

/-- An argument is written as one word. -/
lemma Argument.isWord_text (argument : Argument) : Token.IsWord argument.text.toList := by
  cases argument with
  | literal v =>
    rw [text, Decimal.text, String.toList_ofList]
    exact Decimal.isWord_int _
  | register r => cases r <;> exact .of_all rfl rfl

namespace Vocabulary

/-- A mnemonic is read as its opcode. -/
lemma opcode?_mnemonic (op : Opcode) : opcode? op.mnemonic = some op := by
  cases op <;> rfl

/-- A mnemonic is not read as a flag. -/
lemma flag?_mnemonic (op : Opcode) : flag? op.mnemonic = none := by
  cases op <;> rfl

lemma flag?_name (f : Flag) : flag? f.name = some f := by
  cases f <;> rfl

lemma register?_name (r : Register) : register? r.name = some r := by
  cases r <;> rfl

/-- A numeral is no register: the first character of a numeral is not a letter. -/
lemma register?_int (v : Int) : register? (Decimal.text v) = none := by
  obtain ⟨c, cs, e, hne⟩ := Decimal.int_eq_cons v
  have hupper : c.toUpper = c := by
    rcases Decimal.isDigit_or_eq_of_mem_int (e ▸ List.mem_cons_self) with hc | rfl
    · exact Decimal.toUpper_of_isDigit hc
    · rfl
  rw [register?, Register.ofName?, List.find?_eq_none]
  intro r _ hr
  have hname := congrArg String.toList (of_decide_eq_true hr)
  rw [Text.upper, Decimal.text, String.toList_ofList, String.toList_ofList, e, List.map_cons,
    hupper] at hname
  cases r <;> exact hne _ rfl (by decide) (List.cons.inj hname).1.symm

/-- An integer is no identifier. -/
lemma isIdentifier_int (v : Int) : isIdentifier (Decimal.text v) = false := by
  obtain ⟨c, cs, e, -⟩ := Decimal.int_eq_cons v
  rw [isIdentifier, Decimal.text, String.toList_ofList, e]
  rcases Decimal.isDigit_or_eq_of_mem_int (e ▸ List.mem_cons_self) with hc | rfl
  · have halpha := Decimal.isAlpha_of_isDigit hc
    have hscore : c ≠ '_' := by rintro rfl; cases hc
    simp [halpha, hscore]
  · rfl

end Vocabulary

namespace Line

/-- A natural number within the range of words is read back. -/
lemma magnitude?_nat {n : Nat} (h : n ≤ 32768) : magnitude? (Decimal.nat n) = some (n : Int) := by
  -- a digit is no `x`, so the numeral is not read as a hexadecimal one
  have hdigit {c : Char} (hc : c ∈ Decimal.nat n) := Decimal.isDigit_of_mem_nat hc
  have hread : decimalInt? (Decimal.nat n) = some (n : Int) := by
    have hnil := Decimal.nat_ne_nil n
    rw [decimalInt?, if_neg (by simpa [hnil] using fun c => hdigit), Decimal.value_nat]
  rw [magnitude?, hread, Option.filter_some, if_pos]
  · simp only [fits64, Bool.and_eq_true, decide_eq_true_eq]
    omega
  · intro hex e
    cases hdigit (c := 'x') (by rw [e]; simp)
  · intro hex e
    cases hdigit (c := 'X') (by rw [e]; simp)

/-- A value within the range of words is read back. -/
lemma value?_int {v : Int} (hlo : -32768 ≤ v) (hhi : v ≤ 32767) : value? (Decimal.int v) = some v := by
  rw [Decimal.int]
  split
  · next hneg =>
    rw [value?, magnitude?_nat (by omega), Option.map_some]
    congr 1
    omega
  · next hpos =>
    obtain ⟨c, cs, e⟩ := List.exists_cons_of_ne_nil (Decimal.nat_ne_nil v.natAbs)
    have hc : c.isDigit = true := Decimal.isDigit_of_mem_nat (e ▸ List.mem_cons_self)
    have hvalue : value? (Decimal.nat v.natAbs) = magnitude? (Decimal.nat v.natAbs) := by
      rw [e, value?]
      · rintro _ ⟨⟩; cases hc
      · rintro _ ⟨⟩; cases hc
    rw [hvalue, magnitude?_nat (by omega)]
    congr 1
    omega

end Line

/-- An argument as an operand. -/
def Argument.operand : Argument → Operand
  | .literal v => .literal v
  | .register r => .register r

/-- An instruction as it is written: flag and mnemonic have three letters each, and a space after
them. -/
def Instruction.written (i : Instruction) : WrittenInstruction :=
  ⟨i.flag, i.opcode, i.argument.operand, if i.flag.isSome then 9 else 5⟩

/-- The line of an instruction. -/
def Instruction.line (i : Instruction) : Line :=
  .instruction none i.written

/-- An instruction is written as its flag, if there is one, its mnemonic and its argument. -/
lemma Instruction.toList_text (i : Instruction) :
    i.text.toList = match i.flag with
      | none => i.opcode.mnemonic.toList ++ ' ' :: i.argument.text.toList
      | some f => f.name.toList ++ ' ' :: (i.opcode.mnemonic.toList ++ ' ' :: i.argument.text.toList) := by
  rw [text]
  cases i.flag <;> simp

/-- There is nothing in the text of an instruction but the characters of its words and spaces. -/
lemma Instruction.mem_text {i : Instruction} {c : Char} (h : c ∈ i.text.toList) :
    c = ' ' ∨ ∃ word, Token.IsWord word ∧ c ∈ word := by
  rw [toList_text] at h
  cases hf : i.flag with
  | none =>
    simp only [hf, List.mem_append, List.mem_cons] at h
    rcases h with h | rfl | h
    · exact .inr ⟨_, i.opcode.isWord_mnemonic, h⟩
    · exact .inl rfl
    · exact .inr ⟨_, i.argument.isWord_text, h⟩
  | some f =>
    simp only [hf, List.mem_append, List.mem_cons] at h
    rcases h with h | rfl | h | rfl | h
    · exact .inr ⟨_, f.isWord_name, h⟩
    · exact .inl rfl
    · exact .inr ⟨_, i.opcode.isWord_mnemonic, h⟩
    · exact .inl rfl
    · exact .inr ⟨_, i.argument.isWord_text, h⟩

/-- In the text of an instruction there is no comment. -/
lemma Instruction.ne_semicolon {i : Instruction} {c : Char} (h : c ∈ i.text.toList) : c ≠ ';' := by
  rcases mem_text h with rfl | ⟨word, hword, hc⟩
  · decide
  · exact hword.ne_semicolon hc

/-- The tokens of an instruction are the words it is written with. -/
lemma Instruction.ofLine_text (i : Instruction) :
    Token.ofLine i.text = match i.flag with
      | none => [⟨1, i.opcode.mnemonic⟩, ⟨5, i.argument.text⟩]
      | some f => [⟨1, f.name⟩, ⟨5, i.opcode.mnemonic⟩, ⟨9, i.argument.text⟩] := by
  have hflag (f : Flag) : Text.byteLength f.name.toList = 3 := by cases f <;> rfl
  have hmnemonic : Text.byteLength i.opcode.mnemonic.toList = 3 := by cases i.opcode <;> rfl
  rw [Token.ofLine, Token.uncommented_eq fun _ => ne_semicolon, toList_text]
  cases i.flag with
  | none =>
    dsimp only
    rw [Token.scan_word_space i.opcode.isWord_mnemonic, Token.scan_last i.argument.isWord_text, hmnemonic]
    simp only [String.ofList_toList]
  | some f =>
    dsimp only
    rw [Token.scan_word_space f.isWord_name, Token.scan_word_space i.opcode.isWord_mnemonic,
      Token.scan_last i.argument.isWord_text, hmnemonic, hflag]
    simp only [String.ofList_toList]

namespace Line

/-- An argument is read back from its text. -/
lemma readOperand_text (argument : Argument) (column : Nat) :
    readOperand ⟨column, argument.text⟩ = .ok argument.operand := by
  cases argument with
  | register r =>
    rw [readOperand, Argument.text]
    dsimp only
    rw [Vocabulary.register?_name]
    rfl
  | literal v =>
    have hlo := v.le_toInt
    have hhi := v.toInt_lt
    rw [readOperand, Argument.text]
    dsimp only
    rw [Vocabulary.register?_int]
    dsimp only
    rw [if_neg (by rw [Vocabulary.isIdentifier_int]; decide), Decimal.text, String.toList_ofList,
      value?_int (by omega) (by omega), Option.bind_some, Word.ofInt?_toInt]
    rfl

/-- The operand of an instruction is read back from the text of its argument. -/
lemma readOperands_text (flag : Option Flag) (op : Opcode) (argument : Argument) (column column' : Nat) :
    readOperands flag ⟨column, op.mnemonic⟩ [⟨column', argument.text⟩] =
      .ok ⟨flag, op, argument.operand, column'⟩ := by
  rw [readOperands, Vocabulary.opcode?_mnemonic]
  dsimp only
  rw [readOperand_text]
  rfl

/-- Tokens that start with neither a directive nor a label are read as an instruction. -/
lemma ofTokens_instruction {first : Token} (hdot : first.text.toList.head? ≠ some '.')
    (hcolon : first.text.toList.getLast? ≠ some ':') (rest : List Token) :
    ofTokens (first :: rest) = (readInstruction first rest).map (.instruction none) := by
  rw [ofTokens]
  split
  · next e => rw [e] at hdot; exact absurd rfl hdot
  · rw [labelName?, if_neg hcolon]

/-- Reading the text of an instruction gives the instruction. -/
lemma parse_text (i : Instruction) : parse i.text = .ok i.line := by
  rw [parse, i.ofLine_text, Instruction.line, Instruction.written]
  cases i.flag with
  | none =>
    dsimp only
    rw [ofTokens_instruction (by cases i.opcode <;> decide) (by cases i.opcode <;> decide),
      readInstruction, Vocabulary.flag?_mnemonic]
    dsimp only
    rw [readOperands_text]
    rfl
  | some f =>
    dsimp only
    rw [ofTokens_instruction (by cases f <;> decide) (by cases f <;> decide), readInstruction,
      Vocabulary.flag?_name]
    dsimp only
    rw [readOperands_text]
    rfl

/-- The heading that is written before a card is read as one. -/
lemma parse_heading : parse ".card" = .ok (.card none) := by
  have hword : Token.IsWord ".card".toList := .of_all rfl rfl
  rw [parse, Token.ofLine, Token.uncommented_eq fun _ => hword.ne_semicolon, Token.scan_last hword]
  rfl

end Line

end CardMachine
