import CardMachine.Proofs.Line
import Mathlib.Data.List.Sort
import Mathlib.Data.List.TakeWhile

/-!
# The grammar of a line

A line is read in two steps, and each has a description here that does not read anything.

The tokens of a line are the longest runs of characters that do not separate, from left to right, in
what stands before the first semicolon (`Token.AreTokens`). Between two separators there is one run, so
a line has one list of tokens, and the scanner finds it (`Token.areTokens_iff`).

A `Phrase` is what a list of tokens can be taken for: which of them is the label, the flag, the mnemonic
and so on. `Phrase.Means` says when the tokens can play these parts, and what line they make. No token
can play two parts (`Phrase.Means.eq_of_tokens_eq`), and the parser finds the phrase if there is one
(`ofTokens_eq_ok_iff`).
-/

namespace CardMachine

lemma map_eq_ok_iff {ε α β : Type} {f : α → β} {result : Except ε α} {b : β} :
    result.map f = .ok b ↔ ∃ a, result = .ok a ∧ f a = b := by
  cases result <;> simp [Except.map]

lemma map_eq_error_iff {ε α β : Type} {f : α → β} {result : Except ε α} {e : ε} :
    result.map f = .error e ↔ result = .error e := by
  cases result <;> simp [Except.map]

/-- A list is cut where a property stops to hold. -/
lemma span_append {α : Type} {p : α → Bool} {l rest : List α} (inside : ∀ a ∈ l, p a = true)
    (stop : ∀ a, rest.head? = some a → p a = false) :
    (l ++ rest).takeWhile p = l ∧ (l ++ rest).dropWhile p = rest := by
  rw [List.takeWhile_append_of_pos inside, List.dropWhile_append_of_pos inside]
  cases rest with
  | nil => exact ⟨List.append_nil _, rfl⟩
  | cons a rest =>
    have ha : ¬p a = true := by simp [stop a rfl]
    rw [List.takeWhile_cons_of_neg ha, List.dropWhile_cons_of_neg ha]
    exact ⟨List.append_nil _, rfl⟩

namespace Text

lemma byteLength_cons (c : Char) (cs : List Char) :
    byteLength (c :: cs) = c.utf8Size + byteLength cs := rfl

lemma byteLength_append (cs ds : List Char) :
    byteLength (cs ++ ds) = byteLength cs + byteLength ds := by
  induction cs with
  | nil => exact (Nat.zero_add _).symm
  | cons c cs ih => rw [List.cons_append, byteLength_cons, byteLength_cons, ih, Nat.add_assoc]

lemma byteLength_pos {cs : List Char} (h : cs ≠ []) : 0 < byteLength cs := by
  obtain ⟨c, cs, rfl⟩ := List.exists_cons_of_ne_nil h
  rw [byteLength_cons]
  exact Nat.add_pos_left c.utf8Size_pos _

end Text

namespace Token

/-- A word ends where the first separator stands. -/
lemma span_word {word rest : List Char} (inside : ∀ c ∈ word, isSeparator c = false)
    (after : ∀ c, rest.head? = some c → isSeparator c = true) :
    (word ++ rest).takeWhile isPart = word ∧ (word ++ rest).dropWhile isPart = rest := by
  refine span_append (fun c hc => ?_) fun c hc => ?_
  · rw [isPart, inside c hc]; rfl
  · rw [isPart, after c hc]; rfl

/-- The token is a longest run of characters that do not separate, in a text that starts at `column`:
right before it and right after it stands a separator, if anything. -/
inductive IsRun (column : Nat) : List Char → Token → Prop where
  | mk {front word back : List Char}
    (ne_nil : word ≠ [])
    (inside : ∀ c ∈ word, isSeparator c = false)
    (before : ∀ c, front.getLast? = some c → isSeparator c = true)
    (after : ∀ c, back.head? = some c → isSeparator c = true) :
    IsRun column (front ++ (word ++ back)) ⟨column + Text.byteLength front, String.ofList word⟩

/-- The tokens are the longest runs of the text before the first semicolon, from left to right. -/
structure AreTokens (line : String) (tokens : List Token) : Prop where
  mem_iff : ∃ text, ';' ∉ text ∧ (line.toList = text ∨ ∃ comment, line.toList = text ++ ';' :: comment) ∧
    ∀ t, t ∈ tokens ↔ IsRun 1 text t
  ordered : tokens.Pairwise (·.column < ·.column)

namespace IsRun

/-- A run starts where the text does, or later. -/
lemma le_column {column : Nat} {text : List Char} {t : Token} (h : IsRun column text t) :
    column ≤ t.column := by
  cases h
  exact Nat.le_add_right _ _

lemma not_nil {column : Nat} {t : Token} : ¬IsRun column [] t := by
  intro h
  generalize e : ([] : List Char) = text at h
  cases h with
  | mk ne_nil =>
    obtain ⟨-, e⟩ := List.append_eq_nil_iff.1 e.symm
    exact ne_nil (List.append_eq_nil_iff.1 e).1

/-- A separator in front belongs to no run. -/
lemma cons_separator_iff {column : Nat} {c : Char} {rest : List Char} {t : Token}
    (hc : isSeparator c = true) :
    IsRun column (c :: rest) t ↔ IsRun (column + c.utf8Size) rest t := by
  constructor
  · intro h
    generalize e : c :: rest = text at h
    cases h with
    | @mk front word back ne_nil inside before after =>
      cases front with
      | nil =>
        obtain ⟨d, word, rfl⟩ := List.exists_cons_of_ne_nil ne_nil
        cases e
        rw [inside c List.mem_cons_self] at hc
        cases hc
      | cons d front =>
        cases e
        rw [Text.byteLength_cons, ← Nat.add_assoc]
        refine .mk ne_nil inside (fun x hx => before x ?_) after
        rw [List.getLast?_cons, hx]
        rfl
  · intro h
    cases h with
    | @mk front word back ne_nil inside before after =>
      rw [Nat.add_assoc, ← Text.byteLength_cons]
      refine @mk column (c :: front) word back ne_nil inside (fun x hx => ?_) after
      cases hlast : front.getLast? with
      | none =>
        rw [List.getLast?_cons, hlast] at hx
        cases hx
        exact hc
      | some y =>
        rw [List.getLast?_cons, hlast] at hx
        cases hx
        exact before y hlast

/-- The first run of a text that starts with it, and the runs after it. -/
lemma append_iff {column : Nat} {word rest : List Char} {t : Token} (ne_nil : word ≠ [])
    (inside : ∀ c ∈ word, isSeparator c = false)
    (after : ∀ c, rest.head? = some c → isSeparator c = true) :
    IsRun column (word ++ rest) t ↔
      t = ⟨column, String.ofList word⟩ ∨ IsRun (column + Text.byteLength word) rest t := by
  constructor
  · intro h
    generalize e : word ++ rest = text at h
    cases h with
    | @mk front other back ne_nil' inside' before' after' =>
      cases front with
      | nil =>
        have hword := (span_word inside after).1
        rw [e] at hword
        cases hword.symm.trans (span_word inside' after').1
        exact .inl rfl
      | cons d front =>
        rcases List.append_eq_append_iff.1 e with ⟨gap, hfront, rfl⟩ | ⟨more, rfl, -⟩
        · rw [hfront, Text.byteLength_append, ← Nat.add_assoc]
          refine .inr (.mk ne_nil' inside' (fun c hc => before' c ?_) after')
          rw [hfront, List.getLast?_append, hc]
          rfl
        · -- the run would start inside of the word
          have hlast := List.getLast?_eq_some_getLast (List.cons_ne_nil d front)
          have hmem := List.mem_append_left more (List.mem_of_getLast? hlast)
          have hsep := before' _ hlast
          rw [inside _ hmem] at hsep
          cases hsep
  · rintro (rfl | h)
    · exact @mk column [] word rest ne_nil inside nofun after
    · cases h with
      | @mk front other back ne_nil' inside' before' after' =>
        cases front with
        | nil =>
          -- after the word stands a separator, so no run starts there
          obtain ⟨d, other, rfl⟩ := List.exists_cons_of_ne_nil ne_nil'
          have hsep := after d rfl
          rw [inside' d List.mem_cons_self] at hsep
          cases hsep
        | cons d front =>
          rw [Nat.add_assoc, ← Text.byteLength_append, ← List.append_assoc]
          refine .mk ne_nil' inside' (fun c hc => before' c ?_) after'
          rwa [List.getLast?_append, List.getLast?_cons, Option.some_or, ← List.getLast?_cons] at hc

end IsRun

/-- The tokens of a text are its runs. -/
lemma mem_scan_iff {column : Nat} {text : List Char} {t : Token} :
    t ∈ scan column text ↔ IsRun column text t := by
  fun_induction scan column text with
  | case1 column => simp [IsRun.not_nil]
  | case2 column c rest hc ih => rw [ih, IsRun.cons_separator_iff hc]
  | case3 column c rest hc word ih =>
    have split : c :: rest = word ++ rest.dropWhile isPart :=
      congrArg (c :: ·) List.takeWhile_append_dropWhile.symm
    have inside : ∀ d ∈ word, isSeparator d = false := by
      intro d hd
      rcases List.mem_cons.1 hd with rfl | hd
      · simpa using hc
      · simpa [isPart] using List.mem_takeWhile_imp hd
    have after : ∀ d, (rest.dropWhile isPart).head? = some d → isSeparator d = true := by
      intro d hd
      have hnot := List.head?_dropWhile_not isPart rest
      rw [hd] at hnot
      simpa [isPart] using hnot
    rw [List.mem_cons, ih, split, IsRun.append_iff (List.cons_ne_nil c _) inside after]

/-- Tokens come in the order of their columns. -/
lemma pairwise_scan (column : Nat) (text : List Char) :
    (scan column text).Pairwise (·.column < ·.column) := by
  fun_induction scan column text with
  | case1 => exact .nil
  | case2 _ _ _ _ ih => exact ih
  | case3 column c rest hc word ih =>
    refine List.pairwise_cons.2 ⟨fun t ht => ?_, ih⟩
    have hle := (mem_scan_iff.1 ht).le_column
    have hpos : 0 < Text.byteLength word := Text.byteLength_pos (List.cons_ne_nil c _)
    show column < t.column
    omega

/-- What stands before the first semicolon is what a comment leaves. -/
lemma uncommented_eq_iff {line : String} {text : List Char} :
    text = uncommented line ↔ ';' ∉ text ∧
      (line.toList = text ∨ ∃ comment, line.toList = text ++ ';' :: comment) := by
  rw [uncommented]
  constructor
  · rintro rfl
    refine ⟨fun hmem => by simpa using List.mem_takeWhile_imp hmem, ?_⟩
    have split : line.toList = line.toList.takeWhile (· ≠ ';') ++ line.toList.dropWhile (· ≠ ';') :=
      List.takeWhile_append_dropWhile.symm
    cases hrest : line.toList.dropWhile (· ≠ ';') with
    | nil =>
      rw [hrest, List.append_nil] at split
      exact .inl split
    | cons c comment =>
      have hnot := List.head?_dropWhile_not (fun d : Char => decide (d ≠ ';')) line.toList
      rw [hrest] at hnot
      obtain rfl : c = ';' := by simpa using hnot
      exact .inr ⟨comment, split.trans (congrArg _ hrest)⟩
  · rintro ⟨hnot, hline⟩
    have hall : ∀ c ∈ text, decide (c ≠ ';') = true := by
      intro c hc
      refine decide_eq_true ?_
      rintro rfl
      exact hnot hc
    rcases hline with hline | ⟨comment, hline⟩
    · rw [hline, List.takeWhile_eq_self_iff.2 hall]
    · rw [hline, List.takeWhile_append_of_pos hall]
      exact (List.append_nil _).symm

/-- A line has one list of tokens, and the scanner finds it. -/
lemma areTokens_iff {line : String} {tokens : List Token} :
    AreTokens line tokens ↔ tokens = ofLine line := by
  constructor
  · rintro ⟨⟨text, hnot, hline, hmem⟩, ordered⟩
    obtain rfl := uncommented_eq_iff.2 ⟨hnot, hline⟩
    have : Std.Antisymm fun t t' : Token => t.column < t'.column :=
      ⟨fun t t' h h' => absurd h (Nat.lt_asymm h')⟩
    have : Std.Irrefl fun t t' : Token => t.column < t'.column := ⟨fun t => Nat.lt_irrefl t.column⟩
    exact ordered.eq_of_mem_iff (pairwise_scan 1 _) fun t => (hmem t).trans mem_scan_iff.symm
  · rintro rfl
    obtain ⟨hnot, hline⟩ := uncommented_eq_iff.1 (Eq.refl (uncommented line))
    exact ⟨⟨_, hnot, hline, fun _ => mem_scan_iff⟩, pairwise_scan 1 _⟩

end Token

namespace Vocabulary

/-- A word names an opcode exactly if it is the mnemonic, in letters of any case. -/
lemma opcode?_eq_some_iff {word : String} {op : Opcode} :
    opcode? word = some op ↔ Text.upper word = op.mnemonic :=
  Opcode.ofMnemonic?_eq_some_iff

lemma flag?_eq_some_iff {word : String} {f : Flag} :
    flag? word = some f ↔ Text.upper word = f.name :=
  Flag.ofName?_eq_some_iff

lemma register?_eq_some_iff {word : String} {r : Register} :
    register? word = some r ↔ Text.upper word = r.name :=
  Register.ofName?_eq_some_iff

end Vocabulary

/-- A name: an ASCII letter or `_`, then ASCII letters, digits or `_`, and no register, flag or mnemonic,
in capitals or not. -/
structure IsName (name : String) : Prop where
  letters : ∃ first rest, name.toList = first :: rest ∧ (first.isAlpha = true ∨ first = '_') ∧
    ∀ c ∈ rest, c.isAlphanum = true ∨ c = '_'
  not_register (r : Register) : Text.upper name ≠ r.name
  not_flag (f : Flag) : Text.upper name ≠ f.name
  not_mnemonic (op : Opcode) : Text.upper name ≠ op.mnemonic

/-- What the tokens of a line can be taken for. -/
inductive Phrase
  | blank
  | card (word : Token) (name : Option Token)
  | label (mark : Token)
  | instruction (mark flag : Option Token) (mnemonic operand : Token)

namespace Phrase

/-- The tokens of a phrase, in order. -/
def tokens : Phrase → List Token
  | .blank => []
  | .card word name => word :: name.toList
  | .label mark => [mark]
  | .instruction mark flag mnemonic operand => mark.toList ++ (flag.toList ++ [mnemonic, operand])

/-- The token is a name with a colon. -/
def Marks (mark : Token) (name : String) : Prop :=
  mark.text = name ++ ":" ∧ IsName name

/-- The token is the word of the flag, in capitals or not. -/
def Flags (word : Token) (f : Flag) : Prop :=
  Text.upper word.text = f.name

/-- The tokens of a phrase can play their parts, and make this line. -/
inductive Means : Phrase → Line → Prop where
  | blank :
    Means .blank .blank
  | card {word : Token} :
    Text.upper word.text = ".CARD" →
    Means (.card word none) (.card none)
  | namedCard {word name : Token} :
    Text.upper word.text = ".CARD" →
    IsName name.text →
    Means (.card word (some name)) (.card (some name.text))
  | label {mark : Token} {name : String} :
    Marks mark name →
    Means (.label mark) (.label name)
  | instruction {mark word : Option Token} {label : Option String} {flag : Option Flag}
    {mnemonic token : Token} {opcode : Opcode} {operand : Operand} :
    Option.Rel Marks mark label →
    Option.Rel Flags word flag →
    Text.upper mnemonic.text = opcode.mnemonic →
    Line.readOperand token = .ok operand →
    Means (.instruction mark word mnemonic token)
      (.instruction label ⟨flag, opcode, operand, token.column⟩)

end Phrase

namespace Text

lemma toList_upper (word : String) : (upper word).toList = word.toList.map Char.toUpper :=
  String.toList_ofList

/-- No letter has a dot for its capital. -/
lemma eq_of_toUpper_eq_dot {c : Char} (h : c.toUpper = '.') : c = '.' := by
  delta Char.toUpper at h
  split at h
  · next hrange =>
    -- a small letter becomes a capital one, and a dot is none
    have hlo : 97 ≤ c.toNat := UInt32.le_iff_toNat_le.1 hrange.1
    have hhi : c.toNat ≤ 122 := UInt32.le_iff_toNat_le.1 hrange.2
    have hdot : (c.toNat + 4294967264) % 4294967296 = 46 := by
      simpa using congrArg Char.toNat h
    omega
  · exact h

end Text

/-- A word neither starts with a dot nor ends with a colon. -/
def IsPlain (word : String) : Prop :=
  word.toList.head? ≠ some '.' ∧ word.toList.getLast? ≠ some ':'

/-- A word is plain if it is plain in capitals. -/
lemma IsPlain.of_upper {word known : String} (plain : IsPlain known) (h : Text.upper word = known) :
    IsPlain word := by
  subst h
  rw [IsPlain, Text.toList_upper, List.head?_map, List.getLast?_map] at plain
  refine ⟨fun e => plain.1 ?_, fun e => plain.2 ?_⟩
  · rw [e]; rfl
  · rw [e]; rfl

/-- Mnemonics are plain words. -/
lemma Opcode.isPlain_mnemonic (op : Opcode) : IsPlain op.mnemonic := by
  cases op <;> exact ⟨by decide, by decide⟩

/-- Names of flags are plain words. -/
lemma Flag.isPlain_name (f : Flag) : IsPlain f.name := by
  cases f <;> exact ⟨by decide, by decide⟩

/-- No flag has the name of an opcode. -/
lemma Flag.name_ne_mnemonic (f : Flag) (op : Opcode) : f.name ≠ op.mnemonic := by
  cases f <;> cases op <;> decide

/-- A heading is a dot and the word after it. -/
lemma upper_eq_heading_iff {text : String} :
    Text.upper text = ".CARD" ↔
      ∃ word, text.toList = '.' :: word ∧ Text.upper (String.ofList word) = "CARD" := by
  have hlist (text known : String) : Text.upper text = known ↔ text.toList.map Char.toUpper = known.toList := by
    rw [← Text.toList_upper, String.toList_inj]
  simp only [hlist, String.toList_ofList]
  cases text.toList with
  | nil => simp
  | cons c word =>
    constructor
    · intro h
      obtain ⟨hc, hword⟩ := List.cons.inj h
      exact ⟨word, by rw [Text.eq_of_toUpper_eq_dot hc], hword⟩
    · rintro ⟨word, e, hword⟩
      cases e
      exact congrArg ('.' :: ·) hword

namespace Vocabulary

/-- An identifier is a letter or underscore, and then letters, digits and underscores. -/
lemma isIdentifier_iff {word : String} :
    isIdentifier word = true ↔ ∃ first rest, word.toList = first :: rest ∧
      (first.isAlpha = true ∨ first = '_') ∧ ∀ c ∈ rest, c.isAlphanum = true ∨ c = '_' := by
  rw [isIdentifier]
  cases word.toList with
  | nil => simp
  | cons first rest => simp

/-- A word is free if it is no register, no flag and no mnemonic. -/
lemma isReserved_eq_false_iff {word : String} :
    isReserved word = false ↔ (∀ r : Register, Text.upper word ≠ r.name) ∧
      (∀ f : Flag, Text.upper word ≠ f.name) ∧ ∀ op : Opcode, Text.upper word ≠ op.mnemonic := by
  simp only [isReserved, Bool.or_eq_false_iff, Option.isSome_eq_false_iff, Option.isNone_iff_eq_none,
    Option.eq_none_iff_forall_ne_some, ne_eq, register?_eq_some_iff, flag?_eq_some_iff,
    opcode?_eq_some_iff, and_assoc]

end Vocabulary

/-- The names are the identifiers that are free. -/
lemma isName_iff {name : String} :
    IsName name ↔ Vocabulary.isIdentifier name = true ∧ Vocabulary.isReserved name = false := by
  rw [Vocabulary.isIdentifier_iff, Vocabulary.isReserved_eq_false_iff]
  constructor
  · rintro ⟨letters, register, flag, mnemonic⟩
    exact ⟨letters, register, flag, mnemonic⟩
  · rintro ⟨letters, register, flag, mnemonic⟩
    exact ⟨letters, register, flag, mnemonic⟩

namespace Line

open Phrase

/-- A name is read as it is written. -/
lemma readName_eq_ok_iff {name name' : String} {column : Nat} :
    readName name column = .ok name' ↔ name = name' ∧ IsName name := by
  rw [readName, isName_iff]
  cases Vocabulary.isIdentifier name <;> cases Vocabulary.isReserved name <;> simp

/-- A label is marked by a colon at its end. -/
lemma labelName?_eq_some_iff {text name : String} :
    labelName? text = some name ↔ text = name ++ ":" := by
  rw [labelName?]
  constructor
  · intro h
    split at h
    · next hlast =>
      cases h
      rw [← String.toList_inj, String.toList_append, String.toList_ofList]
      exact (List.dropLast_append_getLast? _ hlast).symm
    · cases h
  · rintro rfl
    simp

/-- After the mnemonic there is one operand. -/
lemma readOperands_eq_ok_iff {flag : Option Flag} {mnemonic : Token} {operands : List Token}
    {written : WrittenInstruction} :
    readOperands flag mnemonic operands = .ok written ↔
      ∃ opcode token operand, Text.upper mnemonic.text = opcode.mnemonic ∧ operands = [token] ∧
        readOperand token = .ok operand ∧ written = ⟨flag, opcode, operand, token.column⟩ := by
  rw [readOperands]
  constructor
  · intro h
    split at h
    · cases h
    · next opcode hopcode =>
      split at h
      · cases h
      · next token =>
        obtain ⟨operand, hread, rfl⟩ := map_eq_ok_iff.1 h
        exact ⟨opcode, token, operand, Vocabulary.opcode?_eq_some_iff.1 hopcode, rfl, hread, rfl⟩
      · cases h
  · rintro ⟨opcode, token, operand, hopcode, rfl, hread, rfl⟩
    rw [Vocabulary.opcode?_eq_some_iff.2 hopcode]
    exact map_eq_ok_iff.2 ⟨operand, hread, rfl⟩

/-- An instruction is a mnemonic and an operand, with or without a flag in front. -/
lemma readInstruction_eq_ok_iff {first : Token} {rest : List Token} {written : WrittenInstruction} :
    readInstruction first rest = .ok written ↔
      ∃ word mnemonic token flag opcode operand, first :: rest = word.toList ++ [mnemonic, token] ∧
        Option.Rel Flags word flag ∧ Text.upper mnemonic.text = opcode.mnemonic ∧
        readOperand token = .ok operand ∧ written = ⟨flag, opcode, operand, token.column⟩ := by
  rw [readInstruction]
  constructor
  · intro h
    split at h
    · obtain ⟨opcode, token, operand, hopcode, rfl, hread, rfl⟩ := readOperands_eq_ok_iff.1 h
      exact ⟨none, first, token, none, opcode, operand, rfl, .none, hopcode, hread, rfl⟩
    · next flag hflag =>
      split at h
      · cases h
      · next mnemonic operands =>
        obtain ⟨opcode, token, operand, hopcode, rfl, hread, rfl⟩ := readOperands_eq_ok_iff.1 h
        exact ⟨some first, mnemonic, token, some flag, opcode, operand, rfl,
          .some (Vocabulary.flag?_eq_some_iff.1 hflag), hopcode, hread, rfl⟩
  · rintro ⟨word, mnemonic, token, flag, opcode, operand, e, hword, hopcode, hread, rfl⟩
    cases hword with
    | none =>
      cases e
      have hflag : Vocabulary.flag? first.text = none := by
        refine Option.eq_none_iff_forall_ne_some.2 fun f hf => ?_
        exact f.name_ne_mnemonic opcode ((Vocabulary.flag?_eq_some_iff.1 hf).symm.trans hopcode)
      rw [hflag]
      exact readOperands_eq_ok_iff.2 ⟨opcode, token, operand, hopcode, rfl, hread, rfl⟩
    | some hflag =>
      cases e
      rw [Vocabulary.flag?_eq_some_iff.2 hflag]
      exact readOperands_eq_ok_iff.2 ⟨opcode, token, operand, hopcode, rfl, hread, rfl⟩

/-- The one directive is `.card`, with or without a name. -/
lemma readDirective_eq_ok_iff {word : String} {column : Nat} {args : List Token} {line : Line} :
    readDirective word column args = .ok line ↔ Text.upper word = "CARD" ∧
      (args = [] ∧ line = .card none ∨
        ∃ name : Token, args = [name] ∧ IsName name.text ∧ line = .card (some name.text)) := by
  rw [readDirective.eq_def]
  by_cases hword : Text.upper word = "CARD"
  · rw [if_neg (not_not.2 hword)]
    constructor
    · intro h
      refine ⟨hword, ?_⟩
      split at h
      · cases h
        exact .inl ⟨rfl, rfl⟩
      · next name =>
        obtain ⟨name', hread, rfl⟩ := map_eq_ok_iff.1 h
        obtain ⟨rfl, hname⟩ := readName_eq_ok_iff.1 hread
        exact .inr ⟨name, rfl, hname, rfl⟩
      · cases h
    · rintro ⟨-, ⟨rfl, rfl⟩ | ⟨name, rfl, hname, rfl⟩⟩
      · rfl
      · exact map_eq_ok_iff.2 ⟨name.text, readName_eq_ok_iff.2 ⟨rfl, hname⟩, rfl⟩
  · rw [if_pos hword]
    constructor
    · rintro ⟨⟩
    · rintro ⟨h, -⟩
      exact absurd h hword

/-- A dot in front makes a directive. -/
lemma ofTokens_directive {first : Token} {word : List Char} (h : first.text.toList = '.' :: word)
    (rest : List Token) :
    ofTokens (first :: rest) = readDirective (String.ofList word) first.column rest := by
  rw [ofTokens.eq_def]
  dsimp only
  rw [h]
  rfl

/-- Reads a line after the mark on it. -/
def readMarked (name : String) : List Token → Except LineError Line
  | [] => .ok (.label name)
  | next :: rest => (readInstruction next rest).map (.instruction (some name))

/-- A colon at the end of the first token makes a label. -/
lemma ofTokens_marked {first : Token} {name : String} (hdot : first.text.toList.head? ≠ some '.')
    (hcolon : first.text = name ++ ":") (rest : List Token) {line : Line} :
    ofTokens (first :: rest) = .ok line ↔ IsName name ∧ readMarked name rest = .ok line := by
  rw [ofTokens]
  split
  · next word e =>
    rw [e] at hdot
    exact absurd rfl hdot
  · rw [labelName?_eq_some_iff.2 hcolon]
    dsimp only
    cases hread : readName name first.column with
    | error e =>
      have hname : ¬IsName name := by
        intro hname
        rw [readName_eq_ok_iff.2 ⟨rfl, hname⟩] at hread
        cases hread
      simp [hname]
    | ok name' =>
      obtain ⟨rfl, hname⟩ := readName_eq_ok_iff.1 hread
      rw [and_iff_right hname]
      cases rest <;> rfl

end Line

namespace Phrase

/-- A mark does not start with a dot. -/
lemma Marks.head?_ne_dot {mark : Token} {name : String} (h : Marks mark name) :
    mark.text.toList.head? ≠ some '.' := by
  obtain ⟨first, rest, e, hfirst, -⟩ := h.2.letters
  rw [h.1, String.toList_append, e]
  rintro ⟨⟩
  rcases hfirst with hfirst | hfirst <;> cases hfirst

/-- A mark ends in a colon. -/
lemma Marks.getLast?_eq_colon {mark : Token} {name : String} (h : Marks mark name) :
    mark.text.toList.getLast? = some ':' := by
  rw [h.1, String.toList_append]
  exact List.getLast?_concat

/-- An instruction starts with a plain word, the mark apart. -/
lemma exists_plain {word : Option Token} {flag : Option Flag} {mnemonic : Token} {opcode : Opcode}
    (hword : Option.Rel Flags word flag) (hopcode : Text.upper mnemonic.text = opcode.mnemonic)
    (token : Token) : ∃ first rest,
    word.toList ++ [mnemonic, token] = first :: rest ∧ IsPlain first.text := by
  cases hword with
  | none => exact ⟨_, _, rfl, opcode.isPlain_mnemonic.of_upper hopcode⟩
  | @some _ flag hflag => exact ⟨_, _, rfl, flag.isPlain_name.of_upper hflag⟩

/-- After the mark, the number of tokens tells whether there is a flag. -/
lemma congr_instruction {word word' : Option Token} {mnemonic mnemonic' token token' : Token}
    (mark : Option Token) (e : word.toList ++ [mnemonic, token] = word'.toList ++ [mnemonic', token']) :
    Phrase.instruction mark word mnemonic token = .instruction mark word' mnemonic' token' := by
  cases word <;> cases word' <;> cases e <;> rfl

namespace Means

variable {phrase phrase' : Phrase} {line line' : Line}

/-- Only the blank phrase has no tokens. -/
lemma eq_blank (h : phrase.Means line) (e : phrase.tokens = []) : phrase = .blank := by
  cases h with
  | blank => rfl
  | card | namedCard | label => cases e
  | @instruction mark word => cases mark <;> cases word <;> cases e

/-- What starts with a dot is a card. -/
lemma eq_card (h : phrase.Means line) {word : Token} {name : Option Token}
    (hword : Text.upper word.text = ".CARD") (e : phrase.tokens = word :: name.toList) :
    phrase = .card word name := by
  have hdot : word.text.toList.head? = some '.' := by
    obtain ⟨rest, hrest, -⟩ := upper_eq_heading_iff.1 hword
    rw [hrest]
    rfl
  cases h with
  | blank => cases e
  | card => cases name <;> cases e; rfl
  | namedCard => cases name <;> cases e; rfl
  | label hmark =>
    cases name <;> cases e
    exact absurd hdot hmark.head?_ne_dot
  | instruction hmark hflag hopcode =>
    rw [tokens] at e
    cases hmark with
    | some hmark =>
      obtain ⟨rfl, -⟩ := List.cons.inj e
      exact absurd hdot hmark.head?_ne_dot
    | none =>
      obtain ⟨first, rest, hfirst, hplain⟩ := exists_plain hflag hopcode _
      obtain ⟨rfl, -⟩ := List.cons.inj (hfirst.symm.trans e)
      exact absurd hdot hplain.1

/-- A mark alone is a label. -/
lemma eq_label (h : phrase.Means line) {mark : Token} {name : String} (hmark : Marks mark name)
    (e : phrase.tokens = [mark]) : phrase = .label mark := by
  cases h with
  | blank => cases e
  | card hword => exact (eq_card (.label hmark) hword e.symm).symm
  | namedCard hword => exact (eq_card (.label hmark) hword e.symm).symm
  | label => cases e; rfl
  | @instruction mark' word =>
    have hlength := congrArg List.length e
    cases mark' <;> cases word <;> cases hlength

/-- A token plays one part only, so phrases with the same tokens are the same. -/
lemma eq_of_tokens_eq (h : phrase.Means line) (h' : phrase'.Means line')
    (e : phrase.tokens = phrase'.tokens) : phrase = phrase' := by
  cases id h with
  | blank => exact (eq_blank h' e.symm).symm
  | card hword => exact (eq_card h' hword e.symm).symm
  | namedCard hword => exact (eq_card h' hword e.symm).symm
  | label hmark => exact (eq_label h' hmark e.symm).symm
  | instruction hmark hword hopcode =>
    cases h' with
    | blank => exact eq_blank h e
    | card hword' => exact eq_card h hword' e
    | namedCard hword' => exact eq_card h hword' e
    | label hmark' => exact eq_label h hmark' e
    | instruction hmark' hword' hopcode' =>
      obtain ⟨first, rest, hfirst, hplain⟩ := exists_plain hword hopcode _
      obtain ⟨first', rest', hfirst', hplain'⟩ := exists_plain hword' hopcode' _
      -- a mark ends with a colon and a plain word does not, so both have a mark or neither has
      cases hmark with
      | none =>
        cases hmark' with
        | none => exact congr_instruction none e
        | some hmark' =>
          obtain ⟨rfl, -⟩ := List.cons.inj (hfirst.symm.trans e)
          exact absurd hmark'.getLast?_eq_colon hplain.2
      | some hmark =>
        cases hmark' with
        | none =>
          obtain ⟨rfl, -⟩ := List.cons.inj (hfirst'.symm.trans e.symm)
          exact absurd hmark.getLast?_eq_colon hplain'.2
        | some hmark' =>
          obtain ⟨rfl, htail⟩ := List.cons.inj e
          exact congr_instruction _ htail

end Means

end Phrase

namespace Line

open Phrase

/-- The parser reads what the grammar allows, and reads it as the grammar says. -/
lemma ofTokens_eq_ok_iff {tokens : List Token} {line : Line} :
    ofTokens tokens = .ok line ↔ ∃ phrase : Phrase, phrase.tokens = tokens ∧ phrase.Means line := by
  constructor
  · intro h
    obtain _ | ⟨first, rest⟩ := tokens
    · cases h
      exact ⟨.blank, rfl, .blank⟩
    by_cases hdot : first.text.toList.head? = some '.'
    · obtain ⟨word, hfirst⟩ := List.head?_eq_some_iff.1 hdot
      rw [ofTokens_directive hfirst] at h
      obtain ⟨hword, hargs⟩ := readDirective_eq_ok_iff.1 h
      have hheading := upper_eq_heading_iff.2 ⟨word, hfirst, hword⟩
      rcases hargs with ⟨rfl, rfl⟩ | ⟨name, rfl, hname, rfl⟩
      · exact ⟨.card first none, rfl, .card hheading⟩
      · exact ⟨.card first (some name), rfl, .namedCard hheading hname⟩
    cases hlabel : labelName? first.text with
    | none =>
      have hlast : first.text.toList.getLast? ≠ some ':' := by simpa [labelName?] using hlabel
      rw [ofTokens_instruction hdot hlast] at h
      obtain ⟨written, hread, rfl⟩ := map_eq_ok_iff.1 h
      obtain ⟨word, mnemonic, token, flag, opcode, operand, e, hword, hopcode, hoperand, rfl⟩ :=
        readInstruction_eq_ok_iff.1 hread
      exact ⟨.instruction none word mnemonic token, e.symm, .instruction .none hword hopcode hoperand⟩
    | some name =>
      have hcolon := labelName?_eq_some_iff.1 hlabel
      obtain ⟨hname, hmarked⟩ := (ofTokens_marked hdot hcolon rest).1 h
      cases rest with
      | nil =>
        cases hmarked
        exact ⟨.label first, rfl, .label ⟨hcolon, hname⟩⟩
      | cons next rest =>
        obtain ⟨written, hread, rfl⟩ := map_eq_ok_iff.1 hmarked
        obtain ⟨word, mnemonic, token, flag, opcode, operand, e, hword, hopcode, hoperand, rfl⟩ :=
          readInstruction_eq_ok_iff.1 hread
        exact ⟨.instruction (some first) word mnemonic token, congrArg (first :: ·) e.symm,
          .instruction (.some ⟨hcolon, hname⟩) hword hopcode hoperand⟩
  · rintro ⟨phrase, rfl, means⟩
    cases means with
    | blank => rfl
    | card hheading =>
      obtain ⟨word, hfirst, hword⟩ := upper_eq_heading_iff.1 hheading
      exact (ofTokens_directive hfirst []).trans (readDirective_eq_ok_iff.2 ⟨hword, .inl ⟨rfl, rfl⟩⟩)
    | namedCard hheading hname =>
      obtain ⟨word, hfirst, hword⟩ := upper_eq_heading_iff.1 hheading
      exact (ofTokens_directive hfirst _).trans
        (readDirective_eq_ok_iff.2 ⟨hword, .inr ⟨_, rfl, hname, rfl⟩⟩)
    | label hmark => exact (ofTokens_marked hmark.head?_ne_dot hmark.1 []).2 ⟨hmark.2, rfl⟩
    | @instruction _ word _ flag mnemonic token opcode operand hmark hword hopcode hoperand =>
      obtain ⟨first, rest, e, hplain⟩ := exists_plain hword hopcode token
      have hread : readInstruction first rest = .ok ⟨flag, opcode, operand, token.column⟩ :=
        readInstruction_eq_ok_iff.2
          ⟨word, mnemonic, token, flag, opcode, operand, e.symm, hword, hopcode, hoperand, rfl⟩
      cases hmark with
      | none =>
        show ofTokens (word.toList ++ [mnemonic, token]) = _
        rw [e, ofTokens_instruction hplain.1 hplain.2]
        exact map_eq_ok_iff.2 ⟨_, hread, rfl⟩
      | some hmark =>
        refine (ofTokens_marked hmark.head?_ne_dot hmark.1 _).2 ⟨hmark.2, ?_⟩
        rw [e]
        exact map_eq_ok_iff.2 ⟨_, hread, rfl⟩

/-- The name that a line gives to a card or to a position. -/
def name? : Line → Option String
  | .blank => none
  | .card name => name
  | .label name => some name
  | .instruction name _ => name

/-- A line names nothing but names. -/
lemma isName_of_means {phrase : Phrase} {line : Line} (h : phrase.Means line) {name : String}
    (hname : line.name? = some name) : IsName name := by
  cases h with
  | blank | card => cases hname
  | namedCard _ h => cases hname; exact h
  | label h => cases hname; exact h.2
  | instruction hmark =>
    cases hmark with
    | none => cases hname
    | some h => cases hname; exact h.2

/-- A name is read as a symbol, since it looks like no number and no register. -/
lemma readOperand_of_isName {name : String} (h : IsName name) (column : Nat) :
    readOperand ⟨column, name⟩ = .ok (.symbol name) := by
  have hregister : Vocabulary.register? name = none :=
    Option.eq_none_iff_forall_ne_some.2 fun r hr =>
      h.not_register r (Vocabulary.register?_eq_some_iff.1 hr)
  rw [readOperand]
  dsimp only
  rw [hregister]
  exact if_pos (isName_iff.1 h).1

/-- A line has one list of tokens, and is read exactly as the grammar says: if the tokens make a phrase,
as the line that the phrase means, and else not at all. They make at most one phrase, and a name that the
line gives is read back as that name when it stands for an operand. -/
theorem parse_accepts_grammar (text : String) :
    ∃ tokens, (∀ tokens', Token.AreTokens text tokens' ↔ tokens' = tokens) ∧
      (∀ line, parse text = .ok line ↔ ∃ phrase : Phrase, phrase.tokens = tokens ∧ phrase.Means line) ∧
      ((∃ e, parse text = .error e) ↔
        ¬∃ (phrase : Phrase) (line : Line), phrase.tokens = tokens ∧ phrase.Means line) ∧
      (∀ (phrase phrase' : Phrase) (line line' : Line), phrase.tokens = tokens →
        phrase'.tokens = tokens → phrase.Means line → phrase'.Means line' →
        phrase = phrase' ∧ line = line') ∧
      ∀ line name, parse text = .ok line → line.name? = some name →
        ∀ column, readOperand ⟨column, name⟩ = .ok (.symbol name) := by
  have hparse (line : Line) : parse text = .ok line ↔
      ∃ phrase : Phrase, phrase.tokens = Token.ofLine text ∧ phrase.Means line := ofTokens_eq_ok_iff
  refine ⟨Token.ofLine text, fun _ => Token.areTokens_iff, hparse, ?_, ?_, ?_⟩
  · constructor
    · rintro ⟨e, he⟩ ⟨phrase, line, htokens, means⟩
      rw [(hparse line).2 ⟨phrase, htokens, means⟩] at he
      cases he
    · intro h
      cases hresult : parse text with
      | error e => exact ⟨e, rfl⟩
      | ok line =>
        obtain ⟨phrase, htokens, means⟩ := (hparse line).1 hresult
        exact absurd ⟨phrase, line, htokens, means⟩ h
  · intro phrase phrase' line line' htokens htokens' means means'
    refine ⟨means.eq_of_tokens_eq means' (htokens.trans htokens'.symm), ?_⟩
    have hline := (hparse line).2 ⟨phrase, htokens, means⟩
    have hline' := (hparse line').2 ⟨phrase', htokens', means'⟩
    exact Except.ok.inj (hline.symm.trans hline')
  · intro line name hline hname
    obtain ⟨phrase, -, means⟩ := (hparse line).1 hline
    exact readOperand_of_isName (isName_of_means means hname)

/-- A jump to itself: a blank of two bytes in front, a comma between flag and mnemonic, and a comment
that would be a mark. -/
def spinLine : String := "\u00a0Spin:\tpos,jMp Spin;:"

/-- `spinLine` has four tokens, which make one phrase, and it is read as what that phrase means. -/
theorem spinLine_parses :
    Token.AreTokens spinLine [⟨3, "Spin:"⟩, ⟨9, "pos"⟩, ⟨13, "jMp"⟩, ⟨17, "Spin"⟩] ∧
      parse spinLine = .ok (.instruction (some "Spin") ⟨some .pos, .jmp, .symbol "Spin", 17⟩) ∧
      (∃! phrase : Phrase, phrase.tokens = [⟨3, "Spin:"⟩, ⟨9, "pos"⟩, ⟨13, "jMp"⟩, ⟨17, "Spin"⟩] ∧
        ∃ line, phrase.Means line) ∧
      readOperand ⟨1, "Spin"⟩ = .ok (.symbol "Spin") := by
  have htokens : [⟨3, "Spin:"⟩, ⟨9, "pos"⟩, ⟨13, "jMp"⟩, ⟨17, "Spin"⟩] = Token.ofLine spinLine := by
    decide +kernel
  have hline : parse spinLine =
      .ok (.instruction (some "Spin") ⟨some .pos, .jmp, .symbol "Spin", 17⟩) := by
    rw [parse, ← htokens]
    rfl
  obtain ⟨tokens, hare, hparse, -, hunique, hname⟩ := parse_accepts_grammar spinLine
  have hare' := Token.areTokens_iff.2 htokens
  obtain rfl := (hare _).1 hare'
  obtain ⟨phrase, e, means⟩ := (hparse _).1 hline
  refine ⟨hare', hline, ⟨phrase, ⟨e, _, means⟩, ?_⟩, hname _ "Spin" hline rfl 1⟩
  rintro phrase' ⟨e', line', means'⟩
  exact (hunique phrase' phrase line' _ e' e means' means).1

end Line

end CardMachine
