import CardMachine.Json.Parser
import CardMachine.Json.Printer
import CardMachine.Proofs.Decimal
import Mathlib.Data.List.Forall2

/-!
# What is written as JSON is read back

A reader is given a text that goes on after the value, so every statement here is about a value
followed by a rest. `Reads read text a` says that `read` takes `text`, and blanks in front of it, for
`a` and leaves the rest; a rest may start with nothing but a comma or the end of a line, for a digit or
a point there would be taken for a part of a number.

Strings are read back character by character (`readChar_escape`), integers digit by digit
(`gather_eq`). Arrays and objects are laid out alike, one item on each line, and are read alike, so
`readItems_layOut` serves both. `readValue_render` is an induction on the value.
-/

namespace CardMachine.Json

/-- The values that are read back: floats aside, with integers of 64 bits, with fields in order, and
nested at most `depth` deep. -/
inductive Legible : Nat → Json → Prop where
  | null {depth} : Legible depth .null
  | bool {depth} (b : Bool) : Legible depth (.bool b)
  | int {depth v} :
    -9223372036854775808 ≤ v →
    v ≤ 18446744073709551615 →
    Legible depth (.number (.int v))
  | string {depth} (s : String) : Legible depth (.string s)
  | array {depth items} :
    (∀ item ∈ items, Legible depth item) →
    Legible (depth + 1) (.array items)
  | object {depth fields} :
    Dict.Sorted fields →
    (∀ field ∈ fields, Legible depth field.2) →
    Legible (depth + 1) (.object fields)

/-- Can `rest` stand right after a value? -/
def Delimited : List Char → Prop
  | [] => True
  | c :: _ => c = ',' ∨ c = '\n'

/-- The reader takes `text`, after any blanks, for `a`. -/
def Reads {α : Type} (read : Reader α) (text : List Char) (a : α) : Prop :=
  ∀ cs rest, Delimited rest → skipBlanks cs = text ++ rest → read cs = some (a, rest)

/-- The text starts with something that is neither a blank nor the end of a list. -/
def Opens (text : List Char) : Prop :=
  ∃ c cs, text = c :: cs ∧ isBlank c = false ∧ c ≠ ']' ∧ c ≠ '\x7d'

section Blanks

lemma skipBlanks_cons {c : Char} (h : isBlank c = true) (cs : List Char) :
    skipBlanks (c :: cs) = skipBlanks cs :=
  List.dropWhile_cons_of_pos h

lemma skipBlanks_of_not {c : Char} (h : isBlank c = false) (cs : List Char) :
    skipBlanks (c :: cs) = c :: cs :=
  List.dropWhile_cons_of_neg (by simp [h])

/-- Indentation is dropped. -/
lemma skipBlanks_indent (depth : Nat) (cs : List Char) :
    skipBlanks (indent depth ++ cs) = skipBlanks cs := by
  refine List.dropWhile_append_of_pos ?_
  intro c hc
  rw [List.eq_of_mem_replicate hc]
  rfl

/-- Nothing is dropped of the text of a value. -/
lemma Opens.skipBlanks {text : List Char} (h : Opens text) (rest : List Char) :
    skipBlanks (text ++ rest) = text ++ rest := by
  obtain ⟨c, cs, rfl, hblank, -⟩ := h
  exact skipBlanks_of_not hblank _

end Blanks

section Strings

/-- A hexadecimal digit is read as its value. -/
lemma hexValue?_hexDigit : ∀ n < 16, hexValue? (hexDigit n) = some n := by
  decide

/-- The text of a character does not look like the end of the string, and is read back. -/
lemma escape_eq_cons (c : Char) : ∃ d ds, escape c = d :: ds ∧ d ≠ '"' ∧
    ∀ rest, readChar (d :: ds ++ rest) = some (c, rest) := by
  rw [escape]
  -- the characters that have an escape of their own
  iterate 7
    split
    · subst c
      exact ⟨_, _, rfl, by decide, fun _ => rfl⟩
  split
  case isTrue hc =>
    refine ⟨_, _, rfl, by decide, fun rest => ?_⟩
    -- the code of a control character has two hexadecimal digits
    have hhigh := hexValue?_hexDigit (c.toNat / 16) (by omega)
    have hlow := hexValue?_hexDigit (c.toNat % 16) (by omega)
    have hzero : hexValue? '0' = some 0 := rfl
    have hcode : ((0 * 16 + 0) * 16 + c.toNat / 16) * 16 + c.toNat % 16 = c.toNat := by omega
    show readCode ('0' :: '0' :: hexDigit (c.toNat / 16) :: hexDigit (c.toNat % 16) :: rest) = _
    rw [readCode, readHex4, hzero, hhigh, hlow]
    dsimp only
    rw [hcode, if_neg (by omega), if_neg (by omega), Char.ofNat_toNat]
  case isFalse hquote hslash _ _ _ _ _ hc =>
    refine ⟨_, _, rfl, hquote, fun rest => ?_⟩
    show readChar (c :: rest) = _
    rw [readChar, if_neg hslash, if_neg hc]

/-- A string is read back, if there is fuel for each of its characters. -/
lemma readString_escape (cs : List Char) {fuel : Nat} (h : cs.length < fuel) (seen rest : List Char) :
    readString fuel seen (cs.flatMap escape ++ '"' :: rest) =
      some (String.ofList (seen.reverse ++ cs), rest) := by
  induction cs generalizing fuel seen with
  | nil =>
    obtain ⟨n, rfl⟩ := Nat.exists_eq_succ_of_ne_zero (Nat.ne_of_gt h)
    rw [readString.eq_def]
    simp
  | cons c cs ih =>
    obtain ⟨n, rfl⟩ := Nat.exists_eq_succ_of_ne_zero (Nat.ne_of_gt (Nat.zero_lt_of_lt h))
    obtain ⟨d, ds, e, hd, hread⟩ := escape_eq_cons c
    have hih := ih (show cs.length < n by simpa using h) (c :: seen)
    rw [List.flatMap_cons, List.append_assoc, e, readString.eq_def]
    dsimp only
    split
    case h_1 rest' e' => exact absurd (List.cons.inj e').1 hd
    case h_2 =>
      rw [hread]
      dsimp only
      rw [hih, List.reverse_cons, List.append_assoc]
      rfl

/-- A character takes at least one character. -/
lemma length_le_flatMap_escape (cs : List Char) : cs.length ≤ (cs.flatMap escape).length := by
  induction cs with
  | nil => exact Nat.le_refl 0
  | cons c cs ih =>
    obtain ⟨d, ds, e, -⟩ := escape_eq_cons c
    rw [List.flatMap_cons, e, List.length_append, List.length_cons, List.length_cons]
    omega

/-- A quoted string is read back. -/
lemma readString_quote {s : String} {size : Nat} (h : (quote s).length ≤ size) (rest : List Char) :
    readString size [] (s.toList.flatMap escape ++ '"' :: rest) = some (s, rest) := by
  have hlen := length_le_flatMap_escape s.toList
  have hquote : (quote s).length = (s.toList.flatMap escape).length + 2 := by simp [quote]
  rw [readString_escape s.toList (by omega)]
  simp

end Strings

section Numbers

variable {rest : List Char}

/-- Digits are gathered into the number they denote, if it has room. -/
lemma gather_eq {ds : List Char} {n : Nat} (h : Nat.ofDigitChars 10 ds n ≤ coefficientLimit) :
    gather n ds = (Nat.ofDigitChars 10 ds n, []) := by
  induction ds generalizing n with
  | nil => rfl
  | cons d ds ih =>
    rw [Nat.ofDigitChars_cons] at h ⊢
    have hle := Decimal.le_ofDigitChars ds (10 * n + (d.toNat - '0'.toNat))
    rw [gather, if_pos (Nat.le_trans hle h), ih h]

/-- Digits are read up to the end of the number. -/
lemma readDigits_nat (n : Nat) (h : Delimited rest) :
    readDigits (Decimal.nat n ++ rest) = (Decimal.nat n, rest) := by
  have hdigits : ∀ c ∈ Decimal.nat n, c.isDigit = true := fun _ => Decimal.isDigit_of_mem_nat
  rw [readDigits, List.takeWhile_append_of_pos hdigits, List.dropWhile_append_of_pos hdigits]
  cases rest with
  | nil => simp
  | cons c rest =>
    have hc : c.isDigit = false := by rcases h with rfl | rfl <;> rfl
    simp [hc]

/-- The digits of a natural number are read back. -/
lemma readWhole_nat (n : Nat) (h : Delimited rest) :
    readWhole (Decimal.nat n ++ rest) = some (Decimal.nat n, rest) := by
  cases n with
  | zero => rfl
  | succ n =>
    have hhead := Decimal.head?_nat_ne_zero (Nat.succ_pos n)
    have hread := readDigits_nat (n + 1) h
    obtain ⟨c, cs, e⟩ := List.exists_cons_of_ne_nil (Decimal.nat_ne_nil (n + 1))
    rw [e] at hhead hread ⊢
    rw [readWhole.eq_def]
    split
    case h_1 e' =>
      cases e'
      exact absurd rfl hhead
    case h_2 => rw [hread]

/-- After a number that is delimited there are no decimals. -/
lemma readFraction_delimited (h : Delimited rest) : readFraction rest = some ([], rest) := by
  rw [readFraction.eq_def]
  split
  case h_1 rest => rcases h with e | e <;> cases e
  case h_2 => rfl

/-- After a number that is delimited there is no exponent. -/
lemma readExponent_delimited (h : Delimited rest) : readExponent rest = some (none, rest) := by
  cases rest with
  | nil => rfl
  | cons c rest => rcases h with rfl | rfl <;> rfl

/-- A numeral without a fraction has the value of its digits. -/
lemma nat?_nat {n : Nat} (h : n ≤ coefficientLimit) : Numeral.nat? ⟨Decimal.nat n, [], none⟩ = some n := by
  have hvalue : Nat.ofDigitChars 10 (Decimal.nat n) 0 = n := Decimal.value_nat n
  rw [Numeral.nat?, gather_eq (by rwa [hvalue]), hvalue]

/-- A natural number is read as the numeral of its digits. -/
lemma readUnsigned_nat (negative : Bool) (n : Nat) (h : Delimited rest) :
    readUnsigned negative (Decimal.nat n ++ rest) =
      (numberOf negative ⟨Decimal.nat n, [], none⟩).map (·, rest) := by
  rw [readUnsigned, readWhole_nat n h]
  dsimp only
  rw [readFraction_delimited h]
  dsimp only
  rw [readExponent_delimited h]

/-- An integer of 64 bits, signed or not, is read back. -/
lemma readNumber_int {v : Int} (lo : -9223372036854775808 ≤ v) (hi : v ≤ 18446744073709551615)
    (h : Delimited rest) : readNumber (Decimal.int v ++ rest) = some (.int v, rest) := by
  have hlimit : coefficientLimit = 18446744073709551615 := rfl
  have hnat := nat?_nat (n := v.natAbs) (by omega)
  rw [Decimal.int]
  split
  case isTrue hv =>
    show readUnsigned true (Decimal.nat v.natAbs ++ rest) = _
    rw [readUnsigned_nat true _ h, numberOf, hnat]
    have habs : -(v.natAbs : Int) = v := by omega
    simp only [Bool.not_true, Bool.false_eq_true, if_false, if_pos (show 0 < v.natAbs ∧
      v.natAbs ≤ 9223372036854775808 by omega), habs, Option.map_some]
  case isFalse hv =>
    have hunsigned := readUnsigned_nat false v.natAbs h
    obtain ⟨c, cs, e⟩ := List.exists_cons_of_ne_nil (Decimal.nat_ne_nil v.natAbs)
    have hc : c ≠ '-' := by
      rintro rfl
      have hdigit := Decimal.isDigit_of_mem_nat (e ▸ List.mem_cons_self)
      cases hdigit
    have habs : (v.natAbs : Int) = v := by omega
    rw [numberOf, hnat] at hunsigned
    rw [e] at hunsigned ⊢
    rw [readNumber.eq_def]
    split
    case h_1 e' =>
      cases e'
      exact absurd rfl hc
    case h_2 => simpa [habs] using hunsigned

end Numbers

section Lists

variable {α : Type}

/-- Texts on a line each, one level further in than `depth`, with commas between them. -/
def layOut (depth : Nat) : List (List Char) → List Char
  | [] => []
  | [t] => indent (depth + 1) ++ t
  | t :: u :: rest => indent (depth + 1) ++ t ++ ',' :: '\n' :: layOut depth (u :: rest)

/-- A field as it is written. -/
def renderField (depth : Nat) (field : String × Json) : List Char :=
  quote field.1 ++ ':' :: ' ' :: render depth field.2

/-- Items are laid out one on a line. -/
lemma renderItems_eq (depth : Nat) (items : List Json) :
    renderItems depth items = layOut depth (items.map (render (depth + 1))) := by
  induction items with
  | nil => simp [renderItems, layOut]
  | cons v rest ih =>
    cases rest with
    | nil => simp [renderItems, layOut]
    | cons w rest => simpa [renderItems, layOut] using ih

/-- Fields are laid out one on a line. -/
lemma renderFields_eq (depth : Nat) (fields : List (String × Json)) :
    renderFields depth fields = layOut depth (fields.map (renderField (depth + 1))) := by
  induction fields with
  | nil => simp [renderFields, layOut]
  | cons f rest ih =>
    cases rest with
    | nil => simp [renderFields, layOut, renderField]
    | cons g rest => simpa [renderFields, layOut, renderField] using ih

/-- Each text takes a line. -/
lemma length_le_layOut (depth : Nat) (texts : List (List Char)) :
    texts.length ≤ (layOut depth texts).length := by
  induction texts with
  | nil => exact Nat.le_refl 0
  | cons t rest ih =>
    cases rest with
    | nil => simp [layOut, indent]; omega
    | cons u rest => simp [layOut, indent] at ih ⊢; omega

/-- Each text is a part of the whole. -/
lemma length_le_layOut_of_mem {depth : Nat} {texts : List (List Char)} {t : List Char}
    (h : t ∈ texts) : t.length ≤ (layOut depth texts).length := by
  induction texts with
  | nil => cases h
  | cons u rest ih =>
    cases rest with
    | nil =>
      cases List.mem_singleton.1 h
      simp [layOut]
    | cons w rest =>
      rcases List.mem_cons.1 h with rfl | h
      · simp [layOut]; omega
      · have := ih h
        simp [layOut]; omega

/-- The first text comes first. -/
lemma skipBlanks_layOut {t : List Char} (h : Opens t) (depth : Nat) (texts : List (List Char))
    (rest : List Char) : ∃ more, skipBlanks (layOut depth (t :: texts) ++ rest) = t ++ more := by
  cases texts with
  | nil =>
    rw [layOut, List.append_assoc, skipBlanks_indent, h.skipBlanks]
    exact ⟨_, rfl⟩
  | cons u texts =>
    rw [layOut, List.append_assoc, List.append_assoc, skipBlanks_indent, h.skipBlanks]
    exact ⟨_, rfl⟩

/-- Items that are laid out are read back one by one, up to the end of the list. -/
lemma readItems_layOut {read : Reader α} {close : Char} (hblank : isBlank close = false)
    (hcomma : close ≠ ',') (depth : Nat) {texts : List (List Char)} {as : List α}
    (h : List.Forall₂ (Reads read) texts as) (hne : texts ≠ []) (hopens : ∀ t ∈ texts, Opens t)
    {fuel : Nat} (hfuel : texts.length ≤ fuel) (seen : List α) (cs rest : List Char)
    (hcs : skipBlanks cs = skipBlanks (layOut depth texts ++ '\n' :: indent depth ++ close :: rest)) :
    readItems read close fuel seen cs = some (seen.reverse ++ as, rest) := by
  induction h generalizing fuel seen cs with
  | nil => exact absurd rfl hne
  | @cons t a texts as hread hall ih =>
    obtain ⟨n, rfl⟩ := Nat.exists_eq_succ_of_ne_zero (Nat.ne_of_gt (Nat.lt_of_lt_of_le (Nat.succ_pos _) hfuel))
    have hopen := hopens t List.mem_cons_self
    cases hall with
    | nil =>
      have hitem : read cs = some (a, '\n' :: indent depth ++ close :: rest) := by
        refine hread cs _ (.inr rfl) ?_
        rw [hcs, layOut, List.append_assoc, List.append_assoc, skipBlanks_indent, hopen.skipBlanks]
      have hend : skipBlanks ('\n' :: indent depth ++ close :: rest) = close :: rest := by
        rw [List.cons_append, skipBlanks_cons rfl, skipBlanks_indent, skipBlanks_of_not hblank]
      rw [readItems, hitem]
      dsimp only
      rw [hend]
      simp [hcomma]
    | @cons u b texts as hread' hall =>
      have hitem : read cs = some (a, ',' :: '\n' :: layOut depth (u :: texts) ++
          '\n' :: indent depth ++ close :: rest) := by
        refine hread cs _ (.inl rfl) ?_
        rw [hcs, layOut]
        simp only [List.append_assoc, List.cons_append]
        rw [skipBlanks_indent, hopen.skipBlanks]
      rw [readItems, hitem]
      dsimp only
      rw [List.cons_append, List.cons_append, skipBlanks_of_not (by rfl)]
      simp only [if_true]
      rw [ih (by simp) (fun t ht => hopens t (List.mem_cons_of_mem _ ht)) (Nat.le_of_succ_le_succ hfuel)
        (a :: seen) _ (by rw [List.cons_append, List.cons_append, skipBlanks_cons rfl])]
      simp

/-- A list that is laid out is read back, if its items are. -/
lemma readList_layOut {read : Reader α} {close : Char} (hclose : close = ']' ∨ close = '\x7d')
    (depth : Nat) {f : α → List Char} {as : List α} (hne : as ≠ []) {size : Nat}
    (hsize : (layOut depth (as.map f)).length ≤ size)
    (hread : ∀ a ∈ as, (f a).length ≤ size → Reads read (f a) a) (hopens : ∀ a ∈ as, Opens (f a))
    (rest : List Char) :
    readList size read close
      ('\n' :: layOut depth (as.map f) ++ '\n' :: indent depth ++ close :: rest) = some (as, rest) := by
  have hblank : isBlank close = false := by rcases hclose with rfl | rfl <;> rfl
  have hcomma : close ≠ ',' := by rcases hclose with rfl | rfl <;> decide
  have hall : List.Forall₂ (Reads read) (as.map f) as := by
    rw [List.forall₂_map_left_iff, List.forall₂_same]
    intro a ha
    exact hread a ha (Nat.le_trans (length_le_layOut_of_mem (List.mem_map_of_mem ha)) hsize)
  have hopens' : ∀ t ∈ as.map f, Opens t := by
    intro t ht
    obtain ⟨a, ha, rfl⟩ := List.mem_map.1 ht
    exact hopens a ha
  have hfuel := Nat.le_trans (length_le_layOut depth (as.map f)) hsize
  obtain ⟨a, as, rfl⟩ := List.exists_cons_of_ne_nil hne
  have hopen := hopens a List.mem_cons_self
  obtain ⟨more, e⟩ := skipBlanks_layOut hopen depth (as.map f) ('\n' :: indent depth ++ close :: rest)
  obtain ⟨c, cs, htext, hc, hbracket, hbrace⟩ := hopen
  -- the list does not end before its first item
  have hgoes : c ≠ close := by
    rcases hclose with rfl | rfl
    · exact hbracket
    · exact hbrace
  rw [← List.map_cons, htext, ← List.append_assoc] at e
  have hitems := readItems_layOut hblank hcomma depth hall (by simp) hopens' hfuel [] (c :: cs ++ more)
    rest (by rw [e]; exact skipBlanks_of_not hc _)
  rw [readList, List.cons_append, List.cons_append, skipBlanks_cons rfl, e]
  rw [List.cons_append] at hitems ⊢
  dsimp only
  rw [if_neg hgoes, hitems]
  rfl

end Lists

section Values

lemma opens_quote (s : String) (more : List Char) : Opens (quote s ++ more) :=
  ⟨_, _, rfl, rfl, by decide, by decide⟩

/-- The text of a value starts the value. -/
lemma Legible.opens {depth : Nat} {v : Json} (h : Legible depth v) (level : Nat) :
    Opens (render level v) := by
  cases h with
  | null =>
    rw [render]
    exact ⟨_, _, rfl, rfl, by decide, by decide⟩
  | bool b => cases b <;> rw [render] <;> exact ⟨_, _, rfl, rfl, by decide, by decide⟩
  | @int _ v lo hi =>
    obtain ⟨c, cs, e, hc⟩ := Decimal.int_eq_cons v
    rw [render, Number.text, Decimal.text, String.toList_ofList]
    refine ⟨c, cs, e, ?_, hc _ rfl (by decide), hc _ rfl (by decide)⟩
    have hspace := hc ' ' rfl (by decide)
    have htab := hc '\t' rfl (by decide)
    have hline := hc '\n' rfl (by decide)
    have hreturn := hc '\r' rfl (by decide)
    simp [isBlank, hspace, htab, hline, hreturn]
  | string s =>
    rw [render]
    exact ⟨_, _, rfl, rfl, by decide, by decide⟩
  | @array _ items _ =>
    cases items <;> rw [render] <;> exact ⟨_, _, rfl, rfl, by decide, by decide⟩
  | @object _ fields _ _ =>
    cases fields <;> rw [render] <;> exact ⟨_, _, rfl, rfl, by decide, by decide⟩

/-- What does not start an array or an object is a scalar. -/
lemma readValue_of_scalar {size depth : Nat} {cs : List Char} {c : Char} {rest : List Char}
    (h : skipBlanks cs = c :: rest) (hc : c ≠ '[') (hc' : c ≠ '\x7b') :
    readValue size depth cs = readScalar size (c :: rest) := by
  cases depth with
  | zero =>
    rw [readValue, h]
    simp [hc, hc']
  | succ depth =>
    rw [readValue, h]
    simp [hc, hc']

/-- A field is read back, if its value is. -/
lemma reads_renderField {size level : Nat} {read : Reader Json} {name : String} {v : Json}
    (h : Reads read (render level v) v) (hopen : Opens (render level v))
    (hsize : (quote name).length ≤ size) :
    Reads (readField size read) (renderField level (name, v)) (name, v) := by
  intro cs rest hrest hcs
  have hname := readString_quote hsize (':' :: ' ' :: render level v ++ rest)
  have hvalue : read (' ' :: (render level v ++ rest)) = some (v, rest) := by
    refine h _ rest hrest ?_
    rw [skipBlanks_cons rfl, hopen.skipBlanks]
  have htext : renderField level (name, v) ++ rest =
      '"' :: (name.toList.flatMap escape ++ '"' :: ':' :: ' ' :: render level v ++ rest) := by
    simp [renderField, quote]
  rw [readField, hcs, htext]
  simp only [List.append_assoc, List.cons_append] at hname ⊢
  rw [hname]
  dsimp only
  rw [skipBlanks_of_not (by rfl)]
  show (read (' ' :: (render level v ++ rest))).map _ = _
  rw [hvalue]
  rfl

/-- A value that is neither an array nor an object is read by the reader of scalars. -/
lemma reads_scalar {size depth : Nat} {v : Json} {c : Char} {cs : List Char} (hc : c ≠ '[')
    (hc' : c ≠ '\x7b')
    (h : ∀ rest, Delimited rest → readScalar size (c :: cs ++ rest) = some (v, rest)) :
    Reads (readValue size depth) (c :: cs) v := by
  intro cs' rest hrest hcs
  rw [readValue_of_scalar hcs hc hc']
  exact h rest hrest

/-- A value is read back, whatever follows it. -/
lemma Legible.reads_render {depth : Nat} {v : Json} (h : Legible depth v) {level size : Nat}
    (hsize : (render level v).length ≤ size) : Reads (readValue size depth) (render level v) v := by
  induction h generalizing level with
  | null =>
    rw [render]
    exact reads_scalar (by decide) (by decide) fun rest _ => rfl
  | bool b =>
    cases b <;> rw [render] <;> exact reads_scalar (by decide) (by decide) fun rest _ => rfl
  | @int _ v lo hi =>
    obtain ⟨c, cs, e, hc⟩ := Decimal.int_eq_cons v
    rw [render, Number.text, Decimal.text, String.toList_ofList, e]
    refine reads_scalar (hc _ rfl (by decide)) (hc _ rfl (by decide)) fun rest hrest => ?_
    have hread := readNumber_int lo hi hrest
    rw [e] at hread
    rw [List.cons_append] at hread ⊢
    rw [readScalar, if_neg (hc _ rfl (by decide)), if_neg (hc _ rfl (by decide)),
      if_neg (hc _ rfl (by decide)), if_neg (hc _ rfl (by decide)), hread]
    rfl
  | string s =>
    rw [render] at hsize ⊢
    refine reads_scalar (by decide) (by decide) fun rest _ => ?_
    have hread := readString_quote hsize rest
    show readScalar size ('"' :: (s.toList.flatMap escape ++ ['"'] ++ rest)) = _
    rw [List.append_assoc, List.singleton_append, readScalar, if_pos rfl, hread]
    rfl
  | @array depth items hitems ih =>
    intro cs rest _ hcs
    cases items with
    | nil =>
      rw [render] at hcs
      rw [readValue, hcs]
      rfl
    | cons item items =>
      rw [render, renderItems_eq] at hcs hsize
      simp only [List.length_cons, List.length_append] at hsize
      have hread : ∀ v ∈ item :: items, (render (level + 1) v).length ≤ size →
          Reads (readValue size depth) (render (level + 1) v) v := fun v hv => ih v hv
      have hlist := readList_layOut (f := render (level + 1)) (.inl rfl) level
        (List.cons_ne_nil item items) (by omega) hread (fun v hv => (hitems v hv).opens _) rest
      rw [readValue, hcs]
      simp only [List.cons_append, List.append_assoc, List.nil_append, if_true] at hlist ⊢
      rw [hlist, Option.map_some]
  | @object depth fields sorted hfields ih =>
    intro cs rest _ hcs
    cases fields with
    | nil =>
      rw [render] at hcs
      rw [readValue, hcs]
      rfl
    | cons field fields =>
      rw [render, renderFields_eq] at hcs hsize
      simp only [List.length_cons, List.length_append] at hsize
      have hread : ∀ f ∈ field :: fields, (renderField (level + 1) f).length ≤ size →
          Reads (readField size (readValue size depth)) (renderField (level + 1) f) f := by
        intro f hf hlen
        simp only [renderField, List.length_append, List.length_cons] at hlen
        exact reads_renderField (ih f hf (by omega)) ((hfields f hf).opens _) (by omega)
      have hlist := readList_layOut (f := renderField (level + 1)) (.inr rfl) level
        (List.cons_ne_nil field fields) (by omega) hread (fun f _ => opens_quote f.1 _) rest
      have hsorted : fieldsOf (field :: fields) = field :: fields := Dict.foldl_insert sorted
      rw [readValue, hcs]
      simp only [List.cons_append, List.append_assoc, List.nil_append, if_true] at hlist ⊢
      rw [if_neg (by decide), hlist, Option.map_some, hsorted]

/-- What is written is read back. -/
lemma Legible.parse?_text {v : Json} (h : Legible depthLimit v) : parse? v.text = some v := by
  have hstart : skipBlanks (render 0 v) = render 0 v ++ [] := by
    have hskip := (h.opens 0).skipBlanks []
    rwa [List.append_nil] at hskip ⊢
  have hread := h.reads_render (Nat.le_refl (render 0 v).length) (render 0 v) [] trivial hstart
  rw [parse?, text, String.toList_ofList, hread]
  rfl

end Values

end CardMachine.Json
