import CardMachine.Proofs.Line
import Mathlib.Data.List.Forall2
import Mathlib.Data.Nat.Digits.Defs
import Mathlib.Tactic.IntervalCases

/-!
# Values as they are written

A literal is an optional sign, and then decimal digits, or `0x` and hexadecimal digits (`IsLiteral`).
What its digits denote is the number with these digits in the base (`Denotes`). The reader takes every
literal of sixteen bits for its value. It takes some other texts as well: the hexadecimal digits may have
a sign of their own (`HasSecondSign`), which is why what is read before the first sign is applied can
be negative (`magnitude?_eq_some_iff`). Both signs are read by the same rule (`readSigned_eq_some_iff`).
-/

namespace CardMachine.Line

open Text (hexValue?)

/-- The character is a digit of the base, in capitals or not, and has this value. -/
def IsDigit (base : Nat) (c : Char) (d : Nat) : Prop :=
  d < base ∧ (c = d.digitChar ∨ c = d.digitChar.toUpper)

/-- The text is one or more digits, and denotes the number that has them in the base. -/
structure Denotes (base : Nat) (cs : List Char) (v : Int) : Prop where
  ne_nil : cs ≠ []
  digits : ∃ ds, List.Forall₂ (IsDigit base) cs ds ∧ v = (Nat.ofDigits base ds.reverse : Nat)

/-- A sign, and after it a text of the given kind. -/
inductive AfterSign (P : List Char → Int → Prop) : List Char → Int → Prop where
  | plus {cs : List Char} {v : Int} :
    P cs v →
    AfterSign P ('+' :: cs) v
  | minus {cs : List Char} {v : Int} :
    P cs v →
    AfterSign P ('-' :: cs) (-v)

/-- A text of the given kind, with or without a sign. -/
def Signed (P : List Char → Int → Prop) (cs : List Char) (v : Int) : Prop :=
  P cs v ∨ AfterSign P cs v

/-- The mark of a hexadecimal value, and after it a text of the given kind. -/
def AfterMark (P : List Char → Int → Prop) (cs : List Char) (v : Int) : Prop :=
  ∃ x rest, (x = 'x' ∨ x = 'X') ∧ cs = '0' :: x :: rest ∧ P rest v

/-- Decimal digits, or hexadecimal digits after their mark. -/
def IsMagnitude (cs : List Char) (v : Int) : Prop :=
  Denotes 10 cs v ∨ AfterMark (Denotes 16) cs v

/-- Hexadecimal digits after their mark and a sign of their own. -/
def IsSignedHex : List Char → Int → Prop := AfterMark (AfterSign (Denotes 16))

/-- The text is a literal, and stands for this value. -/
def IsLiteral : List Char → Int → Prop := Signed IsMagnitude

/-- The text would be a literal but for a second sign, right before its hexadecimal digits. -/
def HasSecondSign : List Char → Int → Prop := Signed IsSignedHex

/-- No text of this kind starts with a sign. -/
def NoSign (P : List Char → Int → Prop) : Prop :=
  ∀ c cs v, P (c :: cs) v → c ≠ '+' ∧ c ≠ '-'

section digits

/-- Adds a digit at the end of a number. -/
def addDigit (base v d : Nat) : Nat := base * v + d

/-- Digits taken one by one make the number that has them. -/
lemma foldl_addDigit (base v : Nat) (ds : List Nat) :
    ds.foldl (addDigit base) v = Nat.ofDigits base ds.reverse + base ^ ds.length * v := by
  induction ds generalizing v with
  | nil => simp
  | cons d ds ih =>
    rw [List.foldl_cons, ih, List.reverse_cons, Nat.ofDigits_append, List.length_reverse,
      Nat.ofDigits_singleton, List.length_cons, addDigit, pow_succ]
    ring

/-- A text denotes what its digits make when they are taken one by one. -/
lemma denotes_iff {base : Nat} {cs : List Char} {v : Int} :
    Denotes base cs v ↔
      cs ≠ [] ∧ ∃ ds, List.Forall₂ (IsDigit base) cs ds ∧ v = (ds.foldl (addDigit base) 0 : Nat) := by
  simp only [foldl_addDigit, Nat.mul_zero, Nat.add_zero]
  exact ⟨fun ⟨hne, hds⟩ => ⟨hne, hds⟩, fun ⟨hne, hds⟩ => ⟨hne, hds⟩⟩

/-- The decimal digits are `0` to `9`. -/
lemma isDigit_ten_iff {c : Char} {d : Nat} :
    IsDigit 10 c d ↔ c.isDigit = true ∧ d = c.toNat - '0'.toNat := by
  constructor
  · rintro ⟨hd, rfl | rfl⟩ <;> interval_cases d <;> exact ⟨rfl, rfl⟩
  · rintro ⟨hc, rfl⟩
    obtain ⟨hlo, hhi⟩ := Decimal.toNat_of_isDigit hc
    have hchar := Char.ofNat_toNat c
    refine ⟨by simp; omega, .inl ?_⟩
    interval_cases c.toNat <;> exact hchar.symm

/-- The hexadecimal digits are read, and nothing else. -/
lemma hexValue?_eq_some_iff {c : Char} {d : Nat} : hexValue? c = some d ↔ IsDigit 16 c d := by
  constructor
  · intro h
    have hchar := Char.ofNat_toNat c
    rw [hexValue?] at h
    split at h
    · next hrange =>
      have hlo : 48 ≤ c.toNat := UInt32.le_iff_toNat_le.1 hrange.1
      have hhi : c.toNat ≤ 57 := UInt32.le_iff_toNat_le.1 hrange.2
      cases h
      refine ⟨by simp; omega, .inl ?_⟩
      interval_cases c.toNat <;> exact hchar.symm
    split at h
    · next hrange =>
      have hlo : 97 ≤ c.toNat := UInt32.le_iff_toNat_le.1 hrange.1
      have hhi : c.toNat ≤ 102 := UInt32.le_iff_toNat_le.1 hrange.2
      cases h
      refine ⟨by simp; omega, .inl ?_⟩
      interval_cases c.toNat <;> exact hchar.symm
    split at h
    · next hrange =>
      have hlo : 65 ≤ c.toNat := UInt32.le_iff_toNat_le.1 hrange.1
      have hhi : c.toNat ≤ 70 := UInt32.le_iff_toNat_le.1 hrange.2
      cases h
      refine ⟨by simp; omega, .inr ?_⟩
      interval_cases c.toNat <;> exact hchar.symm
    · cases h
  · rintro ⟨hd, rfl | rfl⟩ <;> interval_cases d <;> rfl

/-- A sign is no digit. -/
lemma noSign_denotes {base : Nat} (hbase : base ≤ 16) : NoSign (Denotes base) := by
  rintro c cs v ⟨-, ds, hds, -⟩
  obtain ⟨d, _, ⟨hd, hc⟩, -⟩ := List.forall₂_cons_left_iff.1 hds
  have hhex : hexValue? c = some d := hexValue?_eq_some_iff.2 ⟨hd.trans_le hbase, hc⟩
  constructor <;> (rintro rfl; cases hhex)

/-- Decimal digits are settled by their codes. -/
lemma forall₂_isDigit_ten_iff {cs : List Char} {ds : List Nat} :
    List.Forall₂ (IsDigit 10) cs ds ↔
      (∀ c ∈ cs, c.isDigit = true) ∧ ds = cs.map fun c => c.toNat - '0'.toNat := by
  induction cs generalizing ds with
  | nil => simp
  | cons c cs ih =>
    simp only [List.forall₂_cons_left_iff, isDigit_ten_iff, ih, List.forall_mem_cons, List.map_cons]
    constructor
    · rintro ⟨_, _, ⟨hc, rfl⟩, ⟨hcs, rfl⟩, rfl⟩
      exact ⟨⟨hc, hcs⟩, rfl⟩
    · rintro ⟨⟨hc, hcs⟩, rfl⟩
      exact ⟨_, _, ⟨hc, rfl⟩, ⟨hcs, rfl⟩, rfl⟩

/-- Decimal digits are read exactly if all are digits, and there is one. -/
lemma decimalInt?_eq_some_iff {cs : List Char} {v : Int} :
    decimalInt? cs = some v ↔ Denotes 10 cs v := by
  have hvalue : Decimal.value cs = (cs.map fun c => c.toNat - '0'.toNat).foldl (addDigit 10) 0 :=
    List.foldl_map.symm
  simp only [denotes_iff, forall₂_isDigit_ten_iff, decimalInt?, hvalue]
  constructor
  · intro h
    split at h
    · cases h
    · next hdigits =>
      simp only [Bool.or_eq_true, not_or, List.isEmpty_iff, Bool.not_eq_true', Bool.not_eq_false,
        List.all_eq_true] at hdigits
      exact ⟨hdigits.1, _, ⟨hdigits.2, rfl⟩, (Option.some.inj h).symm⟩
  · rintro ⟨hne, _, ⟨hdigits, rfl⟩, rfl⟩
    rw [if_neg (by simpa [hne] using hdigits)]

/-- Hexadecimal digits are read one by one, all of them or none. -/
lemma foldl_hexValue?_eq_some_iff {cs : List Char} {v n : Nat} :
    cs.foldl (fun acc c => acc.bind fun v => (hexValue? c).map (16 * v + ·)) (some v) = some n ↔
      ∃ ds, List.Forall₂ (IsDigit 16) cs ds ∧ ds.foldl (addDigit 16) v = n := by
  induction cs generalizing v with
  | nil => simp
  | cons c cs ih =>
    rw [List.foldl_cons, Option.bind_some]
    cases hc : hexValue? c with
    | none =>
      -- past a character that is no digit there is nothing to read
      have hnone : cs.foldl (fun acc c => acc.bind fun v => (hexValue? c).map (16 * v + ·)) none = none :=
        List.foldl_fixed' (fun _ => rfl) cs
      simp [hnone, List.forall₂_cons_left_iff, ← hexValue?_eq_some_iff, hc]
    | some d =>
      rw [Option.map_some, ih]
      constructor
      · rintro ⟨ds, hds, rfl⟩
        exact ⟨d :: ds, .cons (hexValue?_eq_some_iff.1 hc) hds, rfl⟩
      · rintro ⟨_, hall, rfl⟩
        obtain ⟨d', ds, hd, hds, rfl⟩ := List.forall₂_cons_left_iff.1 hall
        obtain rfl := Option.some.inj (hc.symm.trans (hexValue?_eq_some_iff.2 hd))
        exact ⟨ds, hds, rfl⟩

/-- The number that one or more hexadecimal digits denote, as an integer. -/
def hexMagnitude? (cs : List Char) : Option Int :=
  (hexNat? cs).map Nat.cast

/-- Hexadecimal digits are read exactly if all are digits, and there is one. -/
lemma hexMagnitude?_eq_some_iff {cs : List Char} {v : Int} :
    hexMagnitude? cs = some v ↔ Denotes 16 cs v := by
  rw [hexMagnitude?, hexNat?, hexDigits?, denotes_iff]
  split
  · next hempty => simp [List.isEmpty_iff.1 hempty]
  · next hempty =>
    simp only [Option.map_eq_some_iff, foldl_hexValue?_eq_some_iff]
    constructor
    · rintro ⟨_, ⟨ds, hds, rfl⟩, rfl⟩
      exact ⟨mt List.isEmpty_iff.2 hempty, ds, hds, rfl⟩
    · rintro ⟨-, ds, hds, rfl⟩
      exact ⟨_, ⟨ds, hds, rfl⟩, rfl⟩

end digits

section signs

variable {P Q : List Char → Int → Prop} {r : List Char → Option Int} {cs : List Char} {v w : Int}

/-- What follows a sign. -/
def withoutSign : List Char → List Char
  | '-' :: cs => cs
  | '+' :: cs => cs
  | cs => cs

/-- Reads a value and applies the sign in front of it. -/
def readSigned (r : List Char → Option Int) : List Char → Option Int
  | '-' :: cs => (r cs).map (- ·)
  | '+' :: cs => r cs
  | cs => r cs

/-- After its mark, a hexadecimal value may have a sign. -/
lemma hexInt?_eq (cs : List Char) : hexInt? cs = readSigned hexMagnitude? cs := by
  fun_cases readSigned hexMagnitude? cs with
  | case1 cs => rw [hexInt?, hexMagnitude?]; cases hexNat? cs <;> rfl
  | case2 cs => rw [hexInt?, hexMagnitude?]; cases hexNat? cs <;> rfl
  | case3 cs hminus hplus =>
    rw [hexInt?.eq_3 cs hminus hplus, hexMagnitude?]; cases hexNat? cs <;> rfl

lemma value?_eq (cs : List Char) : value? cs = readSigned magnitude? cs := by
  fun_cases readSigned magnitude? cs with
  | case1 cs => rw [value?]
  | case2 cs => rw [value?]
  | case3 cs hminus hplus => rw [value?.eq_3 cs hminus hplus]

/-- A minus sign in front is the sign. -/
lemma signed_minus_iff (hP : NoSign P) : Signed P ('-' :: cs) v ↔ P cs (-v) := by
  constructor
  · rintro (h | h)
    · exact absurd rfl (hP _ _ _ h).2
    · cases h with
      | @minus _ w h => exact (neg_neg w).symm ▸ h
  · intro h
    exact .inr (neg_neg v ▸ .minus h)

/-- A plus sign in front is the sign. -/
lemma signed_plus_iff (hP : NoSign P) : Signed P ('+' :: cs) v ↔ P cs v := by
  constructor
  · rintro (h | h)
    · exact absurd rfl (hP _ _ _ h).1
    · cases h with
      | plus h => exact h
  · exact fun h => .inr (.plus h)

/-- Without a sign in front, the whole text is of the kind. -/
lemma signed_iff_of_ne (hminus : ∀ rest, cs = '-' :: rest → False)
    (hplus : ∀ rest, cs = '+' :: rest → False) : Signed P cs v ↔ P cs v := by
  constructor
  · rintro (h | @⟨rest, _, _⟩ | @⟨rest, _, _⟩)
    · exact h
    · exact (hplus rest rfl).elim
    · exact (hminus rest rfl).elim
  · exact .inl

/-- Whatever a kind of text is read for, the reader that applies a sign reads it for with a sign. -/
lemma readSigned_eq_some_iff (hr : ∀ cs v, r cs = some v ↔ P cs v) (hP : NoSign P) :
    readSigned r cs = some v ↔ Signed P cs v := by
  fun_cases readSigned r cs with
  | case1 cs =>
    rw [signed_minus_iff hP, ← hr, Option.map_eq_some_iff]
    constructor
    · rintro ⟨w, hw, rfl⟩
      rw [hw, neg_neg]
    · exact fun h => ⟨_, h, neg_neg v⟩
  | case2 cs => rw [signed_plus_iff hP, hr]
  | case3 cs hminus hplus => rw [signed_iff_of_ne hminus hplus, hr]

/-- A sign is put in front of a text or left out without looking at the rest. -/
lemma Signed.imp (himp : ∀ cs w, w = v ∨ w = -v → P cs w → Q cs w) (h : Signed P cs v) :
    Signed Q cs v := by
  rcases h with h | h
  · exact .inl (himp _ _ (.inl rfl) h)
  · cases h with
    | plus h => exact .inr (.plus (himp _ _ (.inl rfl) h))
    | minus h => exact .inr (.minus (himp _ _ (.inr (neg_neg _).symm) h))

/-- What follows the sign is of the kind. -/
lemma Signed.exists_withoutSign (hP : NoSign P) (h : Signed P cs v) : ∃ w, P (withoutSign cs) w := by
  fun_cases withoutSign cs with
  | case1 cs => exact ⟨_, (signed_minus_iff hP).1 h⟩
  | case2 cs => exact ⟨_, (signed_plus_iff hP).1 h⟩
  | case3 cs hminus hplus => exact ⟨_, (signed_iff_of_ne hminus hplus).1 h⟩

/-- A text of one kind or another has a sign in one kind or the other. -/
lemma signed_or : Signed (fun cs v => P cs v ∨ Q cs v) cs v ↔ Signed P cs v ∨ Signed Q cs v := by
  constructor
  · rintro ((h | h) | (h | h) | (h | h))
    · exact .inl (.inl h)
    · exact .inr (.inl h)
    · exact .inl (.inr (.plus h))
    · exact .inr (.inr (.plus h))
    · exact .inl (.inr (.minus h))
    · exact .inr (.inr (.minus h))
  · rintro (h | h)
    · exact h.imp fun _ _ _ => .inl
    · exact h.imp fun _ _ _ => .inr

/-- What holds of a value and of its negative need not be asked for before the sign is applied. -/
lemma signed_and_iff {R : Int → Prop} (hpos : R v) (hneg : R (-v)) :
    Signed (fun cs v => P cs v ∧ R v) cs v ↔ Signed P cs v := by
  constructor
  · exact Signed.imp fun _ _ _ h => h.1
  · apply Signed.imp
    rintro cs w (rfl | rfl) h
    · exact ⟨h, hpos⟩
    · exact ⟨h, hneg⟩

/-- The mark of a hexadecimal value is no sign. -/
lemma noSign_afterMark : NoSign (AfterMark P) := by
  rintro c cs v ⟨x, rest, -, hcs, -⟩
  obtain ⟨rfl, -⟩ := List.cons.inj hcs
  decide

lemma NoSign.or (hP : NoSign P) (hQ : NoSign Q) : NoSign fun cs v => P cs v ∨ Q cs v :=
  fun c cs v h => h.elim (hP c cs v) (hQ c cs v)

lemma NoSign.and {R : Int → Prop} (hP : NoSign P) : NoSign fun cs v => P cs v ∧ R v :=
  fun c cs v h => hP c cs v h.1

end signs

section literals

variable {cs : List Char} {v w : Int}

/-- Digits start with no sign. -/
lemma noSign_isMagnitude : NoSign IsMagnitude :=
  (noSign_denotes (by decide)).or noSign_afterMark

/-- The mark is read off the front. -/
lemma afterMark_cons_iff {P : List Char → Int → Prop} {x : Char} (hx : x = 'x' ∨ x = 'X') :
    AfterMark P ('0' :: x :: cs) v ↔ P cs v := by
  constructor
  · rintro ⟨_, _, -, ⟨⟩, h⟩
    exact h
  · exact fun h => ⟨x, cs, hx, rfl, h⟩

/-- The mark of a hexadecimal value is no decimal digit. -/
lemma not_denotes_ten {x : Char} (hx : x = 'x' ∨ x = 'X') : ¬Denotes 10 ('0' :: x :: cs) v := by
  rintro ⟨-, ds, hds, -⟩
  have hdigit : x.isDigit = true := (forall₂_isDigit_ten_iff.1 hds).1 x (by simp)
  rcases hx with rfl | rfl <;> cases hdigit

/-- What is read before the sign is applied may have a sign of its own. -/
lemma magnitude?_eq_some_iff :
    magnitude? cs = some v ↔ (IsMagnitude cs v ∨ IsSignedHex cs v) ∧ fits64 v = true := by
  have hhex (rest : List Char) : hexInt? rest = some v ↔ Signed (Denotes 16) rest v := by
    rw [hexInt?_eq]
    exact readSigned_eq_some_iff (fun _ _ => hexMagnitude?_eq_some_iff) (noSign_denotes (by decide))
  have hmark {x : Char} {rest : List Char} (hx : x = 'x' ∨ x = 'X') :
      Signed (Denotes 16) rest v ↔
        IsMagnitude ('0' :: x :: rest) v ∨ IsSignedHex ('0' :: x :: rest) v := by
    rw [IsMagnitude, IsSignedHex, afterMark_cons_iff hx, afterMark_cons_iff hx,
      or_iff_right (not_denotes_ten hx), Signed]
  rw [magnitude?.eq_def, Option.filter_eq_some_iff]
  refine and_congr_left' ?_
  split
  · exact (hhex _).trans (hmark (.inl rfl))
  · exact (hhex _).trans (hmark (.inr rfl))
  · next hlower hupper =>
    have hnone (P : List Char → Int → Prop) : ¬AfterMark P cs v := by
      rintro ⟨_, rest, rfl | rfl, rfl, -⟩
      · exact hlower rest rfl
      · exact hupper rest rfl
    rw [decimalInt?_eq_some_iff, IsMagnitude, IsSignedHex, or_iff_left (hnone _),
      or_iff_left (hnone _)]

/-- A text is read for a value of sixteen bits if it is a literal of this value, or would be but for a
second sign. -/
lemma value?_eq_some_iff (hlo : -32768 ≤ v) (hhi : v ≤ 32767) :
    value? cs = some v ↔ IsLiteral cs v ∨ HasSecondSign cs v := by
  have hmagnitude : NoSign fun cs v => (IsMagnitude cs v ∨ IsSignedHex cs v) ∧ fits64 v = true :=
    (noSign_isMagnitude.or noSign_afterMark).and
  rw [value?_eq, readSigned_eq_some_iff (fun _ _ => magnitude?_eq_some_iff) hmagnitude,
    signed_and_iff (by simp [fits64]; omega) (by simp [fits64]; omega), signed_or]
  rfl

/-- A literal has no second sign. -/
lemma IsLiteral.not_hasSecondSign (h : IsLiteral cs v) : ¬HasSecondSign cs w := by
  intro h'
  obtain ⟨v, hv⟩ := h.exists_withoutSign noSign_isMagnitude
  obtain ⟨w, x, rest, hx, hrest, hw⟩ := h'.exists_withoutSign noSign_afterMark
  rw [hrest] at hv
  rcases hv with hv | hv
  · exact not_denotes_ten hx hv
  · have hdigits : Denotes 16 rest v := (afterMark_cons_iff hx).1 hv
    have hsign : NoSign (Denotes 16) := noSign_denotes (by decide)
    cases hw with
    | plus => exact (hsign _ _ _ hdigits).1 rfl
    | minus => exact (hsign _ _ _ hdigits).2 rfl

/-- The number that digits denote is not negative. -/
lemma Denotes.nonneg {base : Nat} (h : Denotes base cs v) : 0 ≤ v := by
  obtain ⟨-, ds, -, rfl⟩ := h
  exact Int.natCast_nonneg _

/-- Without a sign, a value is not negative. -/
lemma IsMagnitude.nonneg (h : IsMagnitude cs v) : 0 ≤ v := by
  rcases h with h | ⟨_, _, -, -, h⟩
  · exact h.nonneg
  · exact h.nonneg

/-- Only what has a second sign is read for a negative value before the first sign is applied. Its
negative is within 64 bits as well, unless it is the least of them. -/
lemma neg_magnitude? (h : magnitude? cs = some v) :
    (v < 0 → HasSecondSign cs v) ∧ (fits64 (-v) = false ↔ v = -2 ^ 63) := by
  obtain ⟨hread, hfits⟩ := magnitude?_eq_some_iff.1 h
  constructor
  · intro hneg
    rcases hread with hread | hread
    · exact absurd hread.nonneg (by omega)
    · exact .inl hread
  · simp only [fits64, Bool.and_eq_true, decide_eq_true_eq, Bool.and_eq_false_iff,
      decide_eq_false_iff_not] at hfits ⊢
    omega

end literals

section operands

/-- The operand is read as a literal of this value. -/
def ReadsLiteral (token : Token) (v : Int) : Prop :=
  ∃ w : Word, readOperand token = .ok (.literal w) ∧ w.toInt = v

variable {token : Token} (hregister : Vocabulary.register? token.text = none)
  (hname : Vocabulary.isIdentifier token.text = false)

include hregister hname

/-- What is no register and no name is read for its value, or not at all. -/
lemma readOperand_eq :
    readOperand token = match (value? token.text.toList).bind Word.ofInt? with
      | some w => .ok (.literal w)
      | none => .error ⟨token.column, .invalidOperand token.text⟩ := by
  rw [readOperand, hregister]
  simp only [hname]
  rfl

/-- An operand is a literal exactly if it is read as a value that is a word. -/
lemma readOperand_eq_literal_iff {w : Word} :
    readOperand token = .ok (.literal w) ↔ value? token.text.toList = some w.toInt := by
  have hword : (value? token.text.toList).bind Word.ofInt? = some w ↔
      value? token.text.toList = some w.toInt := by
    simp [Option.bind_eq_some_iff, Word.ofInt?_eq_some_iff]
  rw [readOperand_eq hregister hname, ← hword]
  cases (value? token.text.toList).bind Word.ofInt? <;> simp

/-- An operand that is read as a literal is one within the range of words, or has a second sign. -/
lemma readsLiteral_iff {v : Int} :
    ReadsLiteral token v ↔
      (IsLiteral token.text.toList v ∨ HasSecondSign token.text.toList v) ∧
        -32768 ≤ v ∧ v ≤ 32767 := by
  simp only [ReadsLiteral, readOperand_eq_literal_iff hregister hname]
  constructor
  · rintro ⟨w, hvalue, rfl⟩
    have hlo := w.le_toInt
    have hhi := w.toInt_lt
    have hrange : -32768 ≤ w.toInt ∧ w.toInt ≤ 32767 := by omega
    exact ⟨(value?_eq_some_iff hrange.1 hrange.2).1 hvalue, hrange⟩
  · rintro ⟨hcs, hlo, hhi⟩
    have hvalue : (Int16.ofInt v).toInt = v := Int16.toInt_ofInt_of_le (by omega) (by omega)
    exact ⟨Int16.ofInt v, hvalue.symm ▸ (value?_eq_some_iff hlo hhi).2 hcs, hvalue⟩

/-- An operand that is no name and no register is invalid exactly if it is not read as a value. -/
lemma readOperand_eq_error_iff :
    readOperand token = .error ⟨token.column, .invalidOperand token.text⟩ ↔
      ∀ v, ¬ReadsLiteral token v := by
  constructor
  · rintro herror v ⟨w, hok, -⟩
    cases herror.symm.trans hok
  · intro hnone
    have heq := readOperand_eq hregister hname
    split at heq
    · exact absurd ⟨_, heq, rfl⟩ (hnone _)
    · exact heq

/-- A text that is no register and no name is read as a literal exactly if it is one of sixteen bits,
or would be one but for a second sign; any other is refused. So the literals alone are read exactly if no
value of sixteen bits has a second sign, and only the second sign lets the value be negative before
the first sign is applied. -/
theorem readOperand_literals :
    (∀ v, ReadsLiteral token v ↔
      (IsLiteral token.text.toList v ∨ HasSecondSign token.text.toList v) ∧
        -32768 ≤ v ∧ v ≤ 32767) ∧
    (readOperand token = .error ⟨token.column, .invalidOperand token.text⟩ ↔
      ∀ v, ¬ReadsLiteral token v) ∧
    ((∀ v, ReadsLiteral token v ↔
        IsLiteral token.text.toList v ∧ -32768 ≤ v ∧ v ≤ 32767) ↔
      ∀ v, HasSecondSign token.text.toList v → ¬(-32768 ≤ v ∧ v ≤ 32767)) ∧
    ∀ m, magnitude? (withoutSign token.text.toList) = some m →
      (m < 0 → HasSecondSign (withoutSign token.text.toList) m) ∧
      (fits64 (-m) = false ↔ m = -2 ^ 63) := by
  refine ⟨fun v => readsLiteral_iff hregister hname, readOperand_eq_error_iff hregister hname, ?_,
    fun m => neg_magnitude?⟩
  simp only [readsLiteral_iff hregister hname]
  constructor
  · intro hliteral v hsecond hrange
    exact ((hliteral v).1 ⟨.inr hsecond, hrange⟩).1.not_hasSecondSign hsecond
  · intro hsecond v
    refine and_congr_left fun hrange => or_iff_left fun h => hsecond v h hrange

end operands

/-- An operand that is read as a literal is written as a number. -/
lemma isLiteral_of_readOperand {token : Token} {w : Word} (h : readOperand token = .ok (.literal w)) :
    IsLiteral token.text.toList w.toInt ∨ HasSecondSign token.text.toList w.toInt := by
  have hregister : Vocabulary.register? token.text = none := by
    by_contra hne
    obtain ⟨r, hr⟩ := Option.ne_none_iff_exists'.1 hne
    rw [readOperand, hr] at h
    cases h
  have hname : Vocabulary.isIdentifier token.text = false := by
    by_contra hne
    rw [Bool.not_eq_false] at hne
    rw [readOperand, hregister] at h
    dsimp only at h
    rw [if_pos hne] at h
    cases h
  exact ((readsLiteral_iff hregister hname).1 ⟨w, h, rfl⟩).1

/-- Hexadecimal digits of either case, after a sign and a mark in capitals. -/
theorem readOperand_negative_hex :
    IsLiteral "-0X7fFe".toList (-32766) ∧ ReadsLiteral ⟨5, "-0X7fFe"⟩ (-32766) := by
  have hdigits : Denotes 16 "7fFe".toList 32766 :=
    ⟨by decide, [7, 15, 15, 14],
      .cons ⟨by decide, .inl rfl⟩ (.cons ⟨by decide, .inl rfl⟩
        (.cons ⟨by decide, .inr rfl⟩ (.cons ⟨by decide, .inl rfl⟩ .nil))), rfl⟩
  have hliteral : IsLiteral "-0X7fFe".toList (-32766) :=
    .inr (.minus (.inr ⟨'X', "7fFe".toList, .inr rfl, rfl, hdigits⟩))
  obtain ⟨hreads, -⟩ := @readOperand_literals ⟨5, "-0X7fFe"⟩ (by decide +kernel) (by decide +kernel)
  exact ⟨hliteral, (hreads _).2 ⟨.inl hliteral, by decide⟩⟩

/-- With a second sign a text is read that is no literal, and a value is read whose negative is beyond
64 bits. -/
theorem readOperand_second_sign :
    Vocabulary.register? "0x-5" = none ∧ Vocabulary.isIdentifier "0x-5" = false ∧
      ReadsLiteral ⟨5, "0x-5"⟩ (-5) ∧ (∀ v, ¬IsLiteral "0x-5".toList v) ∧
      magnitude? "0x-8000000000000000".toList = some (-2 ^ 63) ∧ fits64 (2 ^ 63) = false := by
  have hsecond : HasSecondSign "0x-5".toList (-5) :=
    .inl ⟨'x', "-5".toList, .inl rfl, rfl, .minus ⟨by decide, [5], .cons ⟨by decide, .inl rfl⟩ .nil, rfl⟩⟩
  exact ⟨by decide +kernel, by decide +kernel, ⟨-5, by decide +kernel, rfl⟩,
    fun v h => h.not_hasSecondSign hsecond, by decide +kernel, by decide⟩

end CardMachine.Line
