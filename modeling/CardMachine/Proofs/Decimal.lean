import CardMachine.Decimal.Numeral
import Mathlib.Tactic.Lemma

/-!
# Decimal numerals are read back

The digits of a number denote it (`value_nat`), a number other than zero is written without a zero in
front (`head?_nat_ne_zero`), and nothing but digits and a minus sign is in a numeral
(`isDigit_or_eq_of_mem_int`). Readers that go digit by digit rely on one more fact: on the way the
value never exceeds the final one (`le_ofDigitChars`).
-/

namespace CardMachine.Decimal

/-- A natural number is written in digits. -/
lemma isDigit_of_mem_nat {n : Nat} {c : Char} (h : c ∈ nat n) : c.isDigit = true :=
  Nat.isDigit_of_mem_toDigits (by omega) (by omega) h

lemma nat_ne_nil (n : Nat) : nat n ≠ [] :=
  Nat.toDigits_ne_nil

/-- The digits of a natural number denote it. -/
lemma value_nat (n : Nat) : value (nat n) = n :=
  Nat.ofDigitChars_toDigits (by omega) (by omega)

/-- Only zero is written with a zero in front. -/
lemma head?_nat_ne_zero {n : Nat} (h : 0 < n) : (nat n).head? ≠ some '0' := by
  induction n using Nat.strongRecOn with
  | ind n ih =>
    rw [nat, Nat.toDigits_eq_if (by omega)]
    split
    case isTrue => simpa using Nat.ne_of_gt h
    case isFalse hn =>
      have hfront := ih (n / 10) (by omega) (by omega)
      obtain ⟨c, cs, e⟩ := List.exists_cons_of_ne_nil (nat_ne_nil (n / 10))
      rw [nat] at hfront e
      rw [e] at hfront ⊢
      exact hfront

lemma int_ne_nil (v : Int) : int v ≠ [] := by
  rw [int]
  split
  · exact List.cons_ne_nil _ _
  · exact nat_ne_nil _

/-- An integer is written in digits, a minus sign apart. -/
lemma isDigit_or_eq_of_mem_int {v : Int} {c : Char} (h : c ∈ int v) :
    c.isDigit = true ∨ c = '-' := by
  rw [int] at h
  split at h
  · rcases List.mem_cons.1 h with rfl | h
    · exact .inr rfl
    · exact .inl (isDigit_of_mem_nat h)
  · exact .inl (isDigit_of_mem_nat h)

/-- A numeral starts with a digit or a minus sign, and so with no other character. -/
lemma int_eq_cons (v : Int) :
    ∃ c cs, int v = c :: cs ∧ ∀ x : Char, x.isDigit = false → x ≠ '-' → c ≠ x := by
  obtain ⟨c, cs, e⟩ := List.exists_cons_of_ne_nil (int_ne_nil v)
  refine ⟨c, cs, e, ?_⟩
  rintro x hx hminus rfl
  rcases isDigit_or_eq_of_mem_int (e ▸ List.mem_cons_self) with h | h
  · rw [hx] at h
    cases h
  · exact hminus h

/-- More digits make a number no smaller. -/
lemma le_ofDigitChars (ds : List Char) (n : Nat) : n ≤ Nat.ofDigitChars 10 ds n := by
  induction ds generalizing n with
  | nil => exact Nat.le_refl n
  | cons d rest ih =>
    rw [Nat.ofDigitChars_cons]
    have hnext := ih (10 * n + (d.toNat - '0'.toNat))
    omega

end CardMachine.Decimal
