import Mathlib.Data.Nat.Digits.Defs
import UsageReport.Text.Digits

/-!
The decimal digits of a number and the number of the digits.
-/

namespace UsageReport.Text

theorem lt_two_pow_iff {n : Nat} : n < 2 ^ 64 ↔ n ≤ greatestWord :=
  Nat.lt_iff_le_pred (Nat.two_pow_pos 64)

/-- The value of digits after others that have come to a value. -/
def digitsFrom (value : Nat) (digits : List Char) : Nat :=
  digits.foldl (fun value c => value * 10 + digitValue c) value

theorem digitsFrom_zero (digits : List Char) : digitsFrom 0 digits = digitsValue digits := rfl

theorem digitsFrom_cons (value : Nat) (c : Char) (digits : List Char) :
    digitsFrom value (c :: digits) = digitsFrom (value * 10 + digitValue c) digits :=
  List.foldl_cons ..

theorem digitsValue_append (first second : List Char) :
    digitsValue (first ++ second) = digitsFrom (digitsValue first) second :=
  List.foldl_append

theorem digitsFrom_eq_ofDigitChars (value : Nat) (digits : List Char) :
    digitsFrom value digits = Nat.ofDigitChars 10 digits value := by
  rw [Nat.ofDigitChars_eq_foldl]
  simp only [digitsFrom, digitValue, Nat.mul_comm]

theorem le_digitsFrom (value : Nat) (digits : List Char) : value ≤ digitsFrom value digits := by
  induction digits generalizing value with
  | nil => exact Nat.le_refl value
  | cons c digits ih =>
      have hrest := ih (value * 10 + digitValue c)
      rw [digitsFrom_cons]
      omega

theorem digitValue_le {c : Char} (hc : c.isDigit = true) : digitValue c ≤ 9 := by
  have hcode : 48 ≤ c.toNat ∧ c.toNat ≤ 57 := Char.isDigit_iff_toNat.mp hc
  exact Nat.sub_le_of_le_add hcode.2

theorem digitsFrom_lt {digits : List Char} (value : Nat)
    (hdigits : ∀ c ∈ digits, c.isDigit = true) :
    digitsFrom value digits < (value + 1) * 10 ^ digits.length := by
  induction digits generalizing value with
  | nil => simp [digitsFrom]
  | cons c digits ih =>
      obtain ⟨hc, hrest⟩ := List.forall_mem_cons.mp hdigits
      have hdigit := digitValue_le hc
      calc digitsFrom value (c :: digits)
          < (value * 10 + digitValue c + 1) * 10 ^ digits.length := ih _ hrest
        _ ≤ (value + 1) * 10 * 10 ^ digits.length := Nat.mul_le_mul_right _ (by omega)
        _ = (value + 1) * 10 ^ (c :: digits).length := by
          rw [List.length_cons, Nat.pow_succ', Nat.mul_assoc]

theorem digitsValue_lt {digits : List Char} (hdigits : ∀ c ∈ digits, c.isDigit = true) :
    digitsValue digits < 10 ^ digits.length := by
  have hlt := digitsFrom_lt 0 hdigits
  rwa [digitsFrom_zero, Nat.zero_add, Nat.one_mul] at hlt

theorem digitsFrom_replicate_zero (value count : Nat) :
    digitsFrom value (List.replicate count '0') = value * 10 ^ count := by
  rw [digitsFrom_eq_ofDigitChars, Nat.ofDigitChars_replicate_zero, Nat.mul_comm]

theorem digitsValue_replicate_zero_append (zeros : Nat) (digits : List Char) :
    digitsValue (List.replicate zeros '0' ++ digits) = digitsValue digits := by
  rw [digitsValue_append, ← digitsFrom_zero (List.replicate ..), digitsFrom_replicate_zero,
    Nat.zero_mul, digitsFrom_zero]

theorem digitsValue_decimal (n : Nat) : digitsValue (decimal n) = n := by
  rw [← digitsFrom_zero, digitsFrom_eq_ofDigitChars]
  exact Nat.ofDigitChars_ten_toDigits

theorem toString_inj {n m : Nat} : toString n = toString m ↔ n = m := by
  constructor
  · intro htext
    have hdigits : decimal n = decimal m := by simpa [decimal] using congrArg String.toList htext
    rw [← digitsValue_decimal n, hdigits, digitsValue_decimal]
  · exact congrArg toString

theorem decimal_ne_nil (n : Nat) : decimal n ≠ [] := Nat.toDigits_ne_nil

theorem isDigit_of_mem_decimal {n : Nat} {c : Char} (hc : c ∈ decimal n) : c.isDigit = true :=
  Nat.isDigit_of_mem_toDigits (by decide) (by decide) hc

theorem length_decimal_le_iff {n count : Nat} (hcount : 0 < count) :
    (decimal n).length ≤ count ↔ n < 10 ^ count :=
  Nat.length_toDigits_le_iff (by decide) hcount

theorem lt_pow_length_decimal (n : Nat) : n < 10 ^ (decimal n).length :=
  (length_decimal_le_iff Nat.length_toDigits_pos).mp (Nat.le_refl _)

theorem decimal_of_lt {n : Nat} (hn : n < 10) : decimal n = [n.digitChar] :=
  Nat.toDigits_of_lt_base hn

/-- Only zero is written with a zero in front. -/
theorem head?_decimal {n : Nat} (hn : n ≠ 0) : (decimal n).head? ≠ some '0' := by
  induction n using Nat.strongRecOn with
  | ind n ih =>
      rcases Nat.lt_or_ge n 10 with hless | hge
      · rw [decimal_of_lt hless, List.head?_cons, Ne, Option.some.injEq, Nat.digitChar_eq_zero]
        exact hn
      · have hhead := ih (n / 10) (by omega) (by omega)
        have hsplit : decimal n = decimal (n / 10) ++ [(n % 10).digitChar] :=
          Nat.toDigits_of_base_le (by decide) hge
        rwa [hsplit, List.head?_append, Option.or_of_isSome (by simp [decimal_ne_nil])]

end UsageReport.Text
