/-
  Numbers as decimal digits.

  A number has one writing without zeros on the left (`isCanonical_iff`).
-/
import Mathlib

namespace Digits

/-- The number that the digits denote. -/
def value (digits : List Char) : ℕ := Nat.ofDigitChars 10 digits 0

/-- Zeros on the left, up to a length. -/
def padLeft (length : ℕ) (digits : List Char) : List Char :=
  List.replicate (length - digits.length) '0' ++ digits

@[simp] theorem value_toDigits (n : ℕ) : value (Nat.toDigits 10 n) = n :=
  Nat.ofDigitChars_ten_toDigits

theorem value_append (digits digits' : List Char) :
    value (digits ++ digits') = 10 ^ digits'.length * value digits + value digits' := by
  unfold value
  rw [Nat.ofDigitChars_append, Nat.ofDigitChars_eq_ofDigitChars_zero]

@[simp] theorem value_padLeft (length : ℕ) (digits : List Char) :
    value (padLeft length digits) = value digits := by
  unfold padLeft
  rw [value_append]
  simp [value]

theorem length_padLeft {length : ℕ} {digits : List Char} (h : digits.length ≤ length) :
    (padLeft length digits).length = length := by
  unfold padLeft
  simp
  omega

theorem isDigit_toDigits {n : ℕ} : ∀ c ∈ Nat.toDigits 10 n, c.isDigit :=
  fun _ => Nat.isDigit_of_mem_toDigits (by decide) (by decide)

theorem isDigit_padLeft {length : ℕ} {digits : List Char} (h : ∀ c ∈ digits, c.isDigit) :
    ∀ c ∈ padLeft length digits, c.isDigit := by
  intro c hc
  rcases List.mem_append.1 hc with hc | hc
  · rw [List.eq_of_mem_replicate hc]
    rfl
  · exact h c hc

/-- The digits below a place value. -/
theorem length_toDigits_le {n k : ℕ} (hk : 0 < k) (h : n < 10 ^ k) :
    (Nat.toDigits 10 n).length ≤ k :=
  (Nat.length_toDigits_le_iff (by decide) hk).2 h

/-! ## Canonical digits -/

/-- Digits, and no zero on the left of others. -/
def IsCanonical (digits : List Char) : Prop :=
  digits ≠ [] ∧ (∀ c ∈ digits, c.isDigit) ∧ (digits.length = 1 ∨ digits.head? ≠ some '0')

theorem toNat_of_isDigit {c : Char} (h : c.isDigit) :
    ∃ n < 10, c.toNat - '0'.toNat = n ∧ c.toNat = 48 + n := by
  obtain ⟨hlow, hhigh⟩ : 48 ≤ c.toNat ∧ c.toNat ≤ 57 := Char.isDigit_iff_toNat.1 h
  exact ⟨c.toNat - 48, by omega, rfl, by omega⟩

theorem digitChar_sub {c : Char} (h : c.isDigit) : Nat.digitChar (c.toNat - '0'.toNat) = c := by
  obtain ⟨n, hlt, hsub, hc⟩ := toNat_of_isDigit h
  apply Char.toNat_inj.1
  rw [hsub, Nat.toNat_digitChar_of_lt_ten hlt, hc]

/-- Digits after a number are its digits and these. -/
theorem toDigits_ofDigitChars {digits : List Char} (hdigits : ∀ c ∈ digits, c.isDigit) :
    ∀ {n : ℕ}, 0 < n → Nat.toDigits 10 (Nat.ofDigitChars 10 digits n) =
      Nat.toDigits 10 n ++ digits := by
  induction digits with
  | nil => simp
  | cons c digits ih =>
    intro n hn
    rw [List.forall_mem_cons] at hdigits
    have hlt : c.toNat - '0'.toNat < 10 := by
      obtain ⟨n, hlt, hsub, -⟩ := toNat_of_isDigit hdigits.1
      rwa [hsub]
    rw [Nat.ofDigitChars_cons, ih hdigits.2 (by omega),
      ← Nat.toDigits_append_toDigits (by decide) hn hlt, Nat.toDigits_of_lt_base hlt,
      digitChar_sub hdigits.1, List.append_assoc]
    rfl

/-- Canonical digits are those of their number. -/
theorem toDigits_value {digits : List Char} (h : IsCanonical digits) :
    Nat.toDigits 10 (value digits) = digits := by
  obtain ⟨hne, hdigits, hhead⟩ := h
  cases digits with
  | nil => exact absurd rfl hne
  | cons c digits =>
    rw [List.forall_mem_cons] at hdigits
    have hlt : c.toNat - '0'.toNat < 10 := by
      obtain ⟨n, hlt, hsub, -⟩ := toNat_of_isDigit hdigits.1
      rwa [hsub]
    have hone : Nat.toDigits 10 (c.toNat - '0'.toNat) = [c] := by
      rw [Nat.toDigits_of_lt_base hlt, digitChar_sub hdigits.1]
    unfold value
    rw [Nat.ofDigitChars_cons, Nat.mul_zero, Nat.zero_add]
    rcases hhead with hlength | hzero
    · obtain rfl := List.length_eq_zero_iff.1 (Nat.succ.inj hlength)
      exact hone
    · have hpos : 0 < c.toNat - '0'.toNat := by
        rw [Nat.pos_iff_ne_zero]
        intro h0
        rw [h0, Nat.toDigits_zero] at hone
        exact hzero (congrArg List.head? hone.symm)
      rw [toDigits_ofDigitChars hdigits.2 hpos, hone]
      rfl

theorem isCanonical_toDigits (n : ℕ) : IsCanonical (Nat.toDigits 10 n) := by
  refine ⟨Nat.toDigits_ne_nil, isDigit_toDigits, ?_⟩
  induction n using Nat.strong_induction_on with
  | _ n ih =>
    by_cases h : n < 10
    · exact .inl (by rw [Nat.toDigits_of_lt_base h]; rfl)
    · right
      rw [Nat.toDigits_of_base_le (by decide) (not_lt.1 h),
        List.head?_append_of_ne_nil _ Nat.toDigits_ne_nil]
      rcases ih (n / 10) (by omega) with hlength | hhead
      · have hlt : n / 10 < 10 := by
          have := (Nat.length_toDigits_le_iff (b := 10) (by decide) Nat.one_pos).1 hlength.le
          simpa using this
        rw [Nat.toDigits_of_lt_base hlt]
        have hne : n / 10 ≠ 0 := by omega
        simpa using hne
      · exact hhead

/-- A number has one canonical writing. -/
theorem isCanonical_iff {digits : List Char} :
    IsCanonical digits ↔ ∃ n, digits = Nat.toDigits 10 n := by
  constructor
  · intro h
    exact ⟨value digits, (toDigits_value h).symm⟩
  · rintro ⟨n, rfl⟩
    exact isCanonical_toDigits n

end Digits
