/-
  Numbers as hexadecimal digits of a fixed length.

  Two numbers below the place value have the same digits only if they are the
  same (`toHex_inj`).
-/
import Mathlib

namespace Hex

/-- The lower-case digit of a number below sixteen. -/
def digit (n : ℕ) : Char := Nat.digitChar n

def lowerDigits : List Char :=
  ['0', '1', '2', '3', '4', '5', '6', '7', '8', '9', 'a', 'b', 'c', 'd', 'e', 'f']

theorem mem_lowerDigits : ∀ n < 16, digit n ∈ lowerDigits := by
  decide

theorem digit_inj : ∀ n < 16, ∀ m < 16, digit n = digit m → n = m := by
  decide

/-- The last digits of a number, as many as asked for. -/
def toHex : ℕ → ℕ → List Char
  | 0, _ => []
  | length + 1, n => toHex length (n / 16) ++ [digit (n % 16)]

@[simp] theorem length_toHex (length n : ℕ) : (toHex length n).length = length := by
  induction length generalizing n with
  | zero => rfl
  | succ length ih => simp [toHex, ih]

theorem mem_lowerDigits_toHex {length n : ℕ} : ∀ c ∈ toHex length n, c ∈ lowerDigits := by
  induction length generalizing n with
  | zero => simp [toHex]
  | succ length ih =>
    intro c hc
    rcases List.mem_append.1 hc with hc | hc
    · exact ih c hc
    · rw [List.mem_singleton.1 hc]
      exact mem_lowerDigits _ (Nat.mod_lt n (by decide))

/-- The digits determine the number below their place value. -/
theorem toHex_inj {length n m : ℕ} (hn : n < 16 ^ length) (hm : m < 16 ^ length)
    (h : toHex length n = toHex length m) : n = m := by
  induction length generalizing n m with
  | zero =>
    rw [pow_zero] at hn hm
    omega
  | succ length ih =>
    obtain ⟨hinit, hlast⟩ := List.append_inj' h rfl
    have hdigit : n % 16 = m % 16 :=
      digit_inj _ (Nat.mod_lt n (by decide)) _ (Nat.mod_lt m (by decide))
        (List.singleton_inj.1 hlast)
    have hdiv : n / 16 = m / 16 := by
      rw [pow_succ] at hn hm
      exact ih (by omega) (by omega) hinit
    omega

/-- The number of hexadecimal digits. -/
def ofHex (digits : List Char) : ℕ :=
  digits.foldl (fun n c => 16 * n + lowerDigits.idxOf c) 0

theorem idxOf_digit : ∀ n < 16, lowerDigits.idxOf (digit n) = n := by
  decide

/-- The digits of a number below their place value are read as it. -/
theorem ofHex_toHex {length n : ℕ} (h : n < 16 ^ length) : ofHex (toHex length n) = n := by
  induction length generalizing n with
  | zero =>
    rw [pow_zero] at h
    obtain rfl := Nat.lt_one_iff.1 h
    rfl
  | succ length ih =>
    have hinit := ih (n := n / 16) (by rw [pow_succ] at h; omega)
    unfold ofHex at hinit ⊢
    rw [toHex, List.foldl_append, hinit, List.foldl_cons, List.foldl_nil,
      idxOf_digit _ (Nat.mod_lt n (by decide)), Nat.div_add_mod]

/-- A character takes four bytes at most. -/
theorem utf8ByteSize_ofList_le (l : List Char) : (String.ofList l).utf8ByteSize ≤ 4 * l.length := by
  induction l with
  | nil => simp
  | cons c l ih =>
    have hc := c.utf8Size_le_four
    have hhead : (String.ofList [c]).utf8ByteSize = c.utf8Size := by simp
    rw [show c :: l = [c] ++ l from rfl, String.ofList_append, String.utf8ByteSize_append,
      List.length_append, List.length_singleton]
    omega

end Hex
