/-
  Byte strings one after another, each behind its length.

  The lengths have a fixed width, so that the strings can be told apart whatever
  bytes they hold (`frames_inj`).
-/
import Mathlib

namespace Framing

/-! ## Numbers of a fixed width -/

/-- The low bytes of a number, the highest first. -/
def bigEndian : ℕ → ℕ → List UInt8
  | 0, _ => []
  | width + 1, n => bigEndian width (n / 256) ++ [UInt8.ofNat n]

@[simp] theorem length_bigEndian (width n : ℕ) : (bigEndian width n).length = width := by
  induction width generalizing n with
  | zero => rfl
  | succ width ih => rw [bigEndian, List.length_append, ih, List.length_singleton]

theorem bigEndian_inj {width : ℕ} : ∀ {n m : ℕ}, n < 256 ^ width → m < 256 ^ width →
    bigEndian width n = bigEndian width m → n = m := by
  induction width with
  | zero =>
    intro n m hn hm _
    omega
  | succ width ih =>
    intro n m hn hm h
    rw [bigEndian, bigEndian] at h
    rw [pow_succ] at hn hm
    obtain ⟨hhigh, hlow⟩ := List.append_inj' h rfl
    have hdiv : n / 256 = m / 256 :=
      ih (Nat.div_lt_of_lt_mul (by omega)) (Nat.div_lt_of_lt_mul (by omega)) hhigh
    have hmod : n % 256 = m % 256 := by
      have hbyte := congrArg UInt8.toNat (List.singleton_inj.1 hlow)
      simpa using hbyte
    rw [← Nat.div_add_mod n 256, ← Nat.div_add_mod m 256, hdiv, hmod]

/-! ## Frames -/

/-- A byte string behind its length. -/
def frame (width : ℕ) (bytes : List UInt8) : List UInt8 := bigEndian width bytes.length ++ bytes

/-- What follows a frame does not change how it is read. -/
theorem frame_append_inj {width : ℕ} {bytes bytes' rest rest' : List UInt8}
    (hlt : bytes.length < 256 ^ width) (hlt' : bytes'.length < 256 ^ width)
    (h : frame width bytes ++ rest = frame width bytes' ++ rest') :
    bytes = bytes' ∧ rest = rest' := by
  unfold frame at h
  rw [List.append_assoc, List.append_assoc] at h
  obtain ⟨hlength, hbytes⟩ := List.append_inj h (by simp)
  exact List.append_inj hbytes (bigEndian_inj hlt hlt' hlength)

/-- Frames one after another determine their byte strings, and how many they are. -/
theorem frames_inj {width : ℕ} (hwidth : 0 < width) {strings : List (List UInt8)} :
    ∀ {strings' : List (List UInt8)}, (∀ bytes ∈ strings, bytes.length < 256 ^ width) →
      (∀ bytes ∈ strings', bytes.length < 256 ^ width) →
      strings.flatMap (frame width) = strings'.flatMap (frame width) → strings = strings' := by
  have hne : ∀ bytes rest, frame width bytes ++ rest ≠ [] := by
    intro bytes rest h
    have hlength := congrArg List.length h
    simp only [frame, List.length_append, length_bigEndian, List.length_nil] at hlength
    omega
  induction strings with
  | nil =>
    intro strings' _ _ h
    cases strings' with
    | nil => rfl
    | cons bytes' strings' => exact absurd h.symm (hne _ _)
  | cons bytes strings ih =>
    intro strings' hlt hlt' h
    cases strings' with
    | nil => exact absurd h (hne _ _)
    | cons bytes' strings' =>
      rw [List.forall_mem_cons] at hlt hlt'
      obtain ⟨rfl, hrest⟩ := frame_append_inj hlt.1 hlt'.1 h
      rw [ih hlt.2 hlt'.2 hrest]

end Framing
