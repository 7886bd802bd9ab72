/-
  Canonical texts of numbers.

  A canonical integer is the decimal rendering of one natural number
  (`canonicalUnsignedIntegerText_iff`), a canonical decimal is such a rendering,
  with or without a point and digits after it (`IsDecimal`).
-/
import Rspm.Lib.Digits
import Rspm.Utils.Helpers

namespace Rspm

open Digits

/-- The number of a canonical integer. -/
def integerValue (text : String) : ℕ := value text.toList

/-- A natural number, and digits after a point if there is one. -/
inductive IsDecimal : String → ℚ → Prop
  | whole (n : ℕ) : IsDecimal n.repr n
  | point (n : ℕ) {fraction : List Char} (hne : fraction ≠ [])
      (hdigits : ∀ c ∈ fraction, c.isDigit) :
      IsDecimal (n.repr ++ "." ++ String.ofList fraction)
        (n + value fraction / 10 ^ fraction.length)

/-! ## Integers -/

theorem canonicalUnsignedInteger_iff {digits : List Char} :
    canonicalUnsignedInteger digits = true ↔ IsCanonical digits := by
  unfold canonicalUnsignedInteger IsCanonical
  simp [and_assoc]

/-- The canonical texts are the renderings of the natural numbers. -/
theorem canonicalUnsignedIntegerText_iff {text : String} :
    canonicalUnsignedIntegerText text = true ↔ ∃ n : ℕ, text = n.repr := by
  unfold canonicalUnsignedIntegerText
  rw [canonicalUnsignedInteger_iff, isCanonical_iff]
  constructor
  · rintro ⟨n, h⟩
    exact ⟨n, String.toList_injective (h.trans Nat.toList_repr.symm)⟩
  · rintro ⟨n, rfl⟩
    exact ⟨n, Nat.toList_repr⟩

@[simp] theorem integerValue_repr (n : ℕ) : integerValue n.repr = n := by
  unfold integerValue
  rw [Nat.toList_repr, value_toDigits]

theorem repr_inj {n m : ℕ} : n.repr = m.repr ↔ n = m := by
  constructor
  · intro h
    rw [← integerValue_repr n, h, integerValue_repr]
  · rintro rfl
    rfl

/-- A canonical text is the rendering of its number. -/
theorem repr_integerValue {text : String} (h : canonicalUnsignedIntegerText text = true) :
    (integerValue text).repr = text := by
  obtain ⟨n, rfl⟩ := canonicalUnsignedIntegerText_iff.1 h
  rw [integerValue_repr]

/-! ## Decimals -/

/-- What is between the points of a decimal, as a number. -/
def decimalOf : List (List Char) → Option ℚ
  | [whole] => some (value whole)
  | [whole, fraction] => some (value whole + value fraction / 10 ^ fraction.length)
  | _ => none

theorem point_notMem {digits : List Char} (h : ∀ c ∈ digits, c.isDigit) : '.' ∉ digits := by
  intro hm
  have := h '.' hm
  simp at this

theorem splitOn_whole (n : ℕ) : n.repr.toList.splitOn '.' = [Nat.toDigits 10 n] := by
  have hplain : ∀ part ∈ [Nat.toDigits 10 n], '.' ∉ part := by
    intro part hm
    rw [List.mem_singleton.1 hm]
    exact point_notMem isDigit_toDigits
  rw [Nat.toList_repr]
  simpa using List.splitOn_intercalate '.' hplain (by simp)

theorem splitOn_point (n : ℕ) {fraction : List Char} (hdigits : ∀ c ∈ fraction, c.isDigit) :
    (n.repr ++ "." ++ String.ofList fraction).toList.splitOn '.' =
      [Nat.toDigits 10 n, fraction] := by
  have hplain : ∀ part ∈ [Nat.toDigits 10 n, fraction], '.' ∉ part := by
    intro part hm
    rcases List.mem_pair.1 hm with rfl | rfl
    · exact point_notMem isDigit_toDigits
    · exact point_notMem hdigits
  have htext : (n.repr ++ "." ++ String.ofList fraction).toList =
      ['.'].intercalate [Nat.toDigits 10 n, fraction] := by
    simp [Nat.toList_repr, List.intercalate_cons_cons]
  rw [htext]
  exact List.splitOn_intercalate '.' hplain (by simp)

/-- A text denotes one number. -/
theorem IsDecimal.decimalOf_eq {text : String} {q : ℚ} (h : IsDecimal text q) :
    decimalOf (text.toList.splitOn '.') = some q := by
  cases h with
  | whole n =>
    rw [splitOn_whole, decimalOf, value_toDigits]
  | point n hne hdigits =>
    rw [splitOn_point n hdigits, decimalOf, value_toDigits]

theorem IsDecimal.nonneg {text : String} {q : ℚ} (h : IsDecimal text q) : 0 ≤ q := by
  cases h with
  | whole n => positivity
  | point n hne hdigits => positivity

/-- The canonical decimals are the texts of `IsDecimal`. -/
theorem canonicalNonnegativeDecimalText_iff {text : String} :
    canonicalNonnegativeDecimalText text = true ↔ ∃ q, IsDecimal text q := by
  constructor
  · intro h
    have htext : text.toList = ['.'].intercalate (text.toList.splitOn '.') :=
      (List.intercalate_splitOn '.').symm
    unfold canonicalNonnegativeDecimalText at h
    split at h
    · next whole hsplit =>
      obtain ⟨n, rfl⟩ := isCanonical_iff.1 (canonicalUnsignedInteger_iff.1 h)
      rw [hsplit, List.intercalate_singleton, ← Nat.toList_repr] at htext
      obtain rfl := String.toList_injective htext
      exact ⟨n, .whole n⟩
    · next whole fraction hsplit =>
      rw [Bool.and_eq_true, Bool.and_eq_true] at h
      obtain ⟨hwhole, hne, hdigits⟩ := h
      obtain ⟨n, rfl⟩ := isCanonical_iff.1 (canonicalUnsignedInteger_iff.1 hwhole)
      have htext' : text = n.repr ++ "." ++ String.ofList fraction := by
        apply String.toList_injective
        rw [htext, hsplit]
        simp [Nat.toList_repr, List.intercalate_cons_cons]
      rw [htext']
      exact ⟨_, .point n (by simpa using hne) (List.all_eq_true.1 hdigits)⟩
    · cases h
  · rintro ⟨q, h⟩
    unfold canonicalNonnegativeDecimalText
    cases h with
    | whole n =>
      rw [splitOn_whole]
      exact canonicalUnsignedInteger_iff.2 (isCanonical_toDigits n)
    | point n hne hdigits =>
      rw [splitOn_point n hdigits]
      simp only [Bool.and_eq_true]
      exact ⟨canonicalUnsignedInteger_iff.2 (isCanonical_toDigits n), by simpa using hne,
        List.all_eq_true.2 hdigits⟩

/-- A canonical integer is the rendering of one number and is determined by it; a canonical decimal
    is such a rendering, with or without a point and digits, and denotes one nonnegative number. -/
theorem canonical_texts :
    (∀ text, canonicalUnsignedIntegerText text = true ↔ ∃ n : ℕ, text = n.repr) ∧
    (∀ n : ℕ, integerValue n.repr = n) ∧
    (∀ text text', canonicalUnsignedIntegerText text = true →
      canonicalUnsignedIntegerText text' = true → integerValue text = integerValue text' →
        text = text') ∧
    (∀ text, canonicalNonnegativeDecimalText text = true ↔ ∃ whole : String,
      canonicalUnsignedIntegerText whole = true ∧ (text = whole ∨ ∃ fraction : List Char,
        fraction ≠ [] ∧ (∀ c ∈ fraction, c.isDigit) ∧
          text = whole ++ "." ++ String.ofList fraction)) ∧
    ∀ text, canonicalNonnegativeDecimalText text = true →
      ∃ q, IsDecimal text q ∧ 0 ≤ q ∧ ∀ q', IsDecimal text q' → q' = q := by
  refine ⟨fun _ => canonicalUnsignedIntegerText_iff, integerValue_repr, ?_, ?_, ?_⟩
  · intro text text' h h' hvalue
    rw [← repr_integerValue h, hvalue, repr_integerValue h']
  · intro text
    rw [canonicalNonnegativeDecimalText_iff]
    constructor
    · rintro ⟨q, h⟩
      cases h with
      | whole n => exact ⟨n.repr, canonicalUnsignedIntegerText_iff.2 ⟨n, rfl⟩, .inl rfl⟩
      | @point n fraction hne hdigits =>
        exact ⟨n.repr, canonicalUnsignedIntegerText_iff.2 ⟨n, rfl⟩,
          .inr ⟨fraction, hne, hdigits, rfl⟩⟩
    · rintro ⟨whole, hwhole, htext⟩
      obtain ⟨n, rfl⟩ := canonicalUnsignedIntegerText_iff.1 hwhole
      rcases htext with rfl | ⟨fraction, hne, hdigits, rfl⟩
      · exact ⟨n, .whole n⟩
      · exact ⟨_, .point n hne hdigits⟩
  · intro text h
    obtain ⟨q, hq⟩ := canonicalNonnegativeDecimalText_iff.1 h
    refine ⟨q, hq, hq.nonneg, ?_⟩
    intro q' hq'
    exact Option.some.inj (hq'.decimalOf_eq.symm.trans hq.decimalOf_eq)

end Rspm
