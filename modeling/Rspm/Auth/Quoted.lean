/-
  Numbers as quoted texts.

  Only a canonical text is read.  A decimal that is read is nonnegative and
  within the format of the library (`Exact`), and each of these has a text that
  is read as it (`exactText`).
-/
import Rspm.Auth.Balance
import Rspm.Lib.FixedPoint
import Rspm.Utils.Canonical

namespace Rspm

open Balance Digits Serde

/-! ## Integers -/

/-- `parse` of an `i64`, on a canonical text. -/
def parseI64 (value : String) : Option ℤ :=
  if integerValue value < 2 ^ 63 then some (integerValue value) else none

/-- `optional_quoted_i64`. -/
def optionalQuotedI64 : Json → Option (Option ℤ)
  | .string value =>
    if canonicalUnsignedIntegerText value then (parseI64 value).map some else none
  | _ => none

/-- `optional_i64`; `number` reads a number as an `i64`. -/
def optionalI64 (number : String → Option ℤ) : Json → Option (Option ℤ)
  | .null => some none
  | .number text =>
    match number text with
    | some value => if value ≥ 0 then some (some value) else none
    | none => none
  | .string value =>
    if value.isEmpty then some none
    else if canonicalUnsignedIntegerText value then (parseI64 value).map some
    else none
  | _ => none

/-- `optional_u64`. -/
def optionalU64 (number : String → Option ℤ) (value : Json) : Option (Option ℕ) :=
  match optionalI64 number value with
  | some (some value) => if value ≥ 0 then some (some value.toNat) else none
  | some none => some none
  | none => none

/-- A time, or a number that the venue counts. -/
def InI64 (n : ℤ) : Prop := 0 ≤ n ∧ n < 2 ^ 63

/-- What `i64` holds. -/
def ReadsI64 (number : String → Option ℤ) : Prop := ∀ text n, number text = some n → n < 2 ^ 63

theorem parseI64_eq_some {value : String} {n : ℤ} (h : parseI64 value = some n) : InI64 n := by
  unfold parseI64 at h
  split_ifs at h with hlt
  obtain rfl := Option.some.inj h
  exact ⟨Int.natCast_nonneg _, by exact_mod_cast hlt⟩

theorem parseI64_repr {n : ℤ} (h : InI64 n) : parseI64 n.toNat.repr = some n := by
  obtain ⟨hpos, hlt⟩ := h
  rw [parseI64, integerValue_repr, if_pos (by omega), Int.toNat_of_nonneg hpos]

theorem canonical_repr (n : ℕ) : canonicalUnsignedIntegerText n.repr = true :=
  canonicalUnsignedIntegerText_iff.2 ⟨n, rfl⟩

/-- The text of a number is read as it. -/
theorem optionalQuotedI64_repr {n : ℤ} (h : InI64 n) :
    optionalQuotedI64 (.string n.toNat.repr) = some (some n) := by
  rw [optionalQuotedI64, if_pos (canonical_repr _), parseI64_repr h]
  rfl

theorem optionalI64_repr (number : String → Option ℤ) {n : ℤ} (h : InI64 n) :
    optionalI64 number (.string n.toNat.repr) = some (some n) := by
  have hne : n.toNat.repr.isEmpty = false := by
    rw [← Bool.not_eq_true, String.isEmpty_iff, ← String.toList_inj, Nat.toList_repr]
    exact Nat.toDigits_ne_nil
  rw [optionalI64, hne, if_neg Bool.false_ne_true, if_pos (canonical_repr _), parseI64_repr h]
  rfl

theorem optionalU64_repr (number : String → Option ℤ) {n : ℕ} (h : n < 2 ^ 63) :
    optionalU64 number (.string n.repr) = some (some n) := by
  have hread := optionalI64_repr number (n := n) ⟨Int.natCast_nonneg n, by exact_mod_cast h⟩
  rw [Int.toNat_natCast] at hread
  rw [optionalU64, hread]
  simp

theorem optionalQuotedI64_eq_some {value : Json} {time : Option ℤ}
    (h : optionalQuotedI64 value = some time) : ∀ n ∈ time, InI64 n := by
  rintro n ⟨rfl⟩
  cases value with
  | string text =>
    rw [optionalQuotedI64] at h
    split_ifs at h
    obtain ⟨n', hparse, hn⟩ := Option.map_eq_some_iff.1 h
    obtain rfl := Option.some.inj hn
    exact parseI64_eq_some hparse
  | _ => cases h

theorem optionalI64_eq_some {number : String → Option ℤ} (hnumber : ReadsI64 number)
    {value : Json} {time : Option ℤ} (h : optionalI64 number value = some time) :
    ∀ n ∈ time, InI64 n := by
  rintro n ⟨rfl⟩
  cases value with
  | number text =>
    rw [optionalI64] at h
    split at h
    · next hread =>
      split_ifs at h with hpos
      cases h
      exact ⟨hpos, hnumber _ _ hread⟩
    · cases h
  | string text =>
    rw [optionalI64] at h
    split_ifs at h
    · cases h
    · obtain ⟨n', hparse, hn⟩ := Option.map_eq_some_iff.1 h
      obtain rfl := Option.some.inj hn
      exact parseI64_eq_some hparse
  | _ => cases h

theorem optionalU64_eq_some {number : String → Option ℤ} (hnumber : ReadsI64 number)
    {value : Json} {count : Option ℕ} (h : optionalU64 number value = some count) :
    ∀ n ∈ count, n < 2 ^ 63 := by
  rintro n ⟨rfl⟩
  rw [optionalU64] at h
  split at h
  · next hread =>
    split_ifs at h
    cases h
    obtain ⟨hpos, hlt⟩ := optionalI64_eq_some hnumber hread _ rfl
    omega
  · cases h
  · cases h

/-! ## Decimals -/

section

variable (fromStrExact : String → Option ℚ)

/-- `quoted_decimal`. -/
def quotedDecimal : Json → Option ℚ
  | .string value => if canonicalNonnegativeDecimalText value then fromStrExact value else none
  | _ => none

/-- `optional_quoted_decimal`. -/
def optionalQuotedDecimal : Json → Option (Option ℚ)
  | .string value =>
    if value.isEmpty then some none
    else if canonicalNonnegativeDecimalText value then (fromStrExact value).map some
    else none
  | _ => none

end

/-- A nonnegative number of the library's format. -/
def Exact (q : ℚ) : Prop := 0 ≤ q ∧ FixedPoint.Fits (2 ^ 96) 28 q

/-- The number of places of an exact number. -/
def exactScale (q : ℚ) : ℕ := ((List.range 29).find? fun s => q.den ∣ 10 ^ s).getD 0

def exactMantissa (q : ℚ) : ℕ := q.num.toNat * (10 ^ exactScale q / q.den)

/-- The digits of an exact number, before its point and after it. -/
def exactText (q : ℚ) : String :=
  let place := 10 ^ exactScale q
  decimalText (Nat.toDigits 10 (exactMantissa q / place))
    (if exactScale q = 0 then []
      else padLeft (exactScale q) (Nat.toDigits 10 (exactMantissa q % place)))

section

variable {fromStrExact : String → Option ℚ} {q : ℚ}

theorem den_dvd_of_decimal (mantissa : ℤ) (scale : ℕ) :
    ((mantissa : ℚ) / 10 ^ scale).den ∣ 10 ^ scale := by
  have h := Rat.den_dvd mantissa (10 ^ scale)
  rw [Rat.divInt_eq_div] at h
  push_cast at h
  exact_mod_cast h

/-- A number of a few places is its mantissa over their place value. -/
theorem exactMantissa_div (hpos : 0 ≤ q) (h : q.den ∣ 10 ^ exactScale q) :
    (exactMantissa q : ℚ) / 10 ^ exactScale q = q := by
  obtain ⟨k, hk⟩ := h
  have hden : (q.den : ℚ) ≠ 0 := by exact_mod_cast q.den_nz
  have hplace : (q.den : ℚ) * k = 10 ^ exactScale q := by exact_mod_cast hk.symm
  have hk0 : (k : ℚ) ≠ 0 := by
    rintro h0
    rw [h0, mul_zero] at hplace
    exact absurd hplace.symm (by positivity)
  have hmantissa : exactMantissa q = q.num.toNat * k := by
    rw [exactMantissa, hk, Nat.mul_div_cancel_left k q.den_pos]
  have hnum : (q.num.toNat : ℚ) = q.num := by
    exact_mod_cast Int.toNat_of_nonneg (Rat.num_nonneg.2 hpos)
  rw [hmantissa, ← hplace]
  push_cast
  rw [hnum, mul_div_mul_right _ _ hk0, Rat.num_div_den]

/-- The least number of places is enough for the mantissa. -/
theorem exactScale_spec (h : Exact q) : exactScale q ≤ 28 ∧ exactMantissa q < 2 ^ 96 ∧
    (exactMantissa q : ℚ) / 10 ^ exactScale q = q := by
  obtain ⟨hpos, ⟨mantissa, scale, hlt, hscale⟩, hvalue⟩ := h
  change (mantissa : ℚ) / 10 ^ scale = q at hvalue
  have hdvd : q.den ∣ 10 ^ scale := hvalue ▸ den_dvd_of_decimal mantissa scale
  have hfound : ((List.range 29).find? fun s => decide (q.den ∣ 10 ^ s)).isSome :=
    List.find?_isSome.2 ⟨scale, List.mem_range.2 (by omega), decide_eq_true hdvd⟩
  obtain ⟨least, hleast⟩ := Option.isSome_iff_exists.1 hfound
  have heq : exactScale q = least := by
    rw [exactScale, hleast]
    rfl
  obtain ⟨hleast', hmem, hbelow⟩ := List.find?_range_eq_some.1 hleast
  have hle : least ≤ scale := by
    by_contra hgt
    have := hbelow scale (not_le.1 hgt)
    simp [hdvd] at this
  have hdiv := exactMantissa_div hpos (heq ▸ of_decide_eq_true hleast')
  refine ⟨heq ▸ Nat.lt_succ_iff.1 (List.mem_range.1 hmem), ?_, hdiv⟩
  -- the mantissa of the format has at least as many places
  obtain ⟨k, rfl⟩ := Nat.exists_eq_add_of_le hle
  have hcross : (exactMantissa q : ℚ) * 10 ^ k = mantissa := by
    have hsame : (exactMantissa q : ℚ) / 10 ^ least = mantissa / 10 ^ (least + k) := by
      rw [hvalue, ← heq, hdiv]
    rw [pow_add, div_eq_div_iff (by positivity) (by positivity)] at hsame
    have h10 : (10 : ℚ) ^ least ≠ 0 := by positivity
    exact mul_left_cancel₀ h10 (by linarith)
  have hnat : ((exactMantissa q * 10 ^ k : ℕ) : ℤ) = mantissa := by exact_mod_cast hcross
  have hle' := Nat.le_mul_of_pos_right (exactMantissa q) (Nat.pow_pos (n := k) (by decide : 0 < 10))
  omega

/-- The text of an exact number denotes it. -/
theorem exactText_eq (h : Exact q) : ∃ whole fraction : List Char,
    exactText q = decimalText whole fraction ∧ IsDecimal (exactText q) q ∧ whole ≠ [] ∧
      (∀ c ∈ whole, c.isDigit) ∧ (∀ c ∈ fraction, c.isDigit) ∧ fraction.length ≤ 28 ∧
      value (whole ++ fraction) < 2 ^ 96 ∧
      (value (whole ++ fraction) : ℚ) / 10 ^ fraction.length = q := by
  obtain ⟨hscale, hmantissa, hdiv⟩ := exactScale_spec h
  unfold exactText
  dsimp only
  generalize exactMantissa q = mantissa at hmantissa hdiv ⊢
  generalize exactScale q = scale at hscale hdiv ⊢
  have hne : ∀ n, Nat.toDigits 10 n ≠ [] := fun _ => Nat.toDigits_ne_nil
  by_cases hzero : scale = 0
  · subst hzero
    rw [pow_zero, div_one] at hdiv
    subst hdiv
    rw [if_pos rfl, pow_zero, Nat.div_one]
    refine ⟨Nat.toDigits 10 mantissa, [], rfl, ?_, hne _, isDigit_toDigits, by simp, by simp,
      by simpa using hmantissa, by simp⟩
    rw [decimalText, if_pos rfl, ← Nat.toList_repr, String.ofList_toList]
    exact .whole mantissa
  · rw [if_neg hzero]
    have hpos := Nat.pos_of_ne_zero hzero
    have hlength : (padLeft scale (Nat.toDigits 10 (mantissa % 10 ^ scale))).length = scale :=
      length_padLeft (length_toDigits_le hpos (Nat.mod_lt _ (Nat.pow_pos (by decide))))
    have hdigits : ∀ c ∈ padLeft scale (Nat.toDigits 10 (mantissa % 10 ^ scale)), c.isDigit :=
      isDigit_padLeft isDigit_toDigits
    have hrest : value (padLeft scale (Nat.toDigits 10 (mantissa % 10 ^ scale))) =
        mantissa % 10 ^ scale := by
      rw [value_padLeft, value_toDigits]
    generalize padLeft scale (Nat.toDigits 10 (mantissa % 10 ^ scale)) = fraction
      at hlength hdigits hrest ⊢
    have hvalue : value (Nat.toDigits 10 (mantissa / 10 ^ scale) ++ fraction) = mantissa := by
      rw [value_append, hlength, hrest, value_toDigits]
      exact Nat.div_add_mod mantissa (10 ^ scale)
    have hfraction : fraction ≠ [] := by
      rwa [← List.length_pos_iff, hlength]
    refine ⟨_, fraction, rfl, ?_, hne _, isDigit_toDigits, hdigits, hlength.trans_le hscale,
      hvalue.trans_lt hmantissa, by rw [hvalue, hlength, hdiv]⟩
    have htext : decimalText (Nat.toDigits 10 (mantissa / 10 ^ scale)) fraction =
        (mantissa / 10 ^ scale).repr ++ "." ++ String.ofList fraction := by
      rw [← String.toList_inj, decimalText, if_neg hfraction]
      simp [Nat.toList_repr]
    have hq : ((mantissa / 10 ^ scale : ℕ) : ℚ) + value fraction / 10 ^ fraction.length = q := by
      have hsplit : (mantissa : ℚ) =
          10 ^ scale * (mantissa / 10 ^ scale : ℕ) + (mantissa % 10 ^ scale : ℕ) := by
        exact_mod_cast (Nat.div_add_mod mantissa (10 ^ scale)).symm
      have hplace : (10 : ℚ) ^ scale ≠ 0 := by positivity
      rw [hlength, hrest, ← hdiv, eq_div_iff hplace, add_mul, div_mul_cancel₀ _ hplace]
      linarith
    rw [htext, ← hq]
    exact .point (mantissa / 10 ^ scale) hfraction hdigits

/-- The text of an exact number is read as it. -/
theorem quotedDecimal_exactText (hdecimals : ReadsDecimals fromStrExact) (h : Exact q) :
    quotedDecimal fromStrExact (.string (exactText q)) = some q := by
  obtain ⟨whole, fraction, htext, hdecimal, hne, hwhole, hfraction, hlength, hlt, hvalue⟩ :=
    exactText_eq h
  rw [quotedDecimal, if_pos (canonicalNonnegativeDecimalText_iff.2 ⟨q, hdecimal⟩), htext,
    hdecimals whole fraction hne hwhole hfraction, if_pos ⟨hlength, hlt⟩, hvalue]

/-- A canonical text is digits, with or without a point. -/
theorem decimalText_of_canonical {text : String}
    (h : canonicalNonnegativeDecimalText text = true) : ∃ whole fraction : List Char,
      text = decimalText whole fraction ∧ whole ≠ [] ∧ (∀ c ∈ whole, c.isDigit) ∧
        ∀ c ∈ fraction, c.isDigit := by
  obtain ⟨q, hdecimal⟩ := canonicalNonnegativeDecimalText_iff.1 h
  cases hdecimal with
  | whole n =>
    refine ⟨Nat.toDigits 10 n, [], ?_, Nat.toDigits_ne_nil, isDigit_toDigits, by simp⟩
    rw [decimalText, if_pos rfl, ← Nat.toList_repr, String.ofList_toList]
  | @point n fraction hne hdigits =>
    refine ⟨Nat.toDigits 10 n, fraction, ?_, Nat.toDigits_ne_nil, isDigit_toDigits, hdigits⟩
    rw [← String.toList_inj, decimalText, if_neg hne]
    simp [Nat.toList_repr]

/-- What is read is exact. -/
theorem exact_of_fromStrExact (hdecimals : ReadsDecimals fromStrExact) {text : String}
    (hcanonical : canonicalNonnegativeDecimalText text = true)
    (h : fromStrExact text = some q) : Exact q := by
  obtain ⟨whole, fraction, rfl, hne, hwhole, hfraction⟩ := decimalText_of_canonical hcanonical
  rw [hdecimals whole fraction hne hwhole hfraction] at h
  split_ifs at h with hfits
  obtain rfl := Option.some.inj h
  refine ⟨by positivity, ⟨value (whole ++ fraction), fraction.length, ?_, hfits.1⟩, ?_⟩
  · rw [Int.natAbs_natCast]
    exact hfits.2
  · rw [FixedPoint.Decimal.value, Int.cast_natCast]

theorem quotedDecimal_eq_some (hdecimals : ReadsDecimals fromStrExact) {value : Json}
    (h : quotedDecimal fromStrExact value = some q) : Exact q := by
  cases value with
  | string text =>
    rw [quotedDecimal] at h
    split_ifs at h with hcanonical
    exact exact_of_fromStrExact hdecimals hcanonical h
  | _ => cases h

theorem optionalQuotedDecimal_eq_some (hdecimals : ReadsDecimals fromStrExact) {value : Json}
    {read : Option ℚ} (h : optionalQuotedDecimal fromStrExact value = some read) :
    ∀ q ∈ read, Exact q := by
  rintro q ⟨rfl⟩
  cases value with
  | string text =>
    rw [optionalQuotedDecimal] at h
    split_ifs at h with hempty hcanonical
    · cases h
    · obtain ⟨q', hread, hq⟩ := Option.map_eq_some_iff.1 h
      obtain rfl := Option.some.inj hq
      exact exact_of_fromStrExact hdecimals hcanonical hread
  | _ => cases h

theorem optionalQuotedDecimal_exactText (hdecimals : ReadsDecimals fromStrExact) (h : Exact q) :
    optionalQuotedDecimal fromStrExact (.string (exactText q)) = some (some q) := by
  have hread := quotedDecimal_exactText hdecimals h
  rw [quotedDecimal] at hread
  split_ifs at hread with hcanonical
  have hne : (exactText q).isEmpty = false := by
    rw [← Bool.not_eq_true, String.isEmpty_iff]
    intro hempty
    rw [hempty] at hcanonical
    exact absurd hcanonical (by decide)
  rw [optionalQuotedDecimal, hne, if_neg Bool.false_ne_true, if_pos hcanonical, hread]
  rfl

end

end Rspm
