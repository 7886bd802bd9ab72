/-
  The representation of a decimal: its zeros at the end, and its places.

  `Rescaling` are the operations on it, `Lawful` what is known of them;
  `rescaling` adds a zero as long as there is room for it.  An integer number of
  units is the mantissa at that scale, if there is room (`Lawful.units`).
-/
import Rspm.Lib.FixedPoint

namespace FixedPoint

variable {M S : ℕ}

/-- Toward zero, to a number of places. -/
def truncate (places : ℕ) (q : ℚ) : ℚ :=
  (if 0 ≤ q then ⌊q * 10 ^ places⌋ else -⌊-q * 10 ^ places⌋ : ℤ) / 10 ^ places

/-- What has few places is not truncated. -/
theorem truncate_of_units {places : ℕ} (n : ℤ) :
    truncate places ((n : ℚ) / 10 ^ places) = n / 10 ^ places := by
  have hpow : (10 : ℚ) ^ places ≠ 0 := by positivity
  unfold truncate
  rw [← neg_div, div_mul_cancel₀ _ hpow, div_mul_cancel₀ _ hpow, ← Int.cast_neg, Int.floor_intCast,
    Int.floor_intCast, neg_neg, ite_self]

theorem truncate_nonneg {places : ℕ} {q : ℚ} (h : 0 ≤ q) : 0 ≤ truncate places q := by
  unfold truncate
  rw [if_pos h]
  have : 0 ≤ ⌊q * 10 ^ places⌋ := Int.floor_nonneg.2 (by positivity)
  positivity

theorem truncate_le {places : ℕ} {q : ℚ} (h : 0 ≤ q) : truncate places q ≤ q := by
  unfold truncate
  rw [if_pos h, div_le_iff₀ (by positivity)]
  exact Int.floor_le _

/-- What is positive when it is truncated is not negative. -/
theorem nonneg_of_truncate_pos {places : ℕ} {q : ℚ} (h : 0 < truncate places q) : 0 ≤ q := by
  by_contra hq
  unfold truncate at h
  rw [if_neg hq] at h
  have hfloor : 0 ≤ ⌊-q * 10 ^ places⌋ :=
    Int.floor_nonneg.2 (mul_nonneg (neg_nonneg.2 (not_le.1 hq).le) (by positivity))
  have hle : ((-⌊-q * 10 ^ places⌋ : ℤ) : ℚ) / 10 ^ places ≤ 0 :=
    div_nonpos_of_nonpos_of_nonneg (by exact_mod_cast neg_nonpos.2 hfloor) (by positivity)
  exact absurd h (not_lt.2 hle)

/-! ## The operations -/

structure Rescaling (M S : ℕ) where
  truncWithScale : ℕ → Decimal M S → Decimal M S
  normalize : Decimal M S → Decimal M S
  rem : Decimal M S → Decimal M S → Decimal M S

structure Rescaling.Lawful (ops : Rescaling M S) : Prop where
  trunc_value : ∀ places d, (ops.truncWithScale places d).value = truncate places d.value
  /-- zeros are added if there is room for all of them -/
  trunc_scale : ∀ places d, places ≤ S →
    (d.scale ≤ places → d.mantissa.natAbs * 10 ^ (places - d.scale) < M) →
    (ops.truncWithScale places d).scale = places
  normalize_value : ∀ d, (ops.normalize d).value = d.value
  /-- no zeros are left at the end -/
  normalize_lowest : ∀ d, ¬ 10 ∣ (ops.normalize d).mantissa ∨ (ops.normalize d).scale = 0
  /-- the remainder has the sign of the dividend -/
  rem_spec : ∀ a b, b.value ≠ 0 → ∃ k : ℤ, a.value = k * b.value + (ops.rem a b).value ∧
    |(ops.rem a b).value| < |b.value| ∧ 0 ≤ a.value * (ops.rem a b).value

theorem Decimal.mantissa_eq (d : Decimal M S) : (d.mantissa : ℚ) = d.value * 10 ^ d.scale := by
  unfold Decimal.value
  rw [div_mul_cancel₀ _ (by positivity)]

theorem Decimal.mantissa_nonneg {d : Decimal M S} (h : 0 ≤ d.value) : 0 ≤ d.mantissa := by
  have hmantissa : (0 : ℚ) ≤ d.mantissa := by
    rw [d.mantissa_eq]
    positivity
  exact_mod_cast hmantissa

/-- A decimal without zeros at its end has the least scale. -/
theorem scale_le_of_lowest {m n : ℤ} {s t : ℕ} (hlow : ¬ 10 ∣ m ∨ s = 0)
    (h : (m : ℚ) / 10 ^ s = n / 10 ^ t) : s ≤ t := by
  rw [div_eq_div_iff (by positivity) (by positivity)] at h
  have hcross : m * 10 ^ t = n * 10 ^ s := by exact_mod_cast h
  rcases hlow with hlow | rfl
  · by_contra hlt
    obtain ⟨k, rfl⟩ := Nat.exists_eq_add_of_lt (not_le.1 hlt)
    rw [show t + k + 1 = (k + 1) + t by omega, pow_add, ← mul_assoc] at hcross
    have hm : m = n * 10 ^ (k + 1) := mul_right_cancel₀ (by positivity) hcross
    exact hlow (hm ▸ (dvd_pow_self 10 k.succ_ne_zero).mul_left n)
  · exact Nat.zero_le t

namespace Rescaling.Lawful

variable {ops : Rescaling M S} (h : ops.Lawful)
include h

theorem normalize_scale_le (d : Decimal M S) {n : ℤ} {t : ℕ} (hd : d.value = n / 10 ^ t) :
    (ops.normalize d).scale ≤ t := by
  refine scale_le_of_lowest (n := n) (h.normalize_lowest d) ?_
  exact (h.normalize_value d).trans hd

/-- A multiple has no remainder, and nothing else. -/
theorem rem_eq_zero_iff {a b : Decimal M S} (hb : b.value ≠ 0) :
    (ops.rem a b).value = 0 ↔ ∃ k : ℤ, a.value = k * b.value := by
  obtain ⟨k, heq, hlt, -⟩ := h.rem_spec a b hb
  constructor
  · intro hzero
    exact ⟨k, by rw [heq, hzero, add_zero]⟩
  · rintro ⟨k', hk'⟩
    have hr : (ops.rem a b).value = ((k' - k : ℤ) : ℚ) * b.value := by
      push_cast
      linarith
    rw [hr, abs_mul] at hlt
    have hone : |((k' - k : ℤ) : ℚ)| < 1 := by
      have hpos : 0 < |b.value| := abs_pos.2 hb
      exact lt_of_mul_lt_mul_right (by rwa [one_mul]) hpos.le
    have hzero : k' - k = 0 := by
      rw [← Int.cast_abs] at hone
      exact Int.abs_lt_one_iff.1 (by exact_mod_cast hone)
    rw [hr, hzero, Int.cast_zero, zero_mul]

/-- A whole number of units is the mantissa, if there is room for it. -/
theorem units {places : ℕ} {d : Decimal M S} {n : ℕ} (hplaces : places ≤ S)
    (hd : d.value = n / 10 ^ places) (hroom : n < M) :
    (ops.truncWithScale places (ops.normalize d)).mantissa = n := by
  have hd' : d.value = ((n : ℤ) : ℚ) / 10 ^ places := by rw [hd, Int.cast_natCast]
  have hscale : (ops.normalize d).scale ≤ places := h.normalize_scale_le d hd'
  have hm : (ops.normalize d).mantissa * 10 ^ (places - (ops.normalize d).scale) = n := by
    have hm := (ops.normalize d).mantissa_eq
    rw [h.normalize_value, hd'] at hm
    have hcast : ((ops.normalize d).mantissa : ℚ) * 10 ^ (places - (ops.normalize d).scale) =
        n := by
      rw [hm, mul_assoc, ← pow_add, Nat.add_sub_cancel' hscale, div_mul_cancel₀ _ (by positivity)]
      push_cast
      rfl
    exact_mod_cast hcast
  have htrunc : (ops.truncWithScale places (ops.normalize d)).scale = places := by
    refine h.trunc_scale places _ hplaces fun _ => ?_
    have habs := congrArg Int.natAbs hm
    rw [Int.natAbs_mul, Int.natAbs_pow] at habs
    exact habs.trans_lt hroom
  have hvalue := (ops.truncWithScale places (ops.normalize d)).mantissa_eq
  rw [htrunc, h.trunc_value, h.normalize_value, hd', truncate_of_units,
    div_mul_cancel₀ _ (by positivity)] at hvalue
  exact_mod_cast hvalue

end Rescaling.Lawful

/-! ## A rescaling -/

/-- Zeros are added, as long as there is room. -/
def Decimal.raise (d : Decimal M S) : ℕ → Decimal M S
  | 0 => d
  | n + 1 =>
    if h : (d.mantissa * 10).natAbs < M ∧ d.scale + 1 ≤ S then
      Decimal.raise ⟨d.mantissa * 10, d.scale + 1, h.1, h.2⟩ n
    else d

theorem Decimal.raise_value (n : ℕ) (d : Decimal M S) : (d.raise n).value = d.value := by
  induction n generalizing d with
  | zero => rfl
  | succ n ih =>
    unfold raise
    split_ifs with h
    · rw [ih]
      unfold Decimal.value
      push_cast
      rw [pow_succ, mul_div_mul_right _ _ (by norm_num)]
    · rfl

theorem Decimal.raise_scale {n : ℕ} {d : Decimal M S} (hS : d.scale + n ≤ S)
    (hM : d.mantissa.natAbs * 10 ^ n < M) : (d.raise n).scale = d.scale + n := by
  induction n generalizing d with
  | zero => rfl
  | succ n ih =>
    have hten : (d.mantissa * 10).natAbs * 10 ^ n < M := by
      rw [Int.natAbs_mul, show (10 : ℤ).natAbs = 10 from rfl, mul_assoc, ← pow_succ']
      exact hM
    have hroom : (d.mantissa * 10).natAbs < M ∧ d.scale + 1 ≤ S :=
      ⟨(Nat.le_mul_of_pos_right _ (by positivity)).trans_lt hten, by omega⟩
    unfold raise
    rw [dif_pos hroom, ih (by dsimp only; omega) hten]
    dsimp only
    omega

/-- The digits beyond the places are dropped. -/
def Decimal.cut (d : Decimal M S) (places : ℕ) (h : places ≤ d.scale) : Decimal M S where
  mantissa := d.mantissa.tdiv (10 ^ (d.scale - places))
  scale := places
  mantissa_lt := (Int.natAbs_tdiv_le_natAbs _ _).trans_lt d.mantissa_lt
  scale_le := h.trans d.scale_le

theorem tdiv_eq_floor (n : ℤ) {d : ℕ} (hd : 0 < d) :
    n.tdiv d = if (0 : ℚ) ≤ n / d then ⌊(n : ℚ) / d⌋ else -⌊-((n : ℚ) / d)⌋ := by
  have hd' : (0 : ℚ) < d := by exact_mod_cast hd
  rcases le_or_gt 0 n with hn | hn
  · have hq : (0 : ℚ) ≤ n / d := div_nonneg (by exact_mod_cast hn) hd'.le
    rw [if_pos hq, Rat.floor_intCast_div_natCast, Int.tdiv_eq_ediv_of_nonneg hn]
  · have hq : ¬ (0 : ℚ) ≤ n / d := not_le.2 (div_neg_of_neg_of_pos (by exact_mod_cast hn) hd')
    rw [if_neg hq, ← neg_div, ← Int.cast_neg, Rat.floor_intCast_div_natCast,
      ← Int.tdiv_eq_ediv_of_nonneg (by omega), Int.neg_tdiv, neg_neg]

theorem Decimal.cut_value (d : Decimal M S) (places : ℕ) (h : places ≤ d.scale) :
    (d.cut places h).value = truncate places d.value := by
  have hpow : (10 : ℚ) ^ d.scale = ((10 ^ (d.scale - places) : ℕ) : ℚ) * 10 ^ places := by
    push_cast
    rw [← pow_add, Nat.sub_add_cancel h]
  have hunits : d.value * 10 ^ places = (d.mantissa : ℚ) / ((10 ^ (d.scale - places) : ℕ) : ℚ) := by
    unfold Decimal.value
    rw [hpow, ← div_div, div_mul_cancel₀ _ (by positivity)]
  have hsign : (0 : ℚ) ≤ d.mantissa / ((10 ^ (d.scale - places) : ℕ) : ℚ) ↔ 0 ≤ d.value := by
    rw [← hunits]
    exact mul_nonneg_iff_of_pos_right (by positivity)
  have htdiv := tdiv_eq_floor d.mantissa (d := 10 ^ (d.scale - places)) (by positivity)
  simp only [hsign] at htdiv
  unfold truncate
  rw [neg_mul, hunits, ← htdiv]
  unfold Decimal.value cut
  push_cast
  rfl

/-- The zeros at the end are dropped. -/
def lower (m : ℤ) : ℕ → ℤ × ℕ
  | 0 => (m, 0)
  | s + 1 => if 10 ∣ m then lower (m / 10) s else (m, s + 1)

theorem lower_spec (s : ℕ) (m : ℤ) : (lower m s).2 ≤ s ∧ (lower m s).1.natAbs ≤ m.natAbs ∧
    ((lower m s).1 : ℚ) / 10 ^ (lower m s).2 = m / 10 ^ s ∧
    (¬ 10 ∣ (lower m s).1 ∨ (lower m s).2 = 0) := by
  induction s generalizing m with
  | zero => exact ⟨le_rfl, le_rfl, rfl, .inr rfl⟩
  | succ s ih =>
    unfold lower
    split_ifs with h
    · obtain ⟨n, rfl⟩ := h
      rw [Int.mul_ediv_cancel_left n (by norm_num)]
      obtain ⟨hscale, habs, hvalue, hlow⟩ := ih n
      refine ⟨hscale.trans s.le_succ, habs.trans ?_, hvalue.trans ?_, hlow⟩
      · rw [Int.natAbs_mul]
        exact Nat.le_mul_of_pos_left _ (by decide)
      · push_cast
        rw [pow_succ', mul_div_mul_left _ _ (by norm_num)]
    · exact ⟨le_rfl, le_rfl, rfl, .inl h⟩

/-- The remainder at the greater of the two scales. -/
def Decimal.remainder (a b : Decimal M S) : ℤ :=
  (a.mantissa * 10 ^ (max a.scale b.scale - a.scale)).tmod
    (b.mantissa * 10 ^ (max a.scale b.scale - b.scale))

theorem Decimal.remainder_lt (a : Decimal M S) {b : Decimal M S} (hb : b.mantissa ≠ 0) :
    (a.remainder b).natAbs < M := by
  unfold remainder
  rw [Int.natAbs_tmod]
  rcases le_total a.scale b.scale with h | h
  · rw [max_eq_right h, Nat.sub_self, pow_zero, mul_one]
    exact (Nat.mod_lt _ (Int.natAbs_pos.2 hb)).trans b.mantissa_lt
  · rw [max_eq_left h, Nat.sub_self, pow_zero, mul_one]
    exact (Nat.mod_le _ _).trans_lt a.mantissa_lt

/-- At a greater scale. -/
theorem Decimal.value_at (d : Decimal M S) {s : ℕ} (h : d.scale ≤ s) :
    d.value = ((d.mantissa * 10 ^ (s - d.scale) : ℤ) : ℚ) / 10 ^ s := by
  unfold Decimal.value
  rw [div_eq_div_iff (by positivity) (by positivity)]
  push_cast
  rw [mul_assoc, ← pow_add, Nat.sub_add_cancel h]

def rescaling : Rescaling M S where
  truncWithScale places d :=
    if h : places ≤ d.scale then d.cut places h else d.raise (places - d.scale)
  normalize d :=
    { mantissa := (lower d.mantissa d.scale).1
      scale := (lower d.mantissa d.scale).2
      mantissa_lt := (lower_spec d.scale d.mantissa).2.1.trans_lt d.mantissa_lt
      scale_le := (lower_spec d.scale d.mantissa).1.trans d.scale_le }
  rem a b :=
    if h : b.mantissa = 0 then a
    else ⟨a.remainder b, max a.scale b.scale, a.remainder_lt h, max_le a.scale_le b.scale_le⟩

theorem rescaling_rem {a b : Decimal M S} (hb : b.value ≠ 0) :
    ∃ k : ℤ, a.value = k * b.value + (rescaling.rem a b).value ∧
      |(rescaling.rem a b).value| < |b.value| ∧ 0 ≤ a.value * (rescaling.rem a b).value := by
  have hmantissa : b.mantissa ≠ 0 := by
    intro h
    exact hb (by simp [Decimal.value, h])
  have hpow : (0 : ℚ) < 10 ^ max a.scale b.scale := by positivity
  have hr : (rescaling.rem a b).value = (a.remainder b : ℚ) / 10 ^ max a.scale b.scale := by
    unfold rescaling
    dsimp only
    rw [dif_neg hmantissa]
    rfl
  rw [hr, a.value_at (le_max_left _ _), b.value_at (le_max_right _ _)]
  unfold Decimal.remainder
  generalize a.mantissa * 10 ^ (max a.scale b.scale - a.scale) = x
  have hy : b.mantissa * 10 ^ (max a.scale b.scale - b.scale) ≠ 0 :=
    mul_ne_zero hmantissa (by positivity)
  generalize b.mantissa * 10 ^ (max a.scale b.scale - b.scale) = y at hy ⊢
  refine ⟨x.tdiv y, ?_, ?_, ?_⟩
  · have hx : (x : ℚ) = y * (x.tdiv y) + (x.tmod y) := by
      exact_mod_cast (Int.mul_tdiv_add_tmod x y).symm
    rw [← mul_div_assoc, ← add_div, mul_comm ((x.tdiv y : ℤ) : ℚ), ← hx]
  · rw [abs_div, abs_div, abs_of_pos hpow, div_lt_div_iff_of_pos_right hpow, ← Int.cast_abs,
      ← Int.cast_abs]
    have hlt : (x.tmod y).natAbs < y.natAbs := by
      rw [Int.natAbs_tmod]
      exact Nat.mod_lt _ (Int.natAbs_pos.2 hy)
    rw [Int.abs_eq_natAbs, Int.abs_eq_natAbs]
    exact_mod_cast hlt
  · rw [div_mul_div_comm]
    refine div_nonneg ?_ (by positivity)
    have hsign : 0 ≤ x * x.tmod y := by
      rcases le_total 0 x with hx | hx
      · exact mul_nonneg hx (Int.tmod_nonneg y hx)
      · refine mul_nonneg_of_nonpos_of_nonpos hx ?_
        have hneg := Int.tmod_nonneg y (Int.neg_nonneg.2 hx)
        rw [Int.neg_tmod] at hneg
        omega
    exact_mod_cast hsign

theorem rescaling_lawful : (rescaling : Rescaling M S).Lawful where
  trunc_value places d := by
    change (if h : places ≤ d.scale then d.cut places h else d.raise (places - d.scale)).value = _
    split_ifs with h
    · exact d.cut_value places h
    · rw [d.raise_value, d.value_at (not_le.1 h).le, truncate_of_units]
  trunc_scale places d hS hroom := by
    change (if h : places ≤ d.scale then d.cut places h else d.raise (places - d.scale)).scale = _
    split_ifs with h
    · rfl
    · have hle := (not_le.1 h).le
      rw [Decimal.raise_scale (by omega) (hroom hle)]
      omega
  normalize_value d := (lower_spec d.scale d.mantissa).2.2.1
  normalize_lowest d := (lower_spec d.scale d.mantissa).2.2.2
  rem_spec a b hb := rescaling_rem hb

end FixedPoint
