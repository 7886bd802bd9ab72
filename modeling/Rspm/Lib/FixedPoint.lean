/-
  Decimals of a bounded mantissa and a bounded number of places.

  A product that is such a decimal is exact, any other is rounded or refused
  (`Lawful`); `halfEven` is such an arithmetic.  A power that is such a decimal
  has only such decimals below it (`Fits.pow_le`).
-/
import Mathlib

namespace FixedPoint

variable {M S : ℕ}

/-- A mantissa below `M` at a scale of at most `S` places. -/
structure Decimal (M S : ℕ) where
  mantissa : ℤ
  scale : ℕ
  mantissa_lt : mantissa.natAbs < M
  scale_le : scale ≤ S
deriving DecidableEq

def Decimal.value (d : Decimal M S) : ℚ := d.mantissa / 10 ^ d.scale

/-- The number is a decimal of the format. -/
def Fits (M S : ℕ) (q : ℚ) : Prop := ∃ d : Decimal M S, d.value = q

/-- The natural numbers below the bound. -/
def Decimal.ofNat (n : ℕ) (h : n < M) : Decimal M S := ⟨n, 0, h, Nat.zero_le S⟩

@[simp] theorem Decimal.value_ofNat {n : ℕ} {h : n < M} :
    (Decimal.ofNat n h : Decimal M S).value = n := by
  simp [Decimal.ofNat, Decimal.value]

/-! ## Powers -/

/-- A decimal without zeros at its end. -/
theorem exists_lowest (n t : ℕ) :
    ∃ a d : ℕ, (n : ℚ) / 10 ^ t = (a : ℚ) / 10 ^ d ∧ (¬ 10 ∣ a ∨ d = 0) := by
  induction t generalizing n with
  | zero => exact ⟨n, 0, rfl, .inr rfl⟩
  | succ t ih =>
    by_cases h : 10 ∣ n
    · obtain ⟨m, rfl⟩ := h
      obtain ⟨a, d, heq, hlow⟩ := ih m
      refine ⟨a, d, ?_, hlow⟩
      rw [← heq, pow_succ]
      push_cast
      field_simp
    · exact ⟨n, t + 1, rfl, .inl h⟩

theorem ten_dvd_of_dvd_pow {a e : ℕ} (h : 10 ∣ a ^ e) : 10 ∣ a := by
  have h2 : 2 ∣ a := Nat.prime_two.dvd_of_dvd_pow ((by decide : 2 ∣ 10).trans h)
  have h5 : 5 ∣ a := Nat.prime_five.dvd_of_dvd_pow ((by decide : 5 ∣ 10).trans h)
  exact Nat.Coprime.mul_dvd_of_dvd_of_dvd (by decide) h2 h5

/-- A power of a decimal without zeros at its end has no zeros at its end. -/
theorem scale_le_of_pow {a d e m s : ℕ} (hlow : ¬ 10 ∣ a ∨ d = 0)
    (h : a ^ e * 10 ^ s = m * 10 ^ (d * e)) : d * e ≤ s ∧ a ^ e ≤ m := by
  have hscale : d * e ≤ s := by
    rcases hlow with hlow | rfl
    · by_contra hlt
      rw [not_le] at hlt
      obtain ⟨k, hk⟩ := Nat.exists_eq_add_of_lt hlt
      rw [hk, show s + k + 1 = (k + 1) + s by omega, pow_add, ← mul_assoc] at h
      have hpow : a ^ e = m * 10 ^ (k + 1) := Nat.eq_of_mul_eq_mul_right (by positivity) h
      exact hlow (ten_dvd_of_dvd_pow (e := e) (hpow ▸ (dvd_pow_self 10 k.succ_ne_zero).mul_left m))
    · simp
  refine ⟨hscale, ?_⟩
  obtain ⟨k, rfl⟩ := Nat.exists_eq_add_of_le hscale
  rw [pow_add, mul_comm (10 ^ (d * e)), ← mul_assoc] at h
  have hm : a ^ e * 10 ^ k = m := Nat.eq_of_mul_eq_mul_right (by positivity) h
  rw [← hm]
  exact Nat.le_mul_of_pos_right _ (by positivity)

/-- If a power of a positive decimal fits, then so do the powers below it. -/
theorem Fits.pow_le {n t e k : ℕ} (hn : 0 < n) (h : Fits M S (((n : ℚ) / 10 ^ t) ^ e))
    (hk : k ≤ e) : Fits M S (((n : ℚ) / 10 ^ t) ^ k) := by
  obtain ⟨a, d, hlowest, hlow⟩ := exists_lowest n t
  have ha : 0 < a := by
    rw [Nat.pos_iff_ne_zero]
    rintro rfl
    have hpos : (0 : ℚ) < n / 10 ^ t := by positivity
    rw [hlowest] at hpos
    simp at hpos
  rw [hlowest] at h ⊢
  obtain ⟨p, hp⟩ := h
  have hpos : 0 < p.mantissa := by
    have hvalue : 0 < p.value := by
      rw [hp]
      positivity
    unfold Decimal.value at hvalue
    exact_mod_cast (div_pos_iff_of_pos_right (by positivity)).1 hvalue
  obtain ⟨m, hm⟩ := Int.eq_ofNat_of_zero_le hpos.le
  have hcross : a ^ e * 10 ^ p.scale = m * 10 ^ (d * e) := by
    unfold Decimal.value at hp
    rw [hm, div_pow, ← pow_mul, div_eq_div_iff (by positivity) (by positivity)] at hp
    exact_mod_cast hp.symm
  obtain ⟨hscale, hmantissa⟩ := scale_le_of_pow hlow hcross
  have hbound : a ^ k < M := by
    calc a ^ k ≤ a ^ e := Nat.pow_le_pow_right ha hk
      _ ≤ m := hmantissa
      _ < M := by
        have := p.mantissa_lt
        rwa [hm] at this
  refine ⟨⟨(a ^ k : ℕ), d * k, hbound, ?_⟩, ?_⟩
  · exact (Nat.mul_le_mul_left d hk).trans (hscale.trans p.scale_le)
  · unfold Decimal.value
    push_cast
    rw [div_pow, ← pow_mul]

/-! ## Rounding -/

/-- Half away from zero, to a number of places. -/
def roundHalfAway (places : ℕ) (q : ℚ) : ℚ :=
  (if 0 ≤ q then ⌊q * 10 ^ places + 1 / 2⌋ else -⌊-q * 10 ^ places + 1 / 2⌋ : ℤ) / 10 ^ places

theorem roundHalfAway_nonneg {places : ℕ} {q : ℚ} (h : 0 ≤ q) : 0 ≤ roundHalfAway places q := by
  unfold roundHalfAway
  rw [if_pos h]
  have : 0 ≤ ⌊q * 10 ^ places + 1 / 2⌋ := Int.floor_nonneg.2 (by positivity)
  positivity

theorem roundHalfAway_mono {places : ℕ} {q q' : ℚ} (h0 : 0 ≤ q) (h : q ≤ q') :
    roundHalfAway places q ≤ roundHalfAway places q' := by
  unfold roundHalfAway
  rw [if_pos h0, if_pos (h0.trans h)]
  have hfloor : ⌊q * 10 ^ places + 1 / 2⌋ ≤ ⌊q' * 10 ^ places + 1 / 2⌋ := by
    gcongr
  have hcast : (⌊q * 10 ^ places + 1 / 2⌋ : ℚ) ≤ ⌊q' * 10 ^ places + 1 / 2⌋ := by
    exact_mod_cast hfloor
  gcongr

/-- `c` is a decimal of `places` places next to `q`. -/
def IsNearest (places : ℕ) (c q : ℚ) : Prop :=
  (∃ m : ℤ, c = m / 10 ^ places) ∧ |c - q| ≤ 1 / (2 * 10 ^ places)

theorem IsNearest.nonneg {places : ℕ} {c q : ℚ} (h : IsNearest places c q) (hq : 0 ≤ q) :
    0 ≤ c := by
  obtain ⟨⟨m, rfl⟩, hdist⟩ := h
  have hpow : (0 : ℚ) < 10 ^ places := by positivity
  have hle := (abs_le.1 hdist).1
  have hm : (-1 : ℚ) < m := by
    have hlower : -(1 / (2 * 10 ^ places)) ≤ (m : ℚ) / 10 ^ places := by linarith
    rw [show -(1 / (2 * (10 : ℚ) ^ places)) = (-1 / 2) / 10 ^ places by field_simp,
      div_le_div_iff_of_pos_right hpow] at hlower
    linarith
  have hnonneg : 0 ≤ m := by
    have : (-1 : ℤ) < m := by exact_mod_cast hm
    omega
  positivity

/-! ## Arithmetic -/

/-- The operations on decimals that are used. -/
structure Arithmetic (M S : ℕ) where
  checkedSub : Decimal M S → Decimal M S → Option (Decimal M S)
  checkedMul : Decimal M S → Decimal M S → Option (Decimal M S)
  /-- to a number of places, half away from zero -/
  roundDp : ℕ → Decimal M S → Decimal M S

/-- What fits is exact.  A product that does not is rounded to some number of places, or refused
    if it is beyond the greatest decimal. -/
structure Arithmetic.Lawful (arith : Arithmetic M S) : Prop where
  sub_exact : ∀ a b, Fits M S (a.value - b.value) →
    ∃ c, arith.checkedSub a b = some c ∧ c.value = a.value - b.value
  mul_exact : ∀ a b, Fits M S (a.value * b.value) →
    ∃ c, arith.checkedMul a b = some c ∧ c.value = a.value * b.value
  mul_nearest : ∀ a b c, arith.checkedMul a b = some c →
    ∃ places ≤ S, IsNearest places c.value (a.value * b.value)
  mul_overflow : ∀ a b, arith.checkedMul a b = none → (M : ℚ) - 1 / 2 ≤ |a.value * b.value|
  round : ∀ places d, (arith.roundDp places d).value = roundHalfAway places d.value

theorem Arithmetic.Lawful.mul_nonneg {arith : Arithmetic M S} (h : arith.Lawful)
    {a b c : Decimal M S} (hc : arith.checkedMul a b = some c) (ha : 0 ≤ a.value)
    (hb : 0 ≤ b.value) : 0 ≤ c.value := by
  obtain ⟨places, -, hnearest⟩ := h.mul_nearest a b c hc
  exact hnearest.nonneg (Rat.mul_nonneg ha hb)

theorem Decimal.abs_value_le (d : Decimal M S) : |d.value| ≤ (M : ℚ) - 1 := by
  have hlt : (d.mantissa.natAbs : ℚ) + 1 ≤ M := by exact_mod_cast d.mantissa_lt
  have hpow : (1 : ℚ) ≤ 10 ^ d.scale := one_le_pow₀ (by norm_num)
  unfold Decimal.value
  rw [abs_div, abs_of_pos (by positivity : (0 : ℚ) < 10 ^ d.scale), ← Int.cast_abs,
    Int.abs_eq_natAbs, Int.cast_natCast]
  have hdiv : (d.mantissa.natAbs : ℚ) / 10 ^ d.scale ≤ d.mantissa.natAbs :=
    div_le_self (by positivity) hpow
  linarith

/-- A product beyond the greatest decimal is refused. -/
theorem Arithmetic.Lawful.mul_refused {arith : Arithmetic M S} (h : arith.Lawful)
    {a b : Decimal M S} (hlarge : (M : ℚ) - 1 / 2 < |a.value * b.value|) :
    arith.checkedMul a b = none := by
  by_contra hsome
  obtain ⟨c, hc⟩ := Option.ne_none_iff_exists'.1 hsome
  obtain ⟨places, -, -, hdist⟩ := h.mul_nearest a b c hc
  have hpow : (1 : ℚ) ≤ 10 ^ places := one_le_pow₀ (by norm_num)
  have hhalf : (1 : ℚ) / (2 * 10 ^ places) ≤ 1 / 2 := by
    rw [← div_div]
    exact div_le_self (by norm_num) hpow
  have hle := c.abs_value_le
  have htri := abs_sub_abs_le_abs_sub (a.value * b.value) c.value
  rw [abs_sub_comm] at htri
  linarith

/-! ## Half to even -/

/-- The quotient, half to even. -/
def halfEven (n : ℤ) (d : ℕ) : ℤ :=
  let q := n / d
  let r := n % d
  if 2 * r < d then q
  else if (d : ℤ) < 2 * r then q + 1
  else if q % 2 = 0 then q
  else q + 1

theorem halfEven_near (n : ℤ) {d : ℕ} (hd : 0 < d) : |(halfEven n d : ℚ) - n / d| ≤ 1 / 2 := by
  have hd' : (0 : ℚ) < d := by exact_mod_cast hd
  have hn : (n : ℚ) = d * (n / d : ℤ) + (n % d : ℤ) := by
    exact_mod_cast (Int.mul_ediv_add_emod n d).symm
  have hsplit : (n : ℚ) / d = (n / d : ℤ) + (n % d : ℤ) / d := by
    rw [hn, add_div, mul_div_cancel_left₀ _ hd'.ne']
  have hr : (0 : ℚ) ≤ (n % d : ℤ) / d := by
    have : 0 ≤ n % (d : ℤ) := Int.emod_nonneg _ (by exact_mod_cast hd.ne')
    positivity
  have hlt : ((n % d : ℤ) : ℚ) / d < 1 := by
    rw [div_lt_one hd']
    exact_mod_cast Int.emod_lt_of_pos n (by exact_mod_cast hd)
  have hlow : 2 * (n % (d : ℤ)) ≤ d → ((n % d : ℤ) : ℚ) / d ≤ 1 / 2 := by
    intro h
    rw [div_le_iff₀ hd']
    have : (2 : ℚ) * (n % d : ℤ) ≤ d := by exact_mod_cast h
    linarith
  have hhigh : (d : ℤ) ≤ 2 * (n % (d : ℤ)) → (1 : ℚ) / 2 ≤ ((n % d : ℤ) : ℚ) / d := by
    intro h
    rw [le_div_iff₀ hd']
    have : (d : ℚ) ≤ 2 * (n % d : ℤ) := by exact_mod_cast h
    linarith
  rw [hsplit, abs_le]
  unfold halfEven
  dsimp only
  split_ifs with h1 h2 h3
  · have := hlow h1.le
    constructor <;> linarith
  · have := hhigh h2.le
    push_cast
    constructor <;> linarith
  · have := hlow (not_lt.1 h2)
    constructor <;> linarith
  · have := hhigh (not_lt.1 h1)
    push_cast
    constructor <;> linarith

theorem halfEven_of_dvd {m : ℤ} {d : ℕ} (hd : 0 < d) : halfEven (m * d) d = m := by
  unfold halfEven
  have hd' : (d : ℤ) ≠ 0 := by exact_mod_cast hd.ne'
  simp [Int.mul_ediv_cancel _ hd']
  omega

/-- The decimal next to `n / 10 ^ s` at the greatest scale up to `t` where it is one. -/
def fit (n : ℤ) (s : ℕ) : ℕ → Option (Decimal M S)
  | 0 =>
    if h : (halfEven n (10 ^ s)).natAbs < M then
      some ⟨halfEven n (10 ^ s), 0, h, Nat.zero_le S⟩
    else none
  | t + 1 =>
    if h : (halfEven n (10 ^ (s - (t + 1)))).natAbs < M ∧ t + 1 ≤ S then
      some ⟨halfEven n (10 ^ (s - (t + 1))), t + 1, h.1, h.2⟩
    else fit n s t

/-- The decimal next to `n / 10 ^ s`. -/
def reduce (n : ℤ) (s : ℕ) : Option (Decimal M S) := fit n s (min S s)

theorem fit_eq_some {n : ℤ} {s t : ℕ} {c : Decimal M S} (ht : t ≤ s)
    (h : fit n s t = some c) : c.scale ≤ t ∧ c.mantissa = halfEven n (10 ^ (s - c.scale)) := by
  induction t with
  | zero =>
    unfold fit at h
    split_ifs at h
    obtain rfl := Option.some.inj h
    exact ⟨le_rfl, rfl⟩
  | succ t ih =>
    unfold fit at h
    split_ifs at h
    · obtain rfl := Option.some.inj h
      exact ⟨le_rfl, rfl⟩
    · obtain ⟨hle, hmantissa⟩ := ih (by omega) h
      exact ⟨by omega, hmantissa⟩

/-- What is found is nearest. -/
theorem reduce_nearest {n : ℤ} {s : ℕ} {c : Decimal M S} (h : reduce n s = some c) :
    ∃ places ≤ S, IsNearest places c.value (n / 10 ^ s) := by
  obtain ⟨hle, hmantissa⟩ := fit_eq_some (min_le_right S s) h
  have hs : c.scale ≤ s := hle.trans (min_le_right S s)
  refine ⟨c.scale, c.scale_le, ⟨c.mantissa, rfl⟩, ?_⟩
  have hnear := halfEven_near n (d := 10 ^ (s - c.scale)) (by positivity)
  rw [← hmantissa] at hnear
  have hpow : (10 : ℚ) ^ s = 10 ^ c.scale * 10 ^ (s - c.scale) := by
    rw [← pow_add, Nat.add_sub_cancel' hs]
  have hdiff : c.value - n / 10 ^ s =
      ((c.mantissa : ℚ) - n / ((10 ^ (s - c.scale) : ℕ) : ℚ)) / 10 ^ c.scale := by
    unfold Decimal.value
    rw [hpow]
    push_cast
    field_simp
  rw [hdiff, abs_div, abs_of_pos (by positivity : (0 : ℚ) < 10 ^ c.scale),
    show (1 : ℚ) / (2 * 10 ^ c.scale) = 1 / 2 / 10 ^ c.scale by rw [div_div]]
  exact div_le_div_of_nonneg_right hnear (by positivity)

/-- Nothing is found only beyond the greatest decimal. -/
theorem reduce_eq_none {n : ℤ} {s : ℕ} (h : (reduce n s : Option (Decimal M S)) = none) :
    (M : ℚ) - 1 / 2 ≤ |(n : ℚ) / 10 ^ s| := by
  have hzero : M ≤ (halfEven n (10 ^ s)).natAbs := by
    unfold reduce at h
    generalize min S s = t at h
    induction t with
    | zero =>
      unfold fit at h
      split_ifs at h with hfits
      exact not_lt.1 hfits
    | succ t ih =>
      unfold fit at h
      split_ifs at h
      exact ih h
  have hnear := halfEven_near n (d := 10 ^ s) (by positivity)
  have hcast : (M : ℚ) ≤ |(halfEven n (10 ^ s) : ℚ)| := by
    rw [← Int.cast_abs, Int.abs_eq_natAbs]
    exact_mod_cast hzero
  push_cast at hnear
  have htri := abs_sub_abs_le_abs_sub (halfEven n (10 ^ s) : ℚ) ((n : ℚ) / 10 ^ s)
  linarith

/-- From a scale where the number is exact, the search down to it is exact. -/
theorem fit_exact {n : ℤ} {s t : ℕ} (m : ℤ) (t₀ : ℕ) (ht₀ : t₀ ≤ t) (ht : t ≤ s) (htS : t ≤ S)
    (hm : m.natAbs < M) (hn : n = m * 10 ^ (s - t₀)) :
    ∃ c : Decimal M S, fit n s t = some c ∧ c.value = n / 10 ^ s := by
  -- at any scale from `t₀` on, the quotient has no remainder
  have hexact : ∀ t', t₀ ≤ t' → t' ≤ s →
      halfEven n (10 ^ (s - t')) = m * 10 ^ (t' - t₀) := by
    intro t' hle hle'
    have hsplit : n = m * 10 ^ (t' - t₀) * ((10 ^ (s - t') : ℕ) : ℤ) := by
      rw [hn]
      push_cast
      rw [mul_assoc, ← pow_add]
      congr 2
      omega
    rw [hsplit]
    exact halfEven_of_dvd (by positivity)
  have hvalue : ∀ c : Decimal M S, t₀ ≤ c.scale → c.scale ≤ s →
      c.mantissa = halfEven n (10 ^ (s - c.scale)) → c.value = n / 10 ^ s := by
    intro c hle hle' hmantissa
    unfold Decimal.value
    rw [hmantissa, hexact c.scale hle hle', hn, div_eq_div_iff (by positivity) (by positivity)]
    push_cast
    rw [mul_assoc, mul_assoc, ← pow_add, ← pow_add]
    congr 2
    omega
  induction t with
  | zero =>
    obtain rfl : t₀ = 0 := by omega
    have hzero := hexact 0 le_rfl (Nat.zero_le s)
    unfold fit
    rw [dif_pos]
    · exact ⟨_, rfl, hvalue _ le_rfl (Nat.zero_le s) rfl⟩
    · rw [Nat.sub_zero] at hzero
      simpa [hzero] using hm
  | succ t ih =>
    unfold fit
    split_ifs with hfits
    · exact ⟨_, rfl, hvalue _ ht₀ ht rfl⟩
    · refine ih ?_ (by omega) (by omega)
      by_contra hlt
      obtain rfl : t₀ = t + 1 := by omega
      refine hfits ⟨?_, htS⟩
      rw [hexact (t + 1) le_rfl ht]
      simpa using hm

theorem reduce_exact {n : ℤ} {s : ℕ} (h : Fits M S ((n : ℚ) / 10 ^ s)) :
    ∃ c : Decimal M S, reduce n s = some c ∧ c.value = n / 10 ^ s := by
  obtain ⟨d, hd⟩ := h
  unfold Decimal.value at hd
  rw [div_eq_div_iff (by positivity) (by positivity)] at hd
  have hcross : d.mantissa * 10 ^ s = n * 10 ^ d.scale := by exact_mod_cast hd
  rcases le_total d.scale s with hle | hle
  · refine fit_exact d.mantissa d.scale (le_min d.scale_le hle)
      (min_le_right S s) (min_le_left S s) d.mantissa_lt ?_
    have hpow : (10 : ℤ) ^ s = 10 ^ (s - d.scale) * 10 ^ d.scale := by
      rw [← pow_add, Nat.sub_add_cancel hle]
    rw [hpow, ← mul_assoc] at hcross
    exact (mul_right_cancel₀ (by positivity) hcross).symm
  · have hpow : (10 : ℤ) ^ d.scale = 10 ^ (d.scale - s) * 10 ^ s := by
      rw [← pow_add, Nat.sub_add_cancel hle]
    rw [hpow, ← mul_assoc] at hcross
    have hd : d.mantissa = n * 10 ^ (d.scale - s) := mul_right_cancel₀ (by positivity) hcross
    refine fit_exact n s (le_min (hle.trans d.scale_le) le_rfl)
      (min_le_right S s) (min_le_left S s) ?_ (by simp)
    calc n.natAbs ≤ d.mantissa.natAbs := by
          rw [hd, Int.natAbs_mul]
          exact Nat.le_mul_of_pos_right _ (by simp)
      _ < M := d.mantissa_lt

/-- The quotient, half away from zero. -/
def halfAway (n : ℤ) (d : ℕ) : ℤ := n.sign * ((2 * n.natAbs + d) / (2 * d) : ℕ)

theorem halfAway_natAbs_le (n : ℤ) {d : ℕ} (hd : 1 < d) : (halfAway n d).natAbs ≤ n.natAbs := by
  unfold halfAway
  rw [Int.natAbs_mul, Int.natAbs_natCast]
  rcases eq_or_ne n 0 with rfl | hn
  · simp
  · rw [Int.natAbs_sign_of_ne_zero hn, one_mul]
    have hpos : 0 < n.natAbs := Int.natAbs_pos.2 hn
    apply Nat.le_of_lt_succ
    rw [Nat.div_lt_iff_lt_mul (by omega)]
    nlinarith

theorem floor_half (n d : ℕ) (hd : 0 < d) :
    ⌊(n : ℚ) / d + 1 / 2⌋ = ((2 * n + d) / (2 * d) : ℕ) := by
  have hd' : (0 : ℚ) < d := by exact_mod_cast hd
  have hsum : (n : ℚ) / d + 1 / 2 = ((2 * n + d : ℕ) : ℚ) / ((2 * d : ℕ) : ℚ) := by
    push_cast
    field_simp
  rw [hsum, ← Int.natCast_floor_eq_floor (by positivity), Nat.floor_div_eq_div]

theorem roundHalfAway_div (n : ℤ) {places s : ℕ} (h : places ≤ s) :
    roundHalfAway places ((n : ℚ) / 10 ^ s) = halfAway n (10 ^ (s - places)) / 10 ^ places := by
  have hpow : (10 : ℚ) ^ s = 10 ^ (s - places) * 10 ^ places := by
    rw [← pow_add, Nat.sub_add_cancel h]
  have hscale : ∀ x : ℚ, x / 10 ^ s * 10 ^ places = x / ((10 ^ (s - places) : ℕ) : ℚ) := by
    intro x
    rw [hpow]
    push_cast
    field_simp
  have hd : 0 < 10 ^ (s - places) := by positivity
  unfold roundHalfAway halfAway
  congr 2
  rcases lt_trichotomy n 0 with hn | rfl | hn
  · have hneg : ¬ (0 : ℚ) ≤ n / 10 ^ s := by
      rw [not_le]
      exact div_neg_of_neg_of_pos (by exact_mod_cast hn) (by positivity)
    have hcast : (-(n : ℚ)) = (n.natAbs : ℚ) := by
      rw [Nat.cast_natAbs, abs_of_neg hn, Int.cast_neg]
    rw [if_neg hneg, ← neg_div, hscale, hcast, floor_half _ _ hd, Int.sign_eq_neg_one_of_neg hn]
    ring
  · norm_num
  · have hpos : (0 : ℚ) ≤ n / 10 ^ s := by positivity
    have hcast : (n : ℚ) = (n.natAbs : ℚ) := by
      rw [Nat.cast_natAbs, abs_of_pos hn]
    rw [if_pos hpos, hscale, hcast, floor_half _ _ hd, Int.sign_eq_one_of_pos hn]
    simp

/-- A decimal of few places is not rounded. -/
theorem roundHalfAway_of_le (n : ℤ) {places s : ℕ} (h : s ≤ places) :
    roundHalfAway places ((n : ℚ) / 10 ^ s) = n / 10 ^ s := by
  have hn : (n : ℚ) / 10 ^ s = ((n * 10 ^ (places - s) : ℤ) : ℚ) / 10 ^ places := by
    rw [div_eq_div_iff (by positivity) (by positivity)]
    push_cast
    rw [mul_assoc, ← pow_add, Nat.sub_add_cancel h]
  rw [hn, roundHalfAway_div _ le_rfl]
  congr 2
  unfold halfAway
  rw [Nat.sub_self]
  have hdiv : (2 * (n * 10 ^ (places - s)).natAbs + 10 ^ 0) / (2 * 10 ^ 0) =
      (n * 10 ^ (places - s)).natAbs := by omega
  rw [hdiv]
  exact Int.sign_mul_natAbs _

/-- `round_dp` half away from zero. -/
def roundDp (places : ℕ) (d : Decimal M S) : Decimal M S :=
  if h : d.scale ≤ places then d
  else {
    mantissa := halfAway d.mantissa (10 ^ (d.scale - places))
    scale := places
    mantissa_lt :=
      (halfAway_natAbs_le d.mantissa (Nat.one_lt_pow (by omega) (by decide))).trans_lt d.mantissa_lt
    scale_le := (not_le.1 h).le.trans d.scale_le }

/-- The arithmetic that rounds half to even. -/
def halfEvenArithmetic : Arithmetic M S where
  checkedSub a b :=
    reduce (a.mantissa * 10 ^ b.scale - b.mantissa * 10 ^ a.scale) (a.scale + b.scale)
  checkedMul a b := reduce (a.mantissa * b.mantissa) (a.scale + b.scale)
  roundDp := roundDp

theorem halfEvenArithmetic_lawful : (halfEvenArithmetic : Arithmetic M S).Lawful := by
  have hsub : ∀ a b : Decimal M S, a.value - b.value =
      ((a.mantissa * 10 ^ b.scale - b.mantissa * 10 ^ a.scale : ℤ) : ℚ) /
        10 ^ (a.scale + b.scale) := by
    intro a b
    unfold Decimal.value
    push_cast
    rw [pow_add, div_sub_div _ _ (by positivity) (by positivity)]
    ring
  have hmul : ∀ a b : Decimal M S, a.value * b.value =
      ((a.mantissa * b.mantissa : ℤ) : ℚ) / 10 ^ (a.scale + b.scale) := by
    intro a b
    unfold Decimal.value
    push_cast
    rw [pow_add, div_mul_div_comm]
  constructor
  case sub_exact =>
    intro a b h
    rw [hsub] at h ⊢
    exact reduce_exact h
  case mul_exact =>
    intro a b h
    rw [hmul] at h ⊢
    exact reduce_exact h
  case mul_nearest =>
    intro a b c h
    rw [hmul]
    exact reduce_nearest h
  case mul_overflow =>
    intro a b h
    rw [hmul]
    exact reduce_eq_none h
  case round =>
    intro places d
    change (roundDp places d).value = _
    unfold roundDp
    split_ifs with h
    · exact (roundHalfAway_of_le d.mantissa h).symm
    · exact (roundHalfAway_div d.mantissa (not_le.1 h).le).symm

end FixedPoint
