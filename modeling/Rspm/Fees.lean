/-
  Platform fees: a rate times a power of the curve `p (1 - p)`.

  `fee_nonneg_iff`: a calculator has a rate and fees that are not negative,
  unless it was deserialized from a negative rate.  `checked_pow_exact`: over exact
  products within a bound, the power is found if it is within the bound, and is
  exact if it is found.  `taker_fee_exact`: where no
  product on the way is rounded, a fee is the rounded power-curve fee, or refused
  as too large.
-/
import Rspm.Lib.Bounded
import Rspm.Lib.FixedPoint
import Rspm.Lib.Serde

namespace Rspm

open FixedPoint Serde

namespace Fees

/-- `rust_decimal::Decimal`. -/
abbrev Decimal := FixedPoint.Decimal (2 ^ 96) 28

abbrev Arithmetic := FixedPoint.Arithmetic (2 ^ 96) 28

abbrev Fits := FixedPoint.Fits (2 ^ 96) 28

def zero : Decimal := .ofNat 0 (by decide)
def one : Decimal := .ofNat 1 (by decide)

def polymarketFeePrecision : ℕ := 5

inductive PowerFeeError where
  | nonPositiveShares | priceOutOfBounds | negativeRate | arithmeticOverflow | floatConversion
deriving DecidableEq

structure FeeCalculator where
  feeRate : Decimal
  feeExponent : UInt32

def FeeCalculator.fromMarketMetadata (rate : Decimal) (exponent : UInt32) :
    Except PowerFeeError FeeCalculator :=
  if rate.value < 0 then .error .negativeRate
  else .ok { feeRate := rate, feeExponent := exponent }

/-- The rate is `0.07`. -/
def FeeCalculator.crypto : FeeCalculator where
  feeRate := ⟨7, 2, by decide, by decide⟩
  feeExponent := 1

/-- The loop of `checked_pow`. -/
def checkedPowLoop {α : Type} (checkedMul : α → α → Option α) (product base : α) (exponent : ℕ) :
    Option α :=
  if exponent > 0 then
    (if exponent % 2 = 1 then checkedMul product base else some product).bind fun product =>
      (if exponent / 2 > 0 then checkedMul base base else some base).bind fun base =>
        checkedPowLoop checkedMul product base (exponent / 2)
  else some product
termination_by exponent

def checkedPow {α : Type} (checkedMul : α → α → Option α) (one base : α) (exponent : ℕ) :
    Option α :=
  checkedPowLoop checkedMul one base exponent

/-- The fee before it is rounded. -/
def FeeCalculator.unrounded (arith : Arithmetic) (calculator : FeeCalculator)
    (shares price : Decimal) : Option Decimal := do
  let complement ← arith.checkedSub one price
  let base ← arith.checkedMul price complement
  let curve ← checkedPow arith.checkedMul one base calculator.feeExponent.toNat
  let amount ← arith.checkedMul shares calculator.feeRate
  arith.checkedMul amount curve

def FeeCalculator.takerFee (arith : Arithmetic) (calculator : FeeCalculator)
    (shares price : Decimal) : Except PowerFeeError Decimal :=
  if shares.value ≤ 0 then .error .nonPositiveShares
  else if ¬ (0 ≤ price.value ∧ price.value ≤ 1) then .error .priceOutOfBounds
  else if calculator.feeRate.value = 0 ∨
      calculator.feeExponent > 0 ∧ (price.value = 0 ∨ price.value = 1) then .ok zero
  else
    match calculator.unrounded arith shares price with
    | some fee => .ok (arith.roundDp polymarketFeePrecision fee)
    | none => .error .arithmeticOverflow

/-- What reads the fields of a calculator: the `Deserialize` of `Decimal` and of `u32`. -/
structure Readers where
  decimal : Json → Option Decimal
  u32 : Json → Option UInt32

/-- The derived `Deserialize`. -/
def FeeCalculator.deserialize (readers : Readers) (input : Json) : Option FeeCalculator := do
  match ← input.record false ["fee_rate", "fee_exponent"] with
  | [rate, exponent] =>
    let feeRate ← readers.decimal rate
    let feeExponent ← readers.u32 exponent
    return { feeRate, feeExponent }
  | _ => none

/-! ## Powers -/

section Powers

variable {α : Type} {checkedMul : α → α → Option α}

/-- An exponent is twice its half and its last bit. -/
theorem mul_eq_bit_add (m exponent : ℕ) :
    m * exponent = m * (exponent % 2) + (m + m) * (exponent / 2) := by
  conv_lhs => rw [← Nat.mod_add_div exponent 2]
  ring

/-- What is found is a power.  `P k` are the powers at `k`. -/
theorem checkedPowLoop_sound {P : ℕ → α → Prop}
    (hmul : ∀ i j a b c, checkedMul a b = some c → P i a → P j b → P (i + j) c) (exponent : ℕ) :
    ∀ {k m : ℕ} {product base c : α}, P k product → P m base →
      checkedPowLoop checkedMul product base exponent = some c → P (k + m * exponent) c := by
  induction exponent using Nat.strong_induction_on with
  | _ exponent ih =>
    intro k m product base c hproduct hbase h
    rw [checkedPowLoop] at h
    by_cases hpos : exponent > 0
    · rw [if_pos hpos] at h
      simp only [Option.bind_eq_some_iff] at h
      obtain ⟨product', hproduct', base', hbase', h⟩ := h
      have hP : P (k + m * (exponent % 2)) product' := by
        by_cases hodd : exponent % 2 = 1
        · rw [if_pos hodd] at hproduct'
          rw [hodd, mul_one]
          exact hmul _ _ _ _ _ hproduct' hproduct hbase
        · rw [if_neg hodd] at hproduct'
          obtain rfl := Option.some.inj hproduct'
          rwa [show exponent % 2 = 0 by omega]
      rw [mul_eq_bit_add, ← add_assoc]
      by_cases hmore : exponent / 2 > 0
      · rw [if_pos hmore] at hbase'
        exact ih (exponent / 2) (by omega) hP (hmul _ _ _ _ _ hbase' hbase hbase) h
      · have hlast : exponent / 2 = 0 := by omega
        rw [hlast, checkedPowLoop, if_neg (lt_irrefl 0)] at h
        obtain rfl := Option.some.inj h
        rwa [hlast]
    · obtain rfl : exponent = 0 := by omega
      rw [if_neg hpos] at h
      obtain rfl := Option.some.inj h
      exact hproduct

/-- Where products of powers up to `e` are found, the power is. -/
theorem checkedPowLoop_finds {P : ℕ → α → Prop} {e : ℕ}
    (hmul : ∀ i j a b, i + j ≤ e → P i a → P j b → ∃ c, checkedMul a b = some c ∧ P (i + j) c)
    (exponent : ℕ) :
    ∀ {k m : ℕ} {product base : α}, k + m * exponent ≤ e → P k product → P m base →
      ∃ c, checkedPowLoop checkedMul product base exponent = some c ∧ P (k + m * exponent) c := by
  induction exponent using Nat.strong_induction_on with
  | _ exponent ih =>
    intro k m product base hle hproduct hbase
    rw [checkedPowLoop]
    by_cases hpos : exponent > 0
    · rw [if_pos hpos]
      have hsplit := mul_eq_bit_add m exponent
      obtain ⟨product', hproduct', hP⟩ : ∃ product',
          (if exponent % 2 = 1 then checkedMul product base else some product) = some product' ∧
            P (k + m * (exponent % 2)) product' := by
        by_cases hodd : exponent % 2 = 1
        · rw [if_pos hodd, hodd, mul_one]
          refine hmul k m product base ?_ hproduct hbase
          rw [hodd, mul_one] at hsplit
          omega
        · rw [if_neg hodd, show exponent % 2 = 0 by omega]
          exact ⟨product, rfl, hproduct⟩
      rw [hproduct', Option.bind_some]
      by_cases hmore : exponent / 2 > 0
      · have hdouble : m + m ≤ (m + m) * (exponent / 2) := Nat.le_mul_of_pos_right _ hmore
        obtain ⟨base', hbase', hP'⟩ := hmul m m base base (by omega) hbase hbase
        rw [if_pos hmore, hbase', Option.bind_some, hsplit, ← add_assoc]
        exact ih (exponent / 2) (by omega) (by omega) hP hP'
      · rw [if_neg hmore, Option.bind_some, hsplit, ← add_assoc, show exponent / 2 = 0 by omega,
          Nat.mul_zero, Nat.add_zero, checkedPowLoop, if_neg (lt_irrefl 0)]
        exact ⟨product', rfl, hP⟩
    · obtain rfl : exponent = 0 := by omega
      rw [if_neg hpos]
      exact ⟨product, rfl, by simpa using hproduct⟩

end Powers

section Bounds

open Bounded

variable {R : Type} [Semiring R] [PartialOrder R] {bound : Bound R} [DecidablePred bound.Within]

/-- Over exact products within a bound: for a base of at least one the power is found if and only
    if it is within the bound; and what is found is the power, whatever the base. -/
theorem checked_pow_exact [IsOrderedRing R] (base : Value bound) (exponent : ℕ) :
    (1 ≤ base.val → ((∃ h : bound.Within (base.val ^ exponent),
      checkedPow (Bounded.checkedMul bound) ⟨1, bound.one⟩ base exponent =
        some ⟨base.val ^ exponent, h⟩) ↔ bound.Within (base.val ^ exponent))) ∧
    ∀ power, checkedPow (Bounded.checkedMul bound) ⟨1, bound.one⟩ base exponent = some power →
      power.val = base.val ^ exponent := by
  have hone : (⟨1, bound.one⟩ : Value bound).val = base.val ^ 0 := (pow_zero _).symm
  have hfirst : base.val = base.val ^ 1 := (pow_one _).symm
  have hvalue : ∀ power,
      checkedPow (Bounded.checkedMul bound) ⟨1, bound.one⟩ base exponent = some power →
        power.val = base.val ^ exponent := by
    intro power h
    have hpower : power.val = base.val ^ (0 + 1 * exponent) := by
      refine checkedPowLoop_sound (P := fun k (a : Value bound) => a.val = base.val ^ k)
        (fun i j a b c hc ha hb => ?_) exponent hone hfirst h
      rw [checkedMul_eq_some hc, ha, hb, pow_add]
    rwa [Nat.zero_add, Nat.one_mul] at hpower
  refine ⟨?_, hvalue⟩
  intro hbase
  refine ⟨fun h => h.1, fun hwithin => ⟨hwithin, ?_⟩⟩
  -- every product on the way is a power up to the one that is asked for
  have hmul : ∀ i j (a b : Value bound), i + j ≤ exponent → a.val = base.val ^ i →
      b.val = base.val ^ j →
      ∃ c, Bounded.checkedMul bound a b = some c ∧ c.val = base.val ^ (i + j) := by
    intro i j a b hle ha hb
    have hprod : a.val * b.val = base.val ^ (i + j) := by rw [ha, hb, pow_add]
    exact ⟨_, checkedMul_of_within (hprod ▸ bound.pow_le hbase hle hwithin), hprod⟩
  obtain ⟨power, hpower, -⟩ := checkedPowLoop_finds
    (P := fun k (a : Value bound) => a.val = base.val ^ k) hmul exponent (k := 0) (m := 1)
    (by omega) hone hfirst
  have hsome : checkedPow (Bounded.checkedMul bound) ⟨1, bound.one⟩ base exponent = some power :=
    hpower
  rw [hsome, Option.some.injEq]
  exact Subtype.ext (hvalue power hsome)

/-- The numbers up to 100. -/
def hundredBound : Bound ℕ where
  Within a := a ≤ 100
  one := by decide
  lower _ h hb := h.trans hb

instance : DecidablePred hundredBound.Within := fun a => inferInstanceAs (Decidable (a ≤ 100))

theorem checked_pow_exact_three : ∃ h,
    checkedPow (Bounded.checkedMul hundredBound) ⟨1, hundredBound.one⟩ ⟨3, by decide⟩ 4 =
      some ⟨3 ^ 4, h⟩ :=
  ((@checked_pow_exact ℕ _ _ hundredBound _ _ ⟨3, by decide⟩ 4).1 (by decide)).2 (by decide)

end Bounds

/-! ## The sign of a fee -/

section Sign

variable {arith : Arithmetic} {calculator : FeeCalculator} {shares price fee : Decimal}

/-- A fee that is not zero at once is positive in its shares, and rounds what was computed. -/
theorem takerFee_cases (h : calculator.takerFee arith shares price = .ok fee) :
    0 < shares.value ∧ (0 ≤ price.value ∧ price.value ≤ 1) ∧
      (fee = zero ∨ ∃ unrounded, calculator.unrounded arith shares price = some unrounded ∧
        fee = arith.roundDp polymarketFeePrecision unrounded) := by
  unfold FeeCalculator.takerFee at h
  split_ifs at h with hshares hprice hzero
  · obtain rfl := Except.ok.inj h
    exact ⟨not_le.1 hshares, hprice, .inl rfl⟩
  · refine ⟨not_le.1 hshares, hprice, .inr ?_⟩
    cases hu : calculator.unrounded arith shares price with
    | none =>
      rw [hu] at h
      cases h
    | some unrounded =>
      rw [hu] at h
      exact ⟨unrounded, rfl, (Except.ok.inj h).symm⟩

theorem unrounded_eq_some (h : calculator.unrounded arith shares price = some fee) :
    ∃ complement base curve amount, arith.checkedSub one price = some complement ∧
      arith.checkedMul price complement = some base ∧
      checkedPow arith.checkedMul one base calculator.feeExponent.toNat = some curve ∧
      arith.checkedMul shares calculator.feeRate = some amount ∧
      arith.checkedMul amount curve = some fee := by
  unfold FeeCalculator.unrounded at h
  simp only [Option.bind_eq_bind, Option.bind_eq_some_iff] at h
  obtain ⟨complement, hcomplement, base, hbase, curve, hcurve, amount, hamount, hfee⟩ := h
  exact ⟨complement, base, curve, amount, hcomplement, hbase, hcurve, hamount, hfee⟩

@[simp] theorem value_zero : zero.value = 0 := by simp [zero]

@[simp] theorem value_one : one.value = 1 := by simp [one]

/-- The complement of a price is exact. -/
theorem complement_value (hlawful : arith.Lawful) (h0 : 0 ≤ price.value) (h1 : price.value ≤ 1) :
    ∃ complement, arith.checkedSub one price = some complement ∧
      complement.value = 1 - price.value := by
  have hpow : (0 : ℚ) < 10 ^ price.scale := by positivity
  unfold FixedPoint.Decimal.value at h0 h1
  have hm0 : 0 ≤ price.mantissa := by
    have := (le_div_iff₀ hpow).1 h0
    rw [zero_mul] at this
    exact_mod_cast this
  have hm1 : price.mantissa ≤ 10 ^ price.scale := by
    rw [div_le_one hpow] at h1
    exact_mod_cast h1
  have hbound : (10 : ℤ) ^ price.scale ≤ 10 ^ 28 :=
    pow_le_pow_right₀ (by decide) price.scale_le
  have hfits : Fits (one.value - price.value) := by
    refine ⟨⟨10 ^ price.scale - price.mantissa, price.scale, by omega, price.scale_le⟩, ?_⟩
    rw [value_one]
    unfold FixedPoint.Decimal.value
    push_cast
    rw [sub_div, div_self hpow.ne']
  obtain ⟨complement, hsome, hvalue⟩ := hlawful.sub_exact one price hfits
  rw [value_one] at hvalue
  exact ⟨complement, hsome, hvalue⟩

/-- The fees of a calculator whose rate is not negative are not negative. -/
theorem takerFee_nonneg (hlawful : arith.Lawful) (hrate : 0 ≤ calculator.feeRate.value)
    (h : calculator.takerFee arith shares price = .ok fee) : 0 ≤ fee.value := by
  obtain ⟨hshares, ⟨h0, h1⟩, rfl | ⟨unrounded, hunrounded, rfl⟩⟩ := takerFee_cases h
  · simp
  · obtain ⟨complement, base, curve, amount, hcomplement, hbase, hcurve, hamount, hfee⟩ :=
      unrounded_eq_some hunrounded
    obtain ⟨complement', hcomplement', hvalue⟩ := complement_value hlawful h0 h1
    obtain rfl := Option.some.inj (hcomplement.symm.trans hcomplement')
    have hbase0 : 0 ≤ base.value := hlawful.mul_nonneg hbase h0 (by rw [hvalue]; linarith)
    have hcurve0 : 0 ≤ curve.value :=
      checkedPowLoop_sound (P := fun _ d => 0 ≤ d.value) (k := 0) (m := 1)
        (fun _ _ a b c hc ha hb => hlawful.mul_nonneg hc ha hb) _ (by simp) hbase0 hcurve
    have hamount0 : 0 ≤ amount.value := hlawful.mul_nonneg hamount hshares.le hrate
    rw [hlawful.round]
    exact roundHalfAway_nonneg (hlawful.mul_nonneg hfee hamount0 hcurve0)

/-- The ways to obtain a calculator. -/
inductive Construction where
  | fromMarketMetadata (rate : Decimal) (exponent : UInt32)
  | crypto
  | deserialized (input : Json)

def Construction.build (readers : Readers) : Construction → Option FeeCalculator
  | .fromMarketMetadata rate exponent => (FeeCalculator.fromMarketMetadata rate exponent).toOption
  | .crypto => some .crypto
  | .deserialized input => FeeCalculator.deserialize readers input

/-- The input that is deserialized does not have a negative rate. -/
def Construction.NonnegRate (readers : Readers) : Construction → Prop
  | .fromMarketMetadata _ _ => True
  | .crypto => True
  | .deserialized input => ∀ rate exponent, input.record false ["fee_rate", "fee_exponent"] =
      some [rate, exponent] → ∀ feeRate, readers.decimal rate = some feeRate → 0 ≤ feeRate.value

theorem deserialize_eq_some {readers : Readers} {input : Json}
    (h : FeeCalculator.deserialize readers input = some calculator) :
    ∃ rate exponent, input.record false ["fee_rate", "fee_exponent"] = some [rate, exponent] ∧
      readers.decimal rate = some calculator.feeRate := by
  unfold FeeCalculator.deserialize at h
  obtain ⟨fields, hrecord, h⟩ := Option.bind_eq_some_iff.1 h
  split at h
  · next rate exponent =>
    obtain ⟨feeRate, hrate, h⟩ := Option.bind_eq_some_iff.1 h
    obtain ⟨feeExponent, -, h⟩ := Option.bind_eq_some_iff.1 h
    obtain rfl := Option.some.inj h
    exact ⟨rate, exponent, hrecord, hrate⟩
  · cases h

/-- The rate of a calculator is not negative, unless it was deserialized from a negative one. -/
theorem feeRate_nonneg_iff {readers : Readers} {construction : Construction}
    (h : construction.build readers = some calculator) :
    0 ≤ calculator.feeRate.value ↔ construction.NonnegRate readers := by
  cases construction with
  | fromMarketMetadata rate exponent =>
    refine iff_of_true ?_ trivial
    unfold Construction.build FeeCalculator.fromMarketMetadata at h
    dsimp only at h
    split_ifs at h with hrate
    · cases h
    · obtain rfl := Option.some.inj h
      exact not_lt.1 hrate
  | crypto =>
    refine iff_of_true ?_ trivial
    obtain rfl := Option.some.inj h
    simp only [FeeCalculator.crypto, FixedPoint.Decimal.value]
    norm_num
  | deserialized input =>
    obtain ⟨rate, exponent, hrecord, hrate⟩ := deserialize_eq_some h
    constructor
    · intro hnonneg rate' exponent' hrecord' feeRate hfeeRate
      have hfields := Option.some.inj (hrecord.symm.trans hrecord')
      obtain ⟨rfl, -⟩ := List.cons.inj hfields
      obtain rfl := Option.some.inj (hrate.symm.trans hfeeRate)
      exact hnonneg
    · intro hnonneg
      exact hnonneg rate exponent hrecord _ hrate

/-- A calculator has a rate and fees that are not negative, unless it was deserialized from a
    negative rate. -/
theorem fee_nonneg_iff (hlawful : arith.Lawful) {readers : Readers} {construction : Construction}
    (h : construction.build readers = some calculator) :
    (0 ≤ calculator.feeRate.value ∧
      ∀ shares price fee, calculator.takerFee arith shares price = .ok fee → 0 ≤ fee.value) ↔
      construction.NonnegRate readers := by
  rw [← feeRate_nonneg_iff h]
  constructor
  · exact fun h => h.1
  · intro hrate
    exact ⟨hrate, fun shares price fee hfee => takerFee_nonneg hlawful hrate hfee⟩

end Sign

/-- A reader of the decimal texts `0.07` and `-0.07` and of the number 1. -/
def sampleReaders : Readers where
  decimal
    | .string "0.07" => some ⟨7, 2, by decide, by decide⟩
    | .string "-0.07" => some ⟨-7, 2, by decide, by decide⟩
    | _ => none
  u32
    | .number "1" => some 1
    | _ => none

def sampleInput (rate : String) : Json :=
  .object [("fee_rate", .string rate), ("fee_exponent", .number "1")]

def hundred : Decimal := .ofNat 100 (by decide)

/-- `0.5`. -/
def half : Decimal := ⟨5, 1, by decide, by decide⟩

theorem checkedPow_one {α : Type} {checkedMul : α → α → Option α} {one base : α} :
    checkedPow checkedMul one base 1 = checkedMul one base := by
  rw [checkedPow, checkedPowLoop, if_pos Nat.one_pos, if_pos rfl, if_neg (by decide)]
  simp only [Option.bind_some]
  have hend : ∀ product, checkedPowLoop checkedMul product base (1 / 2) = some product := by
    intro product
    rw [checkedPowLoop, if_neg (by decide)]
  rw [funext hend, Option.bind_fun_some]

/-- A calculator that was deserialized with the rate `0.07`: its fee of 100 shares at `0.5` is not
    negative. -/
theorem fee_nonneg_iff_sample : ∃ calculator,
    FeeCalculator.deserialize sampleReaders (sampleInput "0.07") = some calculator ∧
      ∀ fee, calculator.takerFee halfEvenArithmetic hundred half = .ok fee → 0 ≤ fee.value := by
  have hrecord : (sampleInput "0.07").record false ["fee_rate", "fee_exponent"] =
      some [.string "0.07", .number "1"] := rfl
  have hbuild : Construction.build sampleReaders (.deserialized (sampleInput "0.07")) =
      some .crypto := rfl
  refine ⟨.crypto, rfl, ((fee_nonneg_iff halfEvenArithmetic_lawful hbuild).2 ?_).2 hundred half⟩
  intro rate exponent h feeRate hrate
  obtain ⟨rfl, -⟩ := List.cons.inj (Option.some.inj (hrecord.symm.trans h))
  obtain rfl := Option.some.inj hrate
  simp only [FixedPoint.Decimal.value]
  norm_num

/-- A calculator that was deserialized with the rate `-0.07`: its fee of 100 shares at `0.5` is
    `-1.75`. -/
theorem fee_negative : ∃ calculator fee,
    FeeCalculator.deserialize sampleReaders (sampleInput "-0.07") = some calculator ∧
      calculator.takerFee halfEvenArithmetic hundred half = .ok fee ∧
      calculator.feeRate.value < 0 ∧ fee.value < 0 := by
  have hunrounded : FeeCalculator.unrounded halfEvenArithmetic
      ⟨⟨-7, 2, by decide, by decide⟩, 1⟩ hundred half =
        some ⟨-17500, 4, by decide, by decide⟩ := by
    unfold FeeCalculator.unrounded
    rw [show (1 : UInt32).toNat = 1 from rfl]
    simp only [checkedPow_one]
    rfl
  refine ⟨⟨⟨-7, 2, by decide, by decide⟩, 1⟩, ⟨-17500, 4, by decide, by decide⟩, rfl, ?_, ?_, ?_⟩
  · unfold FeeCalculator.takerFee
    rw [hunrounded, if_neg, if_neg, if_neg]
    · rfl
    · simp only [FixedPoint.Decimal.value, half]
      norm_num
    · simp only [FixedPoint.Decimal.value, half]
      norm_num
    · simp only [hundred, FixedPoint.Decimal.value_ofNat]
      norm_num
  · simp only [FixedPoint.Decimal.value]
    norm_num
  · simp only [FixedPoint.Decimal.value]
    norm_num

/-! ## Exact fees -/

/-- The power-curve fee before it is rounded. -/
def FeeCalculator.powerFee (calculator : FeeCalculator) (shares price : ℚ) : ℚ :=
  shares * calculator.feeRate.value * (price * (1 - price)) ^ calculator.feeExponent.toNat

/-- No product on the way to the fee is rounded: the fee is zero at once, or the power of the
    curve, the rate of the shares, and the fee are decimals of the format. -/
def FeeCalculator.ProductsFit (calculator : FeeCalculator) (shares price : ℚ) : Prop :=
  calculator.feeRate.value = 0 ∨
  (calculator.feeExponent > 0 ∧ (price = 0 ∨ price = 1)) ∨
  (Fits ((price * (1 - price)) ^ calculator.feeExponent.toNat) ∧
    Fits (shares * calculator.feeRate.value) ∧ Fits (calculator.powerFee shares price))

/-- The rate of the shares is beyond the greatest decimal. -/
def FeeCalculator.Overflows (calculator : FeeCalculator) (shares : ℚ) : Prop :=
  ((2 ^ 96 : ℕ) : ℚ) - 1 / 2 < shares * calculator.feeRate.value

section Exact

variable {arith : Arithmetic} {calculator : FeeCalculator} {shares price : Decimal}

/-- The curve of a price that is not an endpoint, over a power of ten. -/
theorem curve_eq (h0 : 0 < price.value) (h1 : price.value < 1) :
    ∃ n t : ℕ, 0 < n ∧ price.value * (1 - price.value) = (n : ℚ) / 10 ^ t := by
  have hpow : (0 : ℚ) < 10 ^ price.scale := by positivity
  unfold FixedPoint.Decimal.value at h0 h1 ⊢
  have hm0 : 0 < price.mantissa := by
    have := (lt_div_iff₀ hpow).1 h0
    rw [zero_mul] at this
    exact_mod_cast this
  have hm1 : price.mantissa < 10 ^ price.scale := by
    rw [div_lt_one hpow] at h1
    exact_mod_cast h1
  have hprod : 0 < price.mantissa * (10 ^ price.scale - price.mantissa) :=
    mul_pos hm0 (by omega)
  refine ⟨(price.mantissa * (10 ^ price.scale - price.mantissa)).toNat,
    price.scale + price.scale, by omega, ?_⟩
  have hcast : (((price.mantissa * (10 ^ price.scale - price.mantissa)).toNat : ℕ) : ℚ) =
      price.mantissa * (10 ^ price.scale - price.mantissa) := by
    have := Int.toNat_of_nonneg hprod.le
    exact_mod_cast congrArg (fun n : ℤ => (n : ℚ)) this
  rw [hcast, pow_add]
  field_simp

/-- A price times its complement is found, and is exact if it fits. -/
theorem base_value (hlawful : arith.Lawful) {complement : Decimal}
    (hcomplement : complement.value = 1 - price.value) (h0 : 0 ≤ price.value)
    (h1 : price.value ≤ 1) :
    ∃ base, arith.checkedMul price complement = some base ∧
      (Fits (price.value * (1 - price.value)) → base.value = price.value * (1 - price.value)) := by
  rw [← hcomplement]
  cases hmul : arith.checkedMul price complement with
  | none =>
    have hle := hlawful.mul_overflow price complement hmul
    rw [hcomplement, abs_of_nonneg (mul_nonneg h0 (by linarith))] at hle
    have hquarter : price.value * (1 - price.value) ≤ 1 := by nlinarith
    have hlarge : (2 : ℚ) ≤ ((2 ^ 96 : ℕ) : ℚ) := by norm_num
    linarith
  | some base =>
    refine ⟨base, rfl, fun hfits => ?_⟩
    obtain ⟨base', hbase', hvalue⟩ := hlawful.mul_exact price complement hfits
    obtain rfl := Option.some.inj (hmul.symm.trans hbase')
    exact hvalue

/-- The power of the curve is exact if it fits. -/
theorem power_value (hlawful : arith.Lawful)
    (hend : 0 < calculator.feeExponent.toNat → 0 < price.value ∧ price.value < 1) {base : Decimal}
    (hbase : Fits (price.value * (1 - price.value)) →
      base.value = price.value * (1 - price.value))
    (hfits : Fits ((price.value * (1 - price.value)) ^ calculator.feeExponent.toNat)) :
    ∃ curve, checkedPow arith.checkedMul one base calculator.feeExponent.toNat = some curve ∧
      curve.value = (price.value * (1 - price.value)) ^ calculator.feeExponent.toNat := by
  rcases Nat.eq_zero_or_pos calculator.feeExponent.toNat with he | he
  · rw [he, checkedPow, checkedPowLoop, if_neg (lt_irrefl 0)]
    exact ⟨one, rfl, by simp⟩
  · obtain ⟨n, t, hn, hcurve⟩ := curve_eq (hend he).1 (hend he).2
    rw [hcurve] at hbase hfits ⊢
    have hpow : ∀ k, k ≤ calculator.feeExponent.toNat → Fits (((n : ℚ) / 10 ^ t) ^ k) :=
      fun k hk => Fits.pow_le hn hfits hk
    have hbase1 : base.value = ((n : ℚ) / 10 ^ t) ^ 1 := by
      rw [pow_one]
      exact hbase (by simpa using hpow 1 he)
    have hone : one.value = ((n : ℚ) / 10 ^ t) ^ 0 := by simp
    have hmul : ∀ i j (a b : Decimal), i + j ≤ calculator.feeExponent.toNat →
        a.value = ((n : ℚ) / 10 ^ t) ^ i → b.value = ((n : ℚ) / 10 ^ t) ^ j →
        ∃ c, arith.checkedMul a b = some c ∧ c.value = ((n : ℚ) / 10 ^ t) ^ (i + j) := by
      intro i j a b hle ha hb
      have hprod : a.value * b.value = ((n : ℚ) / 10 ^ t) ^ (i + j) := by rw [ha, hb, pow_add]
      rw [← hprod]
      exact hlawful.mul_exact a b (hprod ▸ hpow (i + j) hle)
    obtain ⟨curve, hsome, hvalue⟩ := checkedPowLoop_finds
      (P := fun k (d : Decimal) => d.value = ((n : ℚ) / 10 ^ t) ^ k) hmul
      calculator.feeExponent.toNat (k := 0) (m := 1) (by omega) hone hbase1
    refine ⟨curve, hsome, ?_⟩
    rw [hvalue, zero_add, one_mul]

/-- Where no product is rounded, the fee is computed, and is the rounded power-curve fee. -/
theorem takerFee_of_productsFit (hlawful : arith.Lawful) (hshares : 0 < shares.value)
    (h0 : 0 ≤ price.value) (h1 : price.value ≤ 1)
    (h : calculator.ProductsFit shares.value price.value) :
    ∃ fee, calculator.takerFee arith shares price = .ok fee ∧
      fee.value = roundHalfAway polymarketFeePrecision
        (calculator.powerFee shares.value price.value) := by
  unfold FeeCalculator.takerFee
  rw [if_neg (not_le.2 hshares), if_neg (not_not.2 ⟨h0, h1⟩)]
  by_cases hzero : calculator.feeRate.value = 0 ∨
      calculator.feeExponent > 0 ∧ (price.value = 0 ∨ price.value = 1)
  · rw [if_pos hzero]
    have hfee : calculator.powerFee shares.value price.value = 0 := by
      unfold FeeCalculator.powerFee
      rcases hzero with hrate | ⟨hexponent, hprice⟩
      · rw [hrate]
        ring
      · have he : calculator.feeExponent.toNat ≠ 0 := by
          have := UInt32.lt_iff_toNat_lt.1 hexponent
          simp at this
          omega
        have hcurve : price.value * (1 - price.value) = 0 := by
          rcases hprice with hp | hp <;> rw [hp] <;> ring
        rw [hcurve, zero_pow he, mul_zero]
    refine ⟨zero, rfl, ?_⟩
    rw [hfee, value_zero]
    norm_num [roundHalfAway]
  · rw [if_neg hzero]
    obtain ⟨hcurve, hamount, hfee⟩ := (h.resolve_left fun hrate => hzero (.inl hrate)).resolve_left
      fun hend => hzero (.inr hend)
    have hend : 0 < calculator.feeExponent.toNat → 0 < price.value ∧ price.value < 1 := by
      intro he
      have hexponent : calculator.feeExponent > 0 := UInt32.lt_iff_toNat_lt.2 he
      push Not at hzero
      obtain ⟨hne0, hne1⟩ := hzero.2 hexponent
      exact ⟨lt_of_le_of_ne h0 (Ne.symm hne0), lt_of_le_of_ne h1 hne1⟩
    obtain ⟨complement, hcomplement, hcvalue⟩ := complement_value hlawful h0 h1
    obtain ⟨base, hbase, hbvalue⟩ := base_value hlawful hcvalue h0 h1
    obtain ⟨curve, hpower, hpvalue⟩ := power_value hlawful hend hbvalue hcurve
    obtain ⟨amount, hasome, havalue⟩ := hlawful.mul_exact shares calculator.feeRate hamount
    have hprod : amount.value * curve.value = calculator.powerFee shares.value price.value := by
      rw [havalue, hpvalue]
      rfl
    obtain ⟨fee, hfsome, hfvalue⟩ := hlawful.mul_exact amount curve (hprod ▸ hfee)
    have hunrounded : calculator.unrounded arith shares price = some fee := by
      unfold FeeCalculator.unrounded
      simp only [Option.bind_eq_bind, hcomplement, hbase, hpower, hasome, hfsome,
        Option.bind_some]
    rw [hunrounded]
    exact ⟨_, rfl, by rw [hlawful.round, hfvalue, hprod]⟩

/-- Where the rate of the shares overflows, the fee is refused, unless it is zero at once. -/
theorem takerFee_of_overflows (hlawful : arith.Lawful) (hshares : 0 < shares.value)
    (h0 : 0 ≤ price.value) (h1 : price.value ≤ 1)
    (hfit : ¬ calculator.ProductsFit shares.value price.value)
    (h : calculator.Overflows shares.value) :
    calculator.takerFee arith shares price = .error .arithmeticOverflow := by
  have hrefused : arith.checkedMul shares calculator.feeRate = none :=
    hlawful.mul_refused (h.trans_le (le_abs_self _))
  have hunrounded : calculator.unrounded arith shares price = none := by
    rw [Option.eq_none_iff_forall_ne_some]
    intro fee hfee
    obtain ⟨_, _, _, amount, -, -, -, hamount, -⟩ := unrounded_eq_some hfee
    rw [hrefused] at hamount
    cases hamount
  unfold FeeCalculator.takerFee
  rw [if_neg (not_le.2 hshares), if_neg (not_not.2 ⟨h0, h1⟩), if_neg, hunrounded]
  rintro (hrate | hend)
  · exact hfit (.inl hrate)
  · exact hfit (.inr (.inl hend))

theorem powerFee_symm (calculator : FeeCalculator) (shares price : ℚ) :
    calculator.powerFee shares (1 - price) = calculator.powerFee shares price := by
  unfold FeeCalculator.powerFee
  rw [show (1 - price) * (1 - (1 - price)) = price * (1 - price) by ring]

theorem FeeCalculator.ProductsFit.symm {shares price : ℚ}
    (h : calculator.ProductsFit shares price) : calculator.ProductsFit shares (1 - price) := by
  rcases h with hrate | ⟨hexponent, hprice⟩ | ⟨hcurve, hamount, hfee⟩
  · exact .inl hrate
  · refine .inr (.inl ⟨hexponent, ?_⟩)
    rcases hprice with rfl | rfl
    · exact .inr (sub_zero 1)
    · exact .inl (sub_self 1)
  · refine .inr (.inr ⟨?_, hamount, ?_⟩)
    · rwa [show (1 - price) * (1 - (1 - price)) = price * (1 - price) by ring]
    · rwa [powerFee_symm]

theorem powerFee_mono {shares shares' price : ℚ} (hrate : 0 ≤ calculator.feeRate.value)
    (h0 : 0 ≤ price) (h1 : price ≤ 1) (h : shares ≤ shares') :
    calculator.powerFee shares price ≤ calculator.powerFee shares' price := by
  have hcurve : 0 ≤ price * (1 - price) := mul_nonneg h0 (by linarith)
  unfold FeeCalculator.powerFee
  gcongr

/-- A fee that is computed without rounding a product is the rounded power-curve fee. -/
theorem value_of_takerFee (hlawful : arith.Lawful) {fee : Decimal}
    (h : calculator.ProductsFit shares.value price.value ∨ calculator.Overflows shares.value)
    (hfee : calculator.takerFee arith shares price = .ok fee) :
    fee.value = roundHalfAway polymarketFeePrecision
      (calculator.powerFee shares.value price.value) := by
  obtain ⟨hshares, ⟨h0, h1⟩, -⟩ := takerFee_cases hfee
  by_cases hfit : calculator.ProductsFit shares.value price.value
  · obtain ⟨fee', hfee', hvalue⟩ := takerFee_of_productsFit hlawful hshares h0 h1 hfit
    obtain rfl := Except.ok.inj (hfee.symm.trans hfee')
    exact hvalue
  · have herror := takerFee_of_overflows hlawful hshares h0 h1 hfit (h.resolve_left hfit)
    rw [hfee] at herror
    cases herror

/-- The fee at the complement of a price. -/
theorem takerFee_symm (hlawful : arith.Lawful) (hshares : 0 < shares.value)
    (h0 : 0 ≤ price.value) (h1 : price.value ≤ 1)
    (h : calculator.ProductsFit shares.value price.value ∨ calculator.Overflows shares.value)
    {price' : Decimal} (hprice' : price'.value = 1 - price.value) :
    (calculator.takerFee arith shares price').map FixedPoint.Decimal.value =
      (calculator.takerFee arith shares price).map FixedPoint.Decimal.value := by
  have h0' : 0 ≤ price'.value := by linarith
  have h1' : price'.value ≤ 1 := by linarith
  by_cases hfit : calculator.ProductsFit shares.value price.value
  · have hfit' := hfit.symm
    rw [← hprice'] at hfit'
    obtain ⟨fee, hfee, hvalue⟩ := takerFee_of_productsFit hlawful hshares h0 h1 hfit
    obtain ⟨fee', hfee', hvalue'⟩ := takerFee_of_productsFit hlawful hshares h0' h1' hfit'
    rw [hfee, hfee', Except.map, Except.map, hvalue, hvalue', hprice', powerFee_symm]
  · have hlarge := h.resolve_left hfit
    have hfit' : ¬ calculator.ProductsFit shares.value price'.value := by
      intro hfit'
      have := hfit'.symm
      rw [hprice', sub_sub_cancel] at this
      exact hfit this
    rw [takerFee_of_overflows hlawful hshares h0 h1 hfit hlarge,
      takerFee_of_overflows hlawful hshares h0' h1' hfit' hlarge]

/-- Where no product on the way is rounded, a fee is the power-curve fee, rounded half away from
    zero; the result is the one at the complement of the price, and at most that of more shares.
    It is computed if the products fit, and is refused if the rate of the shares overflows. -/
theorem taker_fee_exact (hlawful : arith.Lawful) (hrate : 0 ≤ calculator.feeRate.value)
    (hshares : 0 < shares.value) (h0 : 0 ≤ price.value) (h1 : price.value ≤ 1)
    (h : calculator.ProductsFit shares.value price.value ∨ calculator.Overflows shares.value) :
    (∀ fee, calculator.takerFee arith shares price = .ok fee →
      fee.value = roundHalfAway polymarketFeePrecision
        (calculator.powerFee shares.value price.value)) ∧
    (∀ price' : Decimal, price'.value = 1 - price.value →
      (calculator.takerFee arith shares price').map FixedPoint.Decimal.value =
        (calculator.takerFee arith shares price).map FixedPoint.Decimal.value) ∧
    (∀ (shares' fee fee' : Decimal), shares.value ≤ shares'.value →
      calculator.ProductsFit shares'.value price.value ∨ calculator.Overflows shares'.value →
      calculator.takerFee arith shares price = .ok fee →
      calculator.takerFee arith shares' price = .ok fee' → fee.value ≤ fee'.value) ∧
    (calculator.ProductsFit shares.value price.value →
      ∃ fee, calculator.takerFee arith shares price = .ok fee) := by
  refine ⟨?_, ?_, ?_, ?_⟩
  · intro fee hfee
    exact value_of_takerFee hlawful h hfee
  · intro price' hprice'
    exact takerFee_symm hlawful hshares h0 h1 h hprice'
  · intro shares' fee fee' hle h' hfee hfee'
    rw [value_of_takerFee hlawful h hfee, value_of_takerFee hlawful h' hfee']
    refine roundHalfAway_mono ?_ (powerFee_mono hrate h0 h1 hle)
    have hcurve : 0 ≤ price.value * (1 - price.value) := mul_nonneg h0 (by linarith)
    unfold FeeCalculator.powerFee
    positivity
  · intro hfit
    obtain ⟨fee, hfee, -⟩ := takerFee_of_productsFit hlawful hshares h0 h1 hfit
    exact ⟨fee, hfee⟩

end Exact

/-- The fee of 100 shares at `0.5` and the rate `0.07`: `1.75`. -/
theorem taker_fee_exact_anchor : ∃ fee,
    FeeCalculator.crypto.takerFee halfEvenArithmetic hundred half = .ok fee ∧
      fee.value = 7 / 4 := by
  have hhalf : half.value = 1 / 2 := by
    simp only [half, FixedPoint.Decimal.value]
    norm_num
  have hhundred : hundred.value = 100 := by
    simp only [hundred, FixedPoint.Decimal.value_ofNat]
    norm_num
  have hrate : FeeCalculator.crypto.feeRate.value = 7 / 100 := by
    simp only [FeeCalculator.crypto, FixedPoint.Decimal.value]
    norm_num
  have hexponent : FeeCalculator.crypto.feeExponent.toNat = 1 := rfl
  have hpower : FeeCalculator.crypto.powerFee hundred.value half.value = 7 / 4 := by
    rw [FeeCalculator.powerFee, hhundred, hhalf, hrate, hexponent]
    norm_num
  have hfits : FeeCalculator.crypto.ProductsFit hundred.value half.value := by
    refine .inr (.inr ⟨⟨⟨25, 2, by decide, by decide⟩, ?_⟩, ⟨⟨7, 0, by decide, by decide⟩, ?_⟩,
      ⟨⟨175, 2, by decide, by decide⟩, ?_⟩⟩)
    · rw [hhalf, hexponent, FixedPoint.Decimal.value]
      norm_num
    · rw [hhundred, hrate, FixedPoint.Decimal.value]
      norm_num
    · rw [hpower, FixedPoint.Decimal.value]
      norm_num
  obtain ⟨hexact, -, -, hfound⟩ := taker_fee_exact halfEvenArithmetic_lawful
    (by rw [hrate]; norm_num) (by rw [hhundred]; norm_num) (by rw [hhalf]; norm_num)
    (by rw [hhalf]; norm_num) (.inl hfits)
  obtain ⟨fee, hfee⟩ := hfound hfits
  refine ⟨fee, hfee, ?_⟩
  rw [hexact fee hfee, hpower, roundHalfAway, if_pos (by norm_num)]
  norm_num [polymarketFeePrecision]

/-- The rate is `0.00002`. -/
def smallCalculator : FeeCalculator := ⟨⟨2, 5, by decide, by decide⟩, 1⟩

/-- `0.50000000000000000001`. -/
def nearHalf : Decimal := ⟨50000000000000000001, 20, by decide, by decide⟩

/-- The curve at `nearHalf` has 40 places and is rounded up to `0.25`, so that the fee of one share
    is rounded up from `0.000005`, which the power-curve fee is below. -/
theorem taker_fee_not_exact : ∃ fee,
    0 ≤ smallCalculator.feeRate.value ∧ 0 < one.value ∧
      0 ≤ nearHalf.value ∧ nearHalf.value ≤ 1 ∧
      smallCalculator.takerFee halfEvenArithmetic one nearHalf = .ok fee ∧
      fee.value ≠ roundHalfAway polymarketFeePrecision
        (smallCalculator.powerFee one.value nearHalf.value) := by
  have hnear : nearHalf.value = 50000000000000000001 / 100000000000000000000 := by
    simp only [nearHalf, FixedPoint.Decimal.value]
    norm_num
  have hrate : smallCalculator.feeRate.value = 1 / 50000 := by
    simp only [smallCalculator, FixedPoint.Decimal.value]
    norm_num
  have hunrounded : smallCalculator.unrounded halfEvenArithmetic one nearHalf =
      some ⟨50000000000000000000000, 28, by decide, by decide⟩ := by
    unfold FeeCalculator.unrounded
    rw [show smallCalculator.feeExponent.toNat = 1 from rfl]
    simp only [checkedPow_one]
    rfl
  refine ⟨⟨1, 5, by decide, by decide⟩, ?_, ?_, ?_, ?_, ?_, ?_⟩
  · rw [hrate]
    norm_num
  · rw [value_one]
    norm_num
  · rw [hnear]
    norm_num
  · rw [hnear]
    norm_num
  · unfold FeeCalculator.takerFee
    rw [hunrounded, if_neg, if_neg, if_neg]
    · rfl
    · rw [hrate, hnear]
      norm_num
    · rw [hnear]
      norm_num
    · rw [value_one]
      norm_num
  · have hexponent : smallCalculator.feeExponent.toNat = 1 := rfl
    rw [FeeCalculator.powerFee, hrate, hnear, hexponent, value_one, roundHalfAway,
      if_pos (by norm_num)]
    simp only [FixedPoint.Decimal.value, polymarketFeePrecision]
    norm_num

end Fees

end Rspm
