/-
  What a limit order says of the builder it was built from.

  `limit_order_exact`: building never panics; the price of an order that is built
  is on the grid of the tick size, its size is a number of lots, and its amounts
  are the size and the price in millionths, exactly if the size in millionths is
  below `2 ^ 96`.
-/
import Rspm.Sdk.OrderBuilder

namespace Rspm

namespace Sdk

open FixedPoint

/-! ## Building step by step -/

section

variable {ε α β : Type}

theorem bind_eq_ok {x : Except ε α} {f : α → Except ε β} {b : β} :
    x >>= f = .ok b ↔ ∃ a, x = .ok a ∧ f a = .ok b := by
  cases x with
  | ok a => exact ⟨fun h => ⟨a, rfl, h⟩, fun ⟨_, ha, h⟩ => by cases ha; exact h⟩
  | error stop => exact ⟨nofun, fun ⟨_, ha, _⟩ => by cases ha⟩

@[simp] theorem pure_eq_ok {a b : α} : (pure a : Except ε α) = .ok b ↔ a = b := by
  simp [pure, Except.pure]

@[simp] theorem ensure_eq_ok {holds : Bool} {reason : String} {u : Unit} :
    ensure holds reason = .ok u ↔ holds = true := by
  cases holds <;> simp [ensure, invalid]

@[simp] theorem required_eq_ok {value : Option α} {reason : String} {a : α} :
    required value reason = .ok a ↔ value = some a := by
  cases value <;> simp [required, invalid]

@[simp] theorem answered_eq_ok {answer : Except SdkError α} {a : α} :
    answered answer = .ok a ↔ answer = .ok a := by
  cases answer <;> simp [answered]

@[simp] theorem expect_eq_ok {value : Option α} {a : α} :
    expect value = .ok a ↔ value = some a := by
  cases value <;> simp [expect]

/-- It does not end in a panic. -/
def Build.Total (x : Build α) : Prop := x ≠ .error .panic

theorem Build.Total.bind {x : Build α} {f : α → Build β} (hx : Total x)
    (hf : ∀ a, x = .ok a → Total (f a)) : Total (x >>= f) := by
  cases x with
  | ok a => exact hf a rfl
  | error stop => exact fun h => hx (by cases h; rfl)

theorem total_pure (a : α) : Build.Total (pure a : Build α) := nofun

theorem total_invalid (reason : String) : Build.Total (invalid reason : Build α) := nofun

theorem total_ensure (holds : Bool) (reason : String) : Build.Total (ensure holds reason) := by
  cases holds <;> exact nofun

theorem total_required (value : Option α) (reason : String) :
    Build.Total (required value reason) := by
  cases value <;> exact nofun

theorem total_answered (answer : Except SdkError α) : Build.Total (answered answer) := by
  cases answer <;> exact nofun

theorem total_expect {value : Option α} (h : value ≠ none) : Build.Total (expect value) := by
  cases value with
  | some a => exact nofun
  | none => exact absurd rfl h

end

/-! ## The price -/

namespace TickSize

theorem scale_le (tickSize : TickSize) : tickSize.asDecimal.scale ≤ 4 := by
  cases tickSize <;> decide

theorem value_pos (tickSize : TickSize) : 0 < tickSize.asDecimal.value := by
  cases tickSize <;> norm_num [asDecimal, dec, Decimal.value]

/-- One less a tick is a decimal. -/
theorem fits_complement (tickSize : TickSize) :
    Fits (2 ^ 96) 28 (one.value - tickSize.asDecimal.value) := by
  rw [one, Decimal.value_ofNat]
  cases tickSize with
  | tenth => exact ⟨dec 9 1, by norm_num [asDecimal, dec, Decimal.value]⟩
  | hundredth => exact ⟨dec 99 2, by norm_num [asDecimal, dec, Decimal.value]⟩
  | halfCent => exact ⟨dec 995 3, by norm_num [asDecimal, dec, Decimal.value]⟩
  | quarterCent => exact ⟨dec 9975 4, by norm_num [asDecimal, dec, Decimal.value]⟩
  | thousandth => exact ⟨dec 999 3, by norm_num [asDecimal, dec, Decimal.value]⟩
  | tenThousandth => exact ⟨dec 9999 4, by norm_num [asDecimal, dec, Decimal.value]⟩

end TickSize

/-- The price is on the grid of the tick size. -/
structure OnGrid (price : Decimal) (tickSize : TickSize) : Prop where
  scale : price.scale ≤ tickSize.asDecimal.scale
  low : tickSize.asDecimal.value ≤ price.value
  high : price.value ≤ 1 - tickSize.asDecimal.value
  aligned : ∃ k : ℤ, price.value = k * tickSize.asDecimal.value

namespace OnGrid

variable {price : Decimal} {tickSize : TickSize}

theorem pos (h : OnGrid price tickSize) : 0 < price.value := tickSize.value_pos.trans_le h.low

theorem le_one (h : OnGrid price tickSize) : price.value ≤ 1 := by
  linarith [h.high, tickSize.value_pos]

/-- The price is a whole number of ticks. -/
theorem ticks (h : OnGrid price tickSize) :
    ∃ k : ℕ, price.value = k * tickSize.asDecimal.value := by
  obtain ⟨k, hk⟩ := h.aligned
  have hpos : (0 : ℚ) < k := by
    have hpos := h.pos
    rw [hk] at hpos
    exact (pos_iff_pos_of_mul_pos hpos).2 tickSize.value_pos
  obtain ⟨n, rfl⟩ := Int.eq_ofNat_of_zero_le (a := k) (by exact_mod_cast hpos.le)
  exact ⟨n, by rw [hk, Int.cast_natCast]⟩

end OnGrid

variable {crates : Crates}

theorem subtract_tick (hlawful : crates.Lawful) (tickSize : TickSize) :
    ∃ highest, subtract crates one tickSize.asDecimal = .ok highest ∧
      highest.value = 1 - tickSize.asDecimal.value := by
  obtain ⟨highest, heq, hvalue⟩ :=
    hlawful.arithmetic.sub_exact one tickSize.asDecimal tickSize.fits_complement
  refine ⟨highest, expect_eq_ok.2 heq, hvalue.trans ?_⟩
  norm_num [one]

/-- The checks accept the prices on the grid. -/
theorem checkPrice_eq_ok (hlawful : crates.Lawful) {price : Decimal} {tickSize : TickSize}
    {u : Unit} : checkPrice crates price tickSize.asDecimal = .ok u ↔ OnGrid price tickSize := by
  obtain ⟨highest, hsub, hvalue⟩ := subtract_tick hlawful tickSize
  have hrem := hlawful.rescaling.rem_eq_zero_iff (a := price) tickSize.value_pos.ne'
  unfold checkPrice
  simp only [bind_eq_ok, ensure_eq_ok, hsub, Except.ok.injEq, exists_eq_left', decide_eq_true_eq,
    Bool.and_eq_true, priceAlignedToTickSize, hvalue, hrem]
  constructor
  · rintro ⟨-, hscale, -, ⟨hlow, hhigh⟩, haligned⟩
    exact ⟨hscale, hlow, hhigh, haligned⟩
  · intro h
    exact ⟨(), h.scale, (), ⟨h.low, h.high⟩, h.aligned⟩

theorem total_checkPrice (hlawful : crates.Lawful) (price : Decimal) (tickSize : TickSize) :
    Build.Total (checkPrice crates price tickSize.asDecimal) := by
  obtain ⟨highest, hsub, -⟩ := subtract_tick hlawful tickSize
  refine (total_ensure _ _).bind fun _ _ => ?_
  rw [hsub]
  exact (total_ensure _ _).bind fun _ _ => total_ensure _ _

/-! ## The amounts -/

/-- A size that is a positive number of lots. -/
def IsLots (size : Decimal) : Prop := size.scale ≤ lotSizeScale ∧ 0 < size.value

theorem checkSize_eq_ok {size : Decimal} {u : Unit} : checkSize size = .ok u ↔ IsLots size := by
  unfold checkSize IsLots
  simp [bind_eq_ok]

/-- The mantissa of a decimal that is not negative. -/
theorem natAbs_mantissa {d : Decimal} (h : 0 ≤ d.value) :
    (d.mantissa.natAbs : ℚ) = d.mantissa := by
  rw [← Int.cast_natCast, Int.natAbs_of_nonneg (FixedPoint.Decimal.mantissa_nonneg h)]

theorem IsLots.lots {size : Decimal} (h : IsLots size) :
    ∃ lots : ℕ, 0 < lots ∧ size.value = lots / 100 := by
  obtain ⟨hscale, hpos⟩ := h
  have hvalue := size.value_at (s := 2) hscale
  have hsize := hpos.le
  refine ⟨(size.mantissa * 10 ^ (2 - size.scale)).toNat, ?_, ?_⟩
  · rw [hvalue, div_pos_iff_of_pos_right (by norm_num)] at hpos
    have : 0 < size.mantissa * 10 ^ (2 - size.scale) := by exact_mod_cast hpos
    omega
  · have hnonneg : 0 ≤ size.mantissa * 10 ^ (2 - size.scale) :=
      mul_nonneg (FixedPoint.Decimal.mantissa_nonneg hsize) (by positivity)
    rw [hvalue, ← Int.cast_natCast, Int.toNat_of_nonneg hnonneg]
    norm_num

/-- What a decimal that is not negative is in millionths, if there is room. -/
theorem toFixedU128_exact (hlawful : crates.Lawful) {d : Decimal} {n : ℕ}
    (hd : d.value = n / 10 ^ usdcDecimals) (hroom : n < 2 ^ 96) : toFixedU128 crates d = .ok n := by
  have hunits := hlawful.rescaling.units (by decide) hd hroom
  unfold toFixedU128
  dsimp only
  rw [hunits, if_pos (Int.natCast_nonneg n), Int.toNat_natCast]

theorem truncated_nonneg (hlawful : crates.Lawful) {d : Decimal} (h : 0 ≤ d.value) (places : ℕ) :
    0 ≤ (crates.rescaling.truncWithScale places d).value := by
  rw [hlawful.rescaling.trunc_value]
  exact truncate_nonneg h

theorem total_toFixedU128 (hlawful : crates.Lawful) {d : Decimal} (h : 0 ≤ d.value) :
    Build.Total (toFixedU128 crates d) := by
  have hnonneg : 0 ≤ (crates.rescaling.normalize d).value := by
    rw [hlawful.rescaling.normalize_value]
    exact h
  unfold toFixedU128
  dsimp only
  rw [if_pos (Decimal.mantissa_nonneg (truncated_nonneg hlawful hnonneg _))]
  exact nofun

theorem toFixedU128_lt {d : Decimal} {n : ℕ} (h : toFixedU128 crates d = .ok n) : n < 2 ^ 96 := by
  unfold toFixedU128 at h
  dsimp only at h
  split_ifs at h with hnonneg
  cases h
  have hlt := (crates.rescaling.truncWithScale usdcDecimals
    (crates.rescaling.normalize d)).mantissa_lt
  omega

section

variable {size price : Decimal} {tickSize : TickSize}

/-- The product of a size and of a price is not refused. -/
theorem multiply_total (hlawful : crates.Lawful) (hsize : 0 ≤ size.value)
    (hprice : OnGrid price tickSize) :
    ∃ notional, multiply crates size price = .ok notional ∧ 0 ≤ notional.value := by
  have hsome : crates.arithmetic.checkedMul size price ≠ none := by
    intro hnone
    have hover := hlawful.arithmetic.mul_overflow size price hnone
    have hle := size.abs_value_le
    rw [abs_of_nonneg hsize] at hle
    rw [abs_of_nonneg (mul_nonneg hsize hprice.pos.le)] at hover
    have hmul : size.value * price.value ≤ size.value := mul_le_of_le_one_right hsize hprice.le_one
    exact absurd (hover.trans (hmul.trans hle)) (by norm_num)
  obtain ⟨notional, heq⟩ := Option.ne_none_iff_exists'.1 hsome
  exact ⟨notional, expect_eq_ok.2 heq,
    hlawful.arithmetic.mul_nonneg heq hsize hprice.pos.le⟩

/-- The size in millionths. -/
def millionths (size : Decimal) : ℕ := size.mantissa.natAbs * 10 ^ (usdcDecimals - size.scale)

theorem millionths_eq (h : IsLots size) :
    (millionths size : ℚ) = size.value * 10 ^ usdcDecimals := by
  have hscale : size.scale ≤ usdcDecimals := h.1.trans (by decide)
  rw [size.value_at hscale, div_mul_cancel₀ _ (by positivity), millionths, Nat.cast_mul,
    natAbs_mantissa h.2.le]
  push_cast
  rfl

/-- The mantissa of the product of a size and of a price. -/
theorem notional_room (hsize : IsLots size) (hprice : OnGrid price tickSize) :
    size.mantissa.natAbs * price.mantissa.natAbs *
      10 ^ (usdcDecimals - (size.scale + price.scale)) ≤ millionths size := by
  have hscale : size.scale + price.scale ≤ usdcDecimals := by
    have h1 := hsize.1
    have h2 := hprice.scale.trans tickSize.scale_le
    unfold lotSizeScale at h1
    unfold usdcDecimals
    omega
  have hp : price.mantissa.natAbs ≤ 10 ^ price.scale := by
    have hcast : (price.mantissa.natAbs : ℚ) ≤ 10 ^ price.scale := by
      rw [natAbs_mantissa hprice.pos.le, price.mantissa_eq]
      exact mul_le_of_le_one_left (by positivity) hprice.le_one
    exact_mod_cast hcast
  calc size.mantissa.natAbs * price.mantissa.natAbs *
        10 ^ (usdcDecimals - (size.scale + price.scale))
      ≤ size.mantissa.natAbs * 10 ^ price.scale *
        10 ^ (usdcDecimals - (size.scale + price.scale)) :=
        Nat.mul_le_mul_right _ (Nat.mul_le_mul_left _ hp)
    _ = millionths size := by
        rw [millionths, mul_assoc, ← pow_add]
        congr 2
        omega

/-- The product of a size and of a price is exact, if there is room for the size. -/
theorem notional_exact (hlawful : crates.Lawful) (hsize : IsLots size)
    (hprice : OnGrid price tickSize) (hroom : millionths size < 2 ^ 96) {notional : Decimal}
    (h : multiply crates size price = .ok notional) :
    notional.value = size.value * price.value := by
  have hmantissa : (size.mantissa * price.mantissa).natAbs < 2 ^ 96 := by
    rw [Int.natAbs_mul]
    exact ((Nat.le_mul_of_pos_right _ (by positivity)).trans (notional_room hsize hprice)).trans_lt
      hroom
  have hscale : size.scale + price.scale ≤ 28 := by
    have h1 := hsize.1
    have h2 := hprice.scale.trans tickSize.scale_le
    unfold lotSizeScale at h1
    omega
  have hfits : Fits (2 ^ 96) 28 (size.value * price.value) := by
    refine ⟨⟨size.mantissa * price.mantissa, size.scale + price.scale, hmantissa, hscale⟩, ?_⟩
    unfold FixedPoint.Decimal.value
    push_cast
    rw [pow_add, div_mul_div_comm]
  obtain ⟨c, hc, hvalue⟩ := hlawful.arithmetic.mul_exact size price hfits
  rw [expect_eq_ok.1 h] at hc
  cases hc
  exact hvalue

/-- The collateral in millionths, exactly. -/
theorem collateral_exact (hlawful : crates.Lawful) (hsize : IsLots size)
    (hprice : OnGrid price tickSize) (hroom : millionths size < 2 ^ 96) {notional : Decimal}
    (h : multiply crates size price = .ok notional) {n : ℕ}
    (hn : toFixedU128 crates (crates.rescaling.truncWithScale
      (tickSize.asDecimal.scale + lotSizeScale) notional) = .ok n) :
    (n : ℚ) = size.value * price.value * 10 ^ usdcDecimals := by
  have hvalue := notional_exact hlawful hsize hprice hroom h
  have h1 : size.scale ≤ 2 := hsize.1
  have h2 := hprice.scale
  have h4 := tickSize.scale_le
  have hproduct : size.value * price.value =
      ((size.mantissa * price.mantissa : ℤ) : ℚ) / 10 ^ (size.scale + price.scale) := by
    unfold FixedPoint.Decimal.value
    push_cast
    rw [pow_add, div_mul_div_comm]
  have hplaces : size.value * price.value =
      ((size.mantissa * price.mantissa *
        10 ^ (tickSize.asDecimal.scale + lotSizeScale - (size.scale + price.scale)) : ℤ) : ℚ) /
        10 ^ (tickSize.asDecimal.scale + lotSizeScale) := by
    rw [hproduct, div_eq_div_iff (by positivity) (by positivity)]
    push_cast
    rw [mul_assoc _ (10 ^ _ : ℚ) (10 ^ _ : ℚ), ← pow_add]
    congr 2
    unfold lotSizeScale
    omega
  have htrunc : (crates.rescaling.truncWithScale
      (tickSize.asDecimal.scale + lotSizeScale) notional).value = size.value * price.value := by
    rw [hlawful.rescaling.trunc_value, hvalue, hplaces, truncate_of_units]
  have hunits : size.value * price.value =
      ((size.mantissa.natAbs * price.mantissa.natAbs *
        10 ^ (usdcDecimals - (size.scale + price.scale)) : ℕ) : ℚ) / 10 ^ usdcDecimals := by
    rw [hproduct, Int.cast_mul, Nat.cast_mul, Nat.cast_mul, natAbs_mantissa hsize.2.le,
      natAbs_mantissa hprice.pos.le, div_eq_div_iff (by positivity) (by positivity)]
    push_cast
    rw [mul_assoc _ (10 ^ _ : ℚ) (10 ^ _ : ℚ), ← pow_add]
    congr 2
    unfold usdcDecimals
    omega
  have hexact := toFixedU128_exact hlawful (htrunc.trans hunits)
    ((notional_room hsize hprice).trans_lt hroom)
  rw [hn] at hexact
  cases hexact
  rw [hunits, div_mul_cancel₀ _ (by positivity)]

/-- The size and the product in millionths are exact if there is room for the size. -/
theorem exact_iff (hlawful : crates.Lawful) (hsize : IsLots size) (hprice : OnGrid price tickSize)
    {notional : Decimal} (hmul : multiply crates size price = .ok notional) {shares collateral : ℕ}
    (hshares : toFixedU128 crates size = .ok shares)
    (hcollateral : toFixedU128 crates (crates.rescaling.truncWithScale
      (tickSize.asDecimal.scale + lotSizeScale) notional) = .ok collateral) :
    ((shares : ℚ) = size.value * 10 ^ usdcDecimals ∧
      (collateral : ℚ) = size.value * price.value * 10 ^ usdcDecimals) ↔
      size.value * 10 ^ usdcDecimals < 2 ^ 96 := by
  rw [← millionths_eq hsize]
  constructor
  · rintro ⟨heq, -⟩
    rw [← heq]
    exact_mod_cast toFixedU128_lt hshares
  · intro hroom
    have hroom' : millionths size < 2 ^ 96 := by exact_mod_cast hroom
    have hvalue : size.value = millionths size / 10 ^ usdcDecimals := by
      rw [millionths_eq hsize, mul_div_cancel_right₀ _ (by positivity)]
    have hexact := toFixedU128_exact hlawful hvalue hroom'
    rw [hshares] at hexact
    cases hexact
    exact ⟨rfl, collateral_exact hlawful hsize hprice hroom' hmul hcollateral⟩

/-- The shares of an order in millionths: a buyer takes them, a seller makes them. -/
def OrderPayload.shares (payload : OrderPayload) : ℕ :=
  if payload.side = Side.buy.asU8 then payload.takerAmount else payload.makerAmount

def OrderPayload.collateral (payload : OrderPayload) : ℕ :=
  if payload.side = Side.buy.asU8 then payload.makerAmount else payload.takerAmount

/-- The order trades `size` shares at `price`. -/
def OrderPayload.Trades (payload : OrderPayload) (size price : ℚ) : Prop :=
  (payload.shares : ℚ) = size * 10 ^ usdcDecimals ∧
    (payload.collateral : ℚ) = size * price * 10 ^ usdcDecimals

/-- The payload has the parts that it is built from. -/
theorem buildPayload_eq_ok {b : OrderBuilder} {answers : Answers} {tokenId : U256} {side : Side}
    {makerAmount takerAmount salt expiration : ℕ} {payload : OrderPayload}
    (h : b.buildPayload answers tokenId side makerAmount takerAmount salt expiration =
      .ok payload) :
    answers.version = .ok payload.version ∧ payload.tokenId = tokenId ∧
      payload.side = side.asU8 ∧ payload.makerAmount = makerAmount ∧
      payload.takerAmount = takerAmount ∧ payload.salt = salt ∧
      payload.expiration = expiration ∧ payload.maker = b.funder.getD b.signer ∧
      payload.signatureType = b.signatureType.asU8 := by
  unfold OrderBuilder.buildPayload at h
  simp only [bind_eq_ok, answered_eq_ok] at h
  obtain ⟨version, hversion, signer, -, h⟩ := h
  rw [hversion]
  split at h
  · simp only [bind_eq_ok, pure_eq_ok] at h
    obtain ⟨-, -, feeRateBps, -, rfl⟩ := h
    exact ⟨rfl, rfl, rfl, rfl, rfl, rfl, rfl, rfl, rfl⟩
  · simp only [bind_eq_ok, pure_eq_ok] at h
    obtain ⟨timestamp, -, rfl⟩ := h
    exact ⟨rfl, rfl, rfl, rfl, rfl, rfl, rfl, rfl, rfl⟩
  · cases h

theorem total_buildPayload {b : OrderBuilder} {answers : Answers} (hnow : answers.now ≠ none)
    (tokenId : U256) (side : Side) (makerAmount takerAmount salt expiration : ℕ) :
    Build.Total (b.buildPayload answers tokenId side makerAmount takerAmount salt expiration) := by
  have hfee : Build.Total (b.resolveFeeRateBps answers tokenId) := by
    refine (total_answered _).bind fun marketFee _ => ?_
    cases b.feeRateBps with
    | none => exact total_pure _
    | some user => exact (total_ensure _ _).bind fun _ _ => total_pure _
  have hsigner : Build.Total b.payloadSigner := by
    unfold OrderBuilder.payloadSigner
    split_ifs
    · exact total_required _ _
    · exact nofun
  refine (total_answered _).bind fun version _ => hsigner.bind fun signer _ => ?_
  split
  · exact (total_ensure _ _).bind fun _ _ => hfee.bind fun _ _ => total_pure _
  · exact (total_expect hnow).bind fun _ _ => total_pure _
  · exact total_invalid _

/-- The side is known, and the amounts are the size and the truncated product. -/
theorem amounts_eq_ok {side : Side} {decimals : ℕ} {takerAmount makerAmount : Decimal}
    (h : amounts crates side size price decimals = .ok (takerAmount, makerAmount)) :
    ∃ notional, multiply crates size price = .ok notional ∧
      (side = .buy ∧ takerAmount = size ∧
        makerAmount = crates.rescaling.truncWithScale (decimals + lotSizeScale) notional ∨
      side = .sell ∧ makerAmount = size ∧
        takerAmount = crates.rescaling.truncWithScale (decimals + lotSizeScale) notional) := by
  cases side with
  | buy =>
    simp only [amounts, bind_eq_ok, pure_eq_ok, Prod.mk.injEq] at h
    obtain ⟨notional, hmul, rfl, rfl⟩ := h
    exact ⟨notional, hmul, .inl ⟨rfl, rfl, rfl⟩⟩
  | sell =>
    simp only [amounts, bind_eq_ok, pure_eq_ok, Prod.mk.injEq] at h
    obtain ⟨notional, hmul, rfl, rfl⟩ := h
    exact ⟨notional, hmul, .inr ⟨rfl, rfl, rfl⟩⟩
  | unknown => cases h

/-- Amounts are not negative. -/
theorem amounts_nonneg (hlawful : crates.Lawful) (hsize : IsLots size)
    (hprice : OnGrid price tickSize) {side : Side} {decimals : ℕ}
    {takerAmount makerAmount : Decimal}
    (h : amounts crates side size price decimals = .ok (takerAmount, makerAmount)) :
    0 ≤ takerAmount.value ∧ 0 ≤ makerAmount.value := by
  obtain ⟨notional, hmul, hparts⟩ := amounts_eq_ok h
  obtain ⟨_, hmul', hnonneg⟩ := multiply_total hlawful hsize.2.le hprice
  rw [hmul] at hmul'
  cases hmul'
  have htrunc := truncated_nonneg hlawful hnonneg (decimals + lotSizeScale)
  obtain ⟨-, rfl, rfl⟩ | ⟨-, rfl, rfl⟩ := hparts
  · exact ⟨hsize.2.le, htrunc⟩
  · exact ⟨htrunc, hsize.2.le⟩

theorem total_amounts (hlawful : crates.Lawful) (hsize : IsLots size)
    (hprice : OnGrid price tickSize) (side : Side) (decimals : ℕ) :
    Build.Total (amounts crates side size price decimals) := by
  obtain ⟨notional, hmul, -⟩ := multiply_total hlawful hsize.2.le hprice
  cases side with
  | buy | sell =>
    unfold amounts
    rw [hmul]
    exact total_pure _
  | unknown => exact total_invalid _

end

namespace OrderBuilder

variable {b : OrderBuilder} {answers : Answers}

theorem checkedPrice_eq_ok (hlawful : crates.Lawful) {tokenId : U256} {side : Side}
    {price tick : Decimal} (h : b.checkedPrice answers crates = .ok (tokenId, side, price, tick)) :
    b.tokenId = some tokenId ∧ b.side = some side ∧ b.price = some price ∧
      ∃ tickSize, answers.tickSize tokenId = .ok tickSize ∧ tick = tickSize.asDecimal ∧
        OnGrid price tickSize := by
  unfold checkedPrice at h
  simp only [bind_eq_ok, pure_eq_ok, required_eq_ok, answered_eq_ok, checkPrice_eq_ok hlawful,
    Prod.mk.injEq] at h
  obtain ⟨_, htoken, _, hside, _, hprice, -, -, tickSize, htick, -, hgrid, rfl, rfl, rfl, rfl⟩ := h
  exact ⟨htoken, hside, hprice, tickSize, htick, rfl, hgrid⟩

theorem total_checkedPrice (hlawful : crates.Lawful) :
    Build.Total (b.checkedPrice answers crates) :=
  (total_required _ _).bind fun _ _ => (total_required _ _).bind fun _ _ =>
    (total_required _ _).bind fun price _ => (total_ensure _ _).bind fun _ _ =>
    (total_answered _).bind fun tickSize _ => (total_checkPrice hlawful price tickSize).bind
      fun _ _ => total_pure _

/-- Building does not panic, unless the clock is before the epoch. -/
theorem total_build (hlawful : crates.Lawful) (hnow : answers.now ≠ none) :
    Build.Total (b.build answers crates) := by
  refine (total_checkedPrice hlawful).bind ?_
  rintro ⟨tokenId, side, price, tick⟩ hchecked
  obtain ⟨-, -, -, tickSize, -, rfl, hgrid⟩ := checkedPrice_eq_ok hlawful hchecked
  refine (total_required _ _).bind fun size _ => ?_
  have hcheck : Build.Total (checkSize size) := (total_ensure _ _).bind fun _ _ => total_ensure _ _
  refine hcheck.bind fun _ hsize => ?_
  have hlots := checkSize_eq_ok.1 hsize
  have hterms : ∀ expiration orderType postOnly,
      Build.Total (checkTerms expiration orderType postOnly) :=
    fun _ _ _ => (total_ensure _ _).bind fun _ _ => total_ensure _ _
  refine (hterms _ _ _).bind fun _ _ => ?_
  refine (total_amounts hlawful hlots hgrid side _).bind ?_
  rintro ⟨takerAmount, makerAmount⟩ hamounts
  obtain ⟨htaker, hmaker⟩ := amounts_nonneg hlawful hlots hgrid hamounts
  have hseconds : ∀ expiration, Build.Total (expirationSeconds crates expiration) := by
    intro expiration
    unfold expirationSeconds
    split_ifs
    · exact nofun
    · exact total_invalid _
  exact (hseconds _).bind fun _ _ => (total_toFixedU128 hlawful hmaker).bind fun _ _ =>
    (total_toFixedU128 hlawful htaker).bind fun _ _ =>
    (total_buildPayload hnow _ _ _ _ _ _).bind fun _ _ => total_pure _

end OrderBuilder

/-- The order is what its builder asks for. -/
structure Placed (b : OrderBuilder) (answers : Answers) (order : SignableOrder) : Prop where
  version : answers.version = .ok order.payload.version
  maker : order.payload.maker = b.funder.getD b.signer
  signatureType : order.payload.signatureType = b.signatureType.asU8
  salt : order.payload.salt < 2 ^ 53
  orderType : order.orderType = b.orderType.getD .gtc
  postOnly : order.postOnly = some (b.postOnly.getD false)
  deferExec : order.deferExec = b.deferExec
  /-- only an order that rests is limited to posting -/
  rests : order.postOnly = some true → order.orderType = .gtc ∨ order.orderType = .gtd
  /-- only an order that rests until a date expires -/
  expires : order.orderType ≠ .gtd → order.payload.expiration = 0
  seconds : (order.payload.expiration : ℤ) = b.expiration.getD 0 / 1000000000

theorem toIeee754Int_lt (value : UInt64) : (toIeee754Int value).toNat < 2 ^ 53 := by
  have hmask : jsSafeIntegerMax.toNat < 2 ^ 53 := by decide
  unfold toIeee754Int
  rw [UInt64.toNat_and]
  exact Nat.and_le_right.trans_lt hmask

/-- `build` does not panic while the clock is after the epoch.  An order of it is the one its
    builder asks for, on the grids of the prices and the sizes, and its amounts are exact if and
    only if the size in millionths fits. -/
theorem limit_order_exact (hlawful : crates.Lawful) (b : OrderBuilder) (answers : Answers) :
    (answers.now ≠ none → b.build answers crates ≠ .error .panic) ∧
    ∀ order, b.build answers crates = .ok order → Placed b answers order ∧
      ∃ tokenId side price size tickSize, b.tokenId = some tokenId ∧ b.side = some side ∧
        b.price = some price ∧ b.size = some size ∧ answers.tickSize tokenId = .ok tickSize ∧
        order.payload.tokenId = tokenId ∧ order.payload.side = side.asU8 ∧ side ≠ .unknown ∧
        (∃ ticks : ℕ, price.value = ticks * tickSize.asDecimal.value) ∧
        tickSize.asDecimal.value ≤ price.value ∧ price.value ≤ 1 - tickSize.asDecimal.value ∧
        (∃ lots : ℕ, 0 < lots ∧ size.value = lots / 100) ∧
        (order.payload.Trades size.value price.value ↔
          size.value * 10 ^ usdcDecimals < 2 ^ 96) := by
  refine ⟨fun hnow => OrderBuilder.total_build hlawful hnow, fun order h => ?_⟩
  unfold OrderBuilder.build at h
  rw [bind_eq_ok] at h
  obtain ⟨⟨tokenId, side, price, tick⟩, hchecked, h⟩ := h
  obtain ⟨htoken, hside, hprice, tickSize, htick, rfl, hgrid⟩ :=
    OrderBuilder.checkedPrice_eq_ok hlawful hchecked
  dsimp only at h
  simp only [bind_eq_ok, required_eq_ok, pure_eq_ok, checkSize_eq_ok] at h
  obtain ⟨size, hsize, -, hlots, _, hterms, ⟨takerAmount, makerAmount⟩, hamounts, h⟩ := h
  obtain ⟨expiration, hexpiration, maker, hmaker, taker, htaker, payload, hpayload, rfl⟩ := h
  obtain ⟨hversion, hpToken, hpSide, hpMaker, hpTaker, hpSalt, hpExpiration, hpOwner, hpType⟩ :=
    buildPayload_eq_ok hpayload
  have hseconds : (expiration : ℤ) = b.expiration.getD 0 / 1000000000 := by
    unfold expirationSeconds at hexpiration
    split_ifs at hexpiration with hnonneg
    · cases hexpiration
      exact Int.toNat_of_nonneg hnonneg
    · cases hexpiration
  unfold checkTerms at hterms
  simp only [bind_eq_ok, ensure_eq_ok, Bool.or_eq_true, decide_eq_true_eq,
    Bool.not_eq_true'] at hterms
  obtain ⟨-, hgtd, hrests⟩ := hterms
  refine ⟨?_, tokenId, side, price, size, tickSize, htoken, hside, hprice, hsize, htick, hpToken,
    hpSide, ?_, hgrid.ticks, hgrid.low, hgrid.high, hlots.lots, ?_⟩
  · refine ⟨hversion, hpOwner, hpType, hpSalt ▸ toIeee754Int_lt _, rfl, rfl, rfl, ?_, ?_, ?_⟩
    · intro hpost
      rcases hrests with (hpost' | hgtc) | hgtd
      · rw [hpost'] at hpost
        cases hpost
      · exact .inl hgtc
      · exact .inr hgtd
    · intro hnot
      have hle : b.expiration.getD 0 ≤ 0 := hgtd.resolve_left hnot
      rw [hpExpiration]
      omega
    · rw [hpExpiration]
      exact hseconds
  · rintro rfl
    cases hamounts
  · obtain ⟨notional, hmul, hparts⟩ := amounts_eq_ok hamounts
    unfold OrderPayload.Trades OrderPayload.shares OrderPayload.collateral
    rw [hpSide, hpMaker, hpTaker]
    obtain ⟨rfl, rfl, rfl⟩ | ⟨rfl, rfl, rfl⟩ := hparts
    · exact exact_iff hlawful hlots hgrid hmul htaker hmaker
    · exact exact_iff hlawful hlots hgrid hmul hmaker htaker

/-! ## A sample order -/

def sampleCrates : Crates := ⟨halfEvenArithmetic, rescaling, fun _ => "1970-01-01 00:00:00 UTC"⟩

theorem sampleCrates_lawful : sampleCrates.Lawful :=
  ⟨halfEvenArithmetic_lawful, rescaling_lawful⟩

def sampleAnswers : Answers := ⟨fun _ => .ok .hundredth, .ok 2, fun _ => .ok 0, some 1754611200000⟩

/-- `12.5` shares are bought at `0.42`. -/
def sampleBuilder : OrderBuilder where
  signer := 7
  signatureType := .eoa
  saltGenerator := 18446744073709551615
  tokenId := some 42
  price := some (dec 42 2)
  size := some (dec 125 1)
  side := some .buy
  orderType := some .fak

def sampleSignable : SignableOrder where
  payload := .v2 {
    salt := 9007199254740991, maker := 7, signer := 7, tokenId := 42, makerAmount := 5250000,
    takerAmount := 12500000, side := 0, signatureType := 0, timestamp := 1754611200000,
    metadata := 0, builder := 0 } 0
  orderType := .fak
  postOnly := some false
  deferExec := none

theorem limit_order_exact_bought :
    sampleBuilder.build sampleAnswers sampleCrates = .ok sampleSignable ∧
      Placed sampleBuilder sampleAnswers sampleSignable :=
  have hbuild : sampleBuilder.build sampleAnswers sampleCrates = .ok sampleSignable := by
    decide +kernel
  ⟨hbuild, ((limit_order_exact sampleCrates_lawful sampleBuilder sampleAnswers).2 _ hbuild).1⟩

end Sdk

end Rspm
