/-
  The REST pages and the private socket draw the same boundary.

  `SharedMakerOrder`, `SharedTrade` and `SharedOrder` hold the fields that both
  channels carry and check; `Valid` is what a decoder of either channel asks of
  them.  Each decoder accepts exactly what is valid, given that its other labels
  are, and leaves the shared fields as they are.
-/
import Rspm.Lib.Decoding
import Rspm.Auth.Decode

namespace Rspm

open Decoding

/-! ## What the channels share -/

structure SharedMakerOrder where
  orderId : String
  matchedAmount : ℚ
  price : ℚ
  feeRateBps : Option ℚ
  feeUsdc : Option ℚ

structure SharedTrade where
  id : String
  takerOrderId : String
  size : ℚ
  price : ℚ
  feeRateBps : ℚ
  feeUsdc : Option ℚ
  makerOrders : List SharedMakerOrder

structure SharedOrder where
  id : String
  originalSize : ℚ
  sizeMatched : ℚ
  price : ℚ
  associateTrades : List String

structure SharedMakerOrder.Valid (order : SharedMakerOrder) : Prop where
  orderId : venueIdentifierIsValid order.orderId
  matchedAmount : 0 ≤ order.matchedAmount
  price : 0 ≤ order.price ∧ order.price ≤ 1
  feeRateBps : ∀ fee ∈ order.feeRateBps, 0 ≤ fee
  feeUsdc : ∀ fee ∈ order.feeUsdc, 0 ≤ fee

structure SharedTrade.Valid (trade : SharedTrade) : Prop where
  id : venueIdentifierIsValid trade.id
  takerOrderId : venueIdentifierIsValid trade.takerOrderId
  size : 0 ≤ trade.size
  price : 0 ≤ trade.price ∧ trade.price ≤ 1
  feeRateBps : 0 ≤ trade.feeRateBps
  feeUsdc : ∀ fee ∈ trade.feeUsdc, 0 ≤ fee
  makerOrders : ∀ order ∈ trade.makerOrders, order.Valid

structure SharedOrder.Valid (order : SharedOrder) : Prop where
  id : venueIdentifierIsValid order.id
  originalSize : 0 < order.originalSize
  sizeMatched : 0 ≤ order.sizeMatched ∧ order.sizeMatched ≤ order.originalSize
  price : 0 < order.price ∧ order.price ≤ 1
  associateTrades : ∀ tradeId ∈ order.associateTrades, venueIdentifierIsValid tradeId

/-! ## Maker legs -/

def Trades.WireMakerOrder.shared (order : WireMakerOrder) : SharedMakerOrder :=
  ⟨order.orderId, order.matchedAmount, order.price, order.feeRateBps, order.feeUsdc⟩

def AuthenticatedMakerOrder.shared (order : AuthenticatedMakerOrder) : SharedMakerOrder :=
  ⟨order.orderId, order.matchedAmount, order.price, order.feeRateBps, order.feeUsdc⟩

def Wire.WireMakerOrder.shared (order : WireMakerOrder) : SharedMakerOrder :=
  ⟨order.orderId, order.matchedAmount, order.price, order.feeRateBps, order.feeUsdc⟩

def AuthenticatedUserMakerOrder.shared (order : AuthenticatedUserMakerOrder) : SharedMakerOrder :=
  ⟨order.orderId, order.matchedAmount, order.price, order.feeRateBps, order.feeUsdc⟩

/-- What both channels carry of a leg and do not check. -/
abbrev MakerInstrument := U256 × ApiKey × ClobSide

def Trades.WireMakerOrder.instrument (order : WireMakerOrder) : MakerInstrument :=
  (order.assetId, order.owner, order.side)

def AuthenticatedMakerOrder.instrument (order : AuthenticatedMakerOrder) : MakerInstrument :=
  (order.assetId, order.owner, order.side)

def Wire.WireMakerOrder.instrument (order : WireMakerOrder) : MakerInstrument :=
  (order.assetId, order.owner, order.side)

def AuthenticatedUserMakerOrder.instrument (order : AuthenticatedUserMakerOrder) :
    MakerInstrument :=
  (order.assetId, order.owner, order.side)

theorem any_neg {fee : Option ℚ} : fee.any (· < 0) = false ↔ ∀ x ∈ fee, 0 ≤ x := by
  cases fee <;> simp

theorem Trades.WireMakerOrder.invalidField_eq_none {order : WireMakerOrder} :
    order.invalidField = none ↔ order.shared.Valid := by
  unfold invalidField
  constructor
  · intro h
    split_ifs at h with h₁ h₂ h₃ h₄ h₅
    simp only [Bool.or_eq_true, decide_eq_true_eq, not_or, not_lt] at h₃
    rw [Bool.not_eq_true', Bool.not_eq_false] at h₁
    exact ⟨h₁, not_lt.1 h₂, h₃, any_neg.1 (Bool.eq_false_of_not_eq_true h₄),
      any_neg.1 (Bool.eq_false_of_not_eq_true h₅)⟩
  · rintro ⟨h₁, h₂, h₃, h₄, h₅⟩
    simp only [shared] at h₁ h₂ h₃ h₄ h₅
    simp [h₁, not_lt.2 h₂, not_lt.2 h₃.1, not_lt.2 h₃.2, any_neg.2 h₄, any_neg.2 h₅]

namespace AuthenticatedMakerOrder

variable {tradeIndex makerIndex : ℕ} {order : Trades.WireMakerOrder}

theorem tryFromWire_accepts :
    (∃ order', tryFromWire tradeIndex makerIndex order = .ok order') ↔ order.shared.Valid := by
  rw [← Trades.WireMakerOrder.invalidField_eq_none]
  unfold tryFromWire
  cases order.invalidField <;> simp

theorem tryFromWire_keeps {order' : AuthenticatedMakerOrder}
    (h : tryFromWire tradeIndex makerIndex order = .ok order') :
    order'.shared = order.shared ∧ order'.instrument = order.instrument := by
  unfold tryFromWire at h
  split at h
  · cases h
  · cases h
    exact ⟨rfl, rfl⟩

end AuthenticatedMakerOrder

namespace AuthenticatedUserMakerOrder

variable {order : Wire.WireMakerOrder}

theorem tryFrom_accepts (ho : optionalOutcomeIsValid order.outcome) :
    (∃ order', tryFrom order = .ok order') ↔ order.shared.Valid := by
  unfold tryFrom
  simp only [ho, Bool.not_true, Bool.or_false]
  constructor
  · intro h
    split_ifs at h with hc
    · obtain ⟨order', h⟩ := h
      cases h
    · simp only [Bool.or_eq_true, Bool.not_eq_true', decide_eq_true_eq, not_or, not_lt,
        Bool.not_eq_false, Bool.not_eq_true] at hc
      obtain ⟨⟨⟨⟨⟨h₁, h₂⟩, h₃⟩, h₄⟩, h₅⟩, h₆⟩ := hc
      exact ⟨h₁, h₂, ⟨h₃, h₄⟩, any_neg.1 h₅, any_neg.1 h₆⟩
  · rintro ⟨h₁, h₂, h₃, h₄, h₅⟩
    simp only [Wire.WireMakerOrder.shared] at h₁ h₂ h₃ h₄ h₅
    simp [h₁, not_lt.2 h₂, not_lt.2 h₃.1, not_lt.2 h₃.2, any_neg.2 h₄, any_neg.2 h₅]

theorem tryFrom_keeps {order' : AuthenticatedUserMakerOrder} (h : tryFrom order = .ok order') :
    order'.shared = order.shared ∧ order'.instrument = order.instrument := by
  unfold tryFrom at h
  split at h
  · cases h
  · cases h
    exact ⟨rfl, rfl⟩

end AuthenticatedUserMakerOrder

/-! ## Trades -/

def Trades.WireTrade.shared (trade : WireTrade) : SharedTrade :=
  ⟨trade.id, trade.takerOrderId, trade.size, trade.price, trade.feeRateBps, trade.feeUsdc,
    trade.makerOrders.map (·.shared)⟩

def AuthenticatedTrade.shared (trade : AuthenticatedTrade) : SharedTrade :=
  ⟨trade.id, trade.takerOrderId, trade.size, trade.price, trade.feeRateBps, trade.feeUsdc,
    trade.makerOrders.map (·.shared)⟩

/-- `none` if the frame leaves out the taker order or the fee rate, which a page always has. -/
def Wire.WireTrade.shared (trade : WireTrade) : Option SharedTrade := do
  let takerOrderId ← trade.takerOrderId
  let feeRateBps ← trade.feeRateBps
  return ⟨trade.id, takerOrderId, trade.size, trade.price, feeRateBps, trade.feeUsdc,
    trade.makerOrders.map (·.shared)⟩

def AuthenticatedUserTrade.shared (trade : AuthenticatedUserTrade) : Option SharedTrade := do
  let takerOrderId ← trade.takerOrderId
  let feeRateBps ← trade.feeRateBps
  return ⟨trade.id, takerOrderId, trade.size, trade.price, feeRateBps, trade.feeUsdc,
    trade.makerOrders.map (·.shared)⟩

/-- What both channels carry of a trade or an order and do not check. -/
abbrev Instrument := B256 × U256 × ClobSide

abbrev TradeInstrument := Instrument × List MakerInstrument

def Trades.WireTrade.instrument (trade : WireTrade) : TradeInstrument :=
  ((trade.market, trade.assetId, trade.side), trade.makerOrders.map (·.instrument))

def AuthenticatedTrade.instrument (trade : AuthenticatedTrade) : TradeInstrument :=
  ((trade.market, trade.assetId, trade.side), trade.makerOrders.map (·.instrument))

def Wire.WireTrade.instrument (trade : WireTrade) : TradeInstrument :=
  ((trade.market, trade.assetId, trade.side), trade.makerOrders.map (·.instrument))

def AuthenticatedUserTrade.instrument (trade : AuthenticatedUserTrade) : TradeInstrument :=
  ((trade.market, trade.assetId, trade.side), trade.makerOrders.map (·.instrument))

/-- The labels that only a frame checks. -/
structure Wire.WireTrade.LabelsAccepted (trade : WireTrade) : Prop where
  messageType : trade.messageType.isSome
  outcome : optionalOutcomeIsValid trade.outcome
  makerOrders : ∀ order ∈ trade.makerOrders, optionalOutcomeIsValid order.outcome

theorem Trades.WireTrade.invalidField_eq_none {trade : WireTrade} :
    trade.invalidField = none ∧ (∀ order ∈ trade.makerOrders, order.shared.Valid) ↔
      trade.shared.Valid := by
  unfold invalidField
  constructor
  · rintro ⟨h, hlegs⟩
    split_ifs at h with h₁ h₂ h₃ h₄ h₅ h₆
    simp only [Bool.or_eq_true, decide_eq_true_eq, not_or, not_lt] at h₄
    rw [Bool.not_eq_true', Bool.not_eq_false] at h₁ h₂
    refine ⟨h₁, h₂, not_lt.1 h₃, h₄, not_lt.1 h₅,
      any_neg.1 (Bool.eq_false_of_not_eq_true h₆), ?_⟩
    simpa [shared] using hlegs
  · rintro ⟨h₁, h₂, h₃, h₄, h₅, h₆, hlegs⟩
    simp only [shared, List.forall_mem_map] at h₁ h₂ h₃ h₄ h₅ h₆ hlegs
    refine ⟨?_, hlegs⟩
    simp [h₁, h₂, not_lt.2 h₃, not_lt.2 h₄.1, not_lt.2 h₄.2, not_lt.2 h₅, any_neg.2 h₆]

namespace AuthenticatedTrade

variable {tradeIndex : ℕ} {trade : Trades.WireTrade}

theorem tryFromWire_accepts :
    (∃ trade', tryFromWire tradeIndex trade = .ok trade') ↔ trade.shared.Valid := by
  rw [← Trades.WireTrade.invalidField_eq_none]
  have hlegs : (∃ orders, (trade.makerOrders.zipIdx.mapM fun order =>
      AuthenticatedMakerOrder.tryFromWire tradeIndex order.2 order.1) = .ok orders) ↔
      ∀ order ∈ trade.makerOrders, order.shared.Valid := by
    rw [mapM_accepts]
    simp only [AuthenticatedMakerOrder.tryFromWire_accepts]
    rw [← List.forall_mem_map (f := Prod.fst)
      (P := fun order : Trades.WireMakerOrder => order.shared.Valid), List.zipIdx_map_fst]
  rw [← hlegs]
  unfold tryFromWire
  cases trade.invalidField with
  | some field => simp
  | none =>
    simp only [true_and]
    constructor
    · rintro ⟨trade', h⟩
      cases ho : trade.makerOrders.zipIdx.mapM fun order =>
          AuthenticatedMakerOrder.tryFromWire tradeIndex order.2 order.1 with
      | error error =>
        rw [ho] at h
        cases h
      | ok orders => exact ⟨orders, rfl⟩
    · rintro ⟨orders, ho⟩
      rw [ho]
      exact ⟨_, rfl⟩

/-- A leg and its index. -/
theorem map_zipIdx {β : Type} (g : Trades.WireMakerOrder → β)
    (orders : List Trades.WireMakerOrder) :
    orders.zipIdx.map (fun order => g order.1) = orders.map g := by
  conv_rhs => rw [← List.zipIdx_map_fst 0 orders, List.map_map]
  rfl

theorem tryFromWire_keeps {trade' : AuthenticatedTrade}
    (h : tryFromWire tradeIndex trade = .ok trade') :
    trade'.shared = trade.shared ∧ trade'.instrument = trade.instrument := by
  unfold tryFromWire at h
  split at h
  · cases h
  · cases ho : trade.makerOrders.zipIdx.mapM fun order =>
        AuthenticatedMakerOrder.tryFromWire tradeIndex order.2 order.1 with
    | error error =>
      rw [ho] at h
      cases h
    | ok orders =>
      have hshared : orders.map (·.shared) = trade.makerOrders.map (·.shared) :=
        (mapM_map (fun _ _ h => (AuthenticatedMakerOrder.tryFromWire_keeps h).1) ho).trans
          (map_zipIdx _ _)
      have hinstrument : orders.map (·.instrument) = trade.makerOrders.map (·.instrument) :=
        (mapM_map (fun _ _ h => (AuthenticatedMakerOrder.tryFromWire_keeps h).2) ho).trans
          (map_zipIdx _ _)
      rw [ho] at h
      cases h
      simp only [shared, Trades.WireTrade.shared, instrument, Trades.WireTrade.instrument, hshared,
        hinstrument, and_self]

end AuthenticatedTrade

namespace AuthenticatedUserTrade

variable {trade : Wire.WireTrade} {s : SharedTrade}

theorem shared_eq_some (h : trade.shared = some s) : trade.takerOrderId = some s.takerOrderId ∧
    trade.feeRateBps = some s.feeRateBps ∧ trade.id = s.id ∧ trade.size = s.size ∧
    trade.price = s.price ∧ trade.feeUsdc = s.feeUsdc ∧
    trade.makerOrders.map (·.shared) = s.makerOrders := by
  unfold Wire.WireTrade.shared at h
  cases htaker : trade.takerOrderId with
  | none =>
    rw [htaker] at h
    cases h
  | some takerOrderId =>
    cases hfee : trade.feeRateBps with
    | none =>
      rw [htaker, hfee] at h
      cases h
    | some feeRateBps =>
      rw [htaker, hfee] at h
      cases h
      exact ⟨rfl, rfl, rfl, rfl, rfl, rfl, rfl⟩

theorem tryFrom_accepts (h : trade.shared = some s) (hl : trade.LabelsAccepted) :
    (∃ trade', tryFrom trade = .ok trade') ↔ s.Valid := by
  obtain ⟨htaker, hfee, hid, hsize, hprice, husdc, hlegs⟩ := shared_eq_some h
  have hmakers :
      (∃ orders, trade.makerOrders.mapM AuthenticatedUserMakerOrder.tryFrom = .ok orders) ↔
      ∀ order ∈ s.makerOrders, order.Valid := by
    rw [mapM_accepts, ← hlegs, List.forall_mem_map]
    exact forall₂_congr fun order ho =>
      AuthenticatedUserMakerOrder.tryFrom_accepts (hl.makerOrders order ho)
  have hlabel : trade.messageType.isNone = false := by
    simpa [← Option.not_isSome] using hl.messageType
  unfold tryFrom
  simp only [htaker, hfee, hid, hsize, hprice, husdc, hlabel, hl.outcome, Option.any_some,
    Bool.not_true, Bool.or_false]
  constructor
  · intro haccept
    split_ifs at haccept with hc
    · obtain ⟨trade', haccept⟩ := haccept
      cases haccept
    · simp only [Bool.or_eq_true, Bool.not_eq_true', decide_eq_true_eq, not_or, not_lt,
        Bool.not_eq_false, Bool.not_eq_true] at hc
      obtain ⟨⟨⟨⟨⟨⟨h₁, h₂⟩, h₃⟩, h₄⟩, h₅⟩, h₆⟩, h₇⟩ := hc
      refine ⟨h₁, h₂, h₃, ⟨h₄, h₅⟩, h₆, any_neg.1 h₇, hmakers.1 ?_⟩
      obtain ⟨trade', haccept⟩ := haccept
      cases ho : trade.makerOrders.mapM AuthenticatedUserMakerOrder.tryFrom with
      | error error =>
        rw [ho] at haccept
        cases haccept
      | ok orders => exact ⟨orders, rfl⟩
  · rintro ⟨h₁, h₂, h₃, h₄, h₅, h₆, h₇⟩
    obtain ⟨orders, ho⟩ := hmakers.2 h₇
    simp only [h₁, h₂, not_lt.2 h₃, not_lt.2 h₄.1, not_lt.2 h₄.2, not_lt.2 h₅, any_neg.2 h₆,
      decide_false, Bool.not_true, Bool.or_false, Bool.false_eq_true, if_false, ho]
    exact ⟨_, rfl⟩

theorem tryFrom_keeps {trade' : AuthenticatedUserTrade} (h : tryFrom trade = .ok trade') :
    trade'.shared = trade.shared ∧ trade'.instrument = trade.instrument := by
  unfold tryFrom at h
  split at h
  · cases h
  · cases ho : trade.makerOrders.mapM AuthenticatedUserMakerOrder.tryFrom with
    | error error =>
      rw [ho] at h
      cases h
    | ok orders =>
      have hshared : orders.map (·.shared) = trade.makerOrders.map (·.shared) :=
        mapM_map (fun _ _ h => (AuthenticatedUserMakerOrder.tryFrom_keeps h).1) ho
      have hinstrument : orders.map (·.instrument) = trade.makerOrders.map (·.instrument) :=
        mapM_map (fun _ _ h => (AuthenticatedUserMakerOrder.tryFrom_keeps h).2) ho
      rw [ho] at h
      cases h
      simp only [shared, Wire.WireTrade.shared, instrument, Wire.WireTrade.instrument, hshared,
        hinstrument, and_self]

end AuthenticatedUserTrade

/-! ## Orders -/

def Orders.WireOrder.shared (order : WireOrder) : SharedOrder :=
  ⟨order.id, order.originalSize, order.sizeMatched, order.price, order.associateTrades⟩

def AuthenticatedOrder.shared (order : AuthenticatedOrder) : SharedOrder :=
  ⟨order.id, order.originalSize, order.sizeMatched, order.price, order.associateTrades⟩

/-- `none` if the frame leaves out a size; trades that are left out are none. -/
def Wire.WireOrder.shared (order : WireOrder) : Option SharedOrder := do
  let originalSize ← order.originalSize
  let sizeMatched ← order.sizeMatched
  return ⟨order.id, originalSize, sizeMatched, order.price, order.associatedTrades.getD []⟩

def AuthenticatedUserOrder.shared (order : AuthenticatedUserOrder) : Option SharedOrder := do
  let originalSize ← order.originalSize
  let sizeMatched ← order.sizeMatched
  return ⟨order.id, originalSize, sizeMatched, order.price, order.associatedTrades.getD []⟩

def Orders.WireOrder.instrument (order : WireOrder) : Instrument :=
  (order.market, order.assetId, order.side)

def AuthenticatedOrder.instrument (order : AuthenticatedOrder) : Instrument :=
  (order.market, order.assetId, order.side)

def Wire.WireOrder.instrument (order : WireOrder) : Instrument :=
  (order.market, order.assetId, order.side)

def AuthenticatedUserOrder.instrument (order : AuthenticatedUserOrder) : Instrument :=
  (order.market, order.assetId, order.side)

/-- What only a page has and checks. -/
structure Orders.WireOrder.RestOnlyValid (order : WireOrder) : Prop where
  createdAt : 0 ≤ order.createdAt
  expiration : 0 ≤ order.expiration
  outcome : order.outcome.isEmpty = false
  orderType : order.orderType.isEmpty = false

namespace AuthenticatedOrder

variable {order : Orders.WireOrder}

theorem tryFrom_accepts (ho : order.RestOnlyValid) :
    (∃ order', tryFrom order = .ok order') ↔ order.shared.Valid := by
  unfold tryFrom
  simp only [decide_eq_true ho.createdAt, decide_eq_true ho.expiration, ho.outcome, ho.orderType,
    Bool.not_false, Bool.and_true]
  constructor
  · intro h
    split_ifs at h with hc
    · obtain ⟨order', h⟩ := h
      cases h
    · simp only [Bool.not_eq_true', Bool.not_eq_false, Bool.and_eq_true, decide_eq_true_eq,
        List.all_eq_true] at hc
      obtain ⟨⟨⟨⟨⟨⟨h₁, h₂⟩, h₃⟩, h₄⟩, h₅⟩, h₆⟩, h₇⟩ := hc
      exact ⟨h₁, h₂, ⟨h₃, h₄⟩, ⟨h₅, h₆⟩, h₇⟩
  · rintro ⟨h₁, h₂, h₃, h₄, h₅⟩
    simp only [Orders.WireOrder.shared] at h₁ h₂ h₃ h₄ h₅
    simp [h₁, h₂, h₃, h₄, List.all_eq_true.2 h₅]

theorem tryFrom_keeps {order' : AuthenticatedOrder} (h : tryFrom order = .ok order') :
    order'.shared = order.shared ∧ order'.instrument = order.instrument := by
  unfold tryFrom at h
  dsimp only at h
  split at h
  · cases h
  · cases h
    exact ⟨rfl, rfl⟩

end AuthenticatedOrder

namespace AuthenticatedUserOrder

variable {order : Wire.WireOrder} {s : SharedOrder}

theorem shared_eq_some (h : order.shared = some s) : order.originalSize = some s.originalSize ∧
    order.sizeMatched = some s.sizeMatched ∧ order.id = s.id ∧ order.price = s.price ∧
    order.associatedTrades.getD [] = s.associateTrades := by
  unfold Wire.WireOrder.shared at h
  cases horiginal : order.originalSize with
  | none =>
    rw [horiginal] at h
    cases h
  | some originalSize =>
    cases hmatched : order.sizeMatched with
    | none =>
      rw [horiginal, hmatched] at h
      cases h
    | some sizeMatched =>
      rw [horiginal, hmatched] at h
      cases h
      exact ⟨rfl, rfl, rfl, rfl, rfl⟩

theorem tryFrom_accepts (h : order.shared = some s) (ho : optionalOutcomeIsValid order.outcome) :
    (∃ order', tryFrom order = .ok order') ↔ s.Valid := by
  obtain ⟨horiginal, hmatched, hid, hprice, htrades⟩ := shared_eq_some h
  have hassociated : order.associatedTrades.all (·.all venueIdentifierIsValid) =
      s.associateTrades.all venueIdentifierIsValid := by
    rw [← htrades]
    cases order.associatedTrades <;> simp
  unfold tryFrom Wire.WireOrder.sizeValid
  simp only [horiginal, hmatched, hid, hprice, hassociated, ho, Bool.not_true, Bool.or_false]
  constructor
  · intro h
    split_ifs at h with hc
    · obtain ⟨order', h⟩ := h
      cases h
    · simp only [Bool.or_eq_true, Bool.not_eq_true', decide_eq_true_eq, not_or, not_lt, not_le,
        Bool.not_eq_false, Bool.and_eq_true, List.all_eq_true] at hc
      obtain ⟨⟨⟨⟨h₁, h₂⟩, h₃⟩, ⟨h₄, h₅⟩, h₆⟩, h₇⟩ := hc
      exact ⟨h₁, h₄, ⟨h₅, h₆⟩, ⟨h₂, h₃⟩, h₇⟩
  · rintro ⟨h₁, h₂, h₃, h₄, h₅⟩
    simp [h₁, h₂, h₃, not_le.2 h₄.1, not_lt.2 h₄.2, List.all_eq_true.2 h₅]

theorem tryFrom_keeps {order' : AuthenticatedUserOrder} (h : tryFrom order = .ok order') :
    order'.shared = order.shared ∧ order'.instrument = order.instrument := by
  unfold tryFrom at h
  dsimp only at h
  split at h
  · cases h
  · cases h
    exact ⟨rfl, rfl⟩

end AuthenticatedUserOrder

/-! ## The agreement -/

/-- Where the shared fields of a trade, a leg or an order are the same, and the labels of either
    channel are accepted, both channels accept or both refuse, and what they accept is the same. -/
theorem rest_ws_agree :
    (∀ tradeIndex trade trade',
      Wire.WireTrade.shared trade' = some (Trades.WireTrade.shared trade) →
      trade'.LabelsAccepted →
        ((∃ a, AuthenticatedTrade.tryFromWire tradeIndex trade = .ok a) ↔
          ∃ a', AuthenticatedUserTrade.tryFrom trade' = .ok a') ∧
        ∀ a a', AuthenticatedTrade.tryFromWire tradeIndex trade = .ok a →
          AuthenticatedUserTrade.tryFrom trade' = .ok a' → a'.shared = some a.shared ∧
            (trade'.instrument = trade.instrument → a'.instrument = a.instrument)) ∧
    (∀ tradeIndex makerIndex order order',
      Wire.WireMakerOrder.shared order' = Trades.WireMakerOrder.shared order →
      optionalOutcomeIsValid order'.outcome →
        ((∃ a, AuthenticatedMakerOrder.tryFromWire tradeIndex makerIndex order = .ok a) ↔
          ∃ a', AuthenticatedUserMakerOrder.tryFrom order' = .ok a') ∧
        ∀ a a', AuthenticatedMakerOrder.tryFromWire tradeIndex makerIndex order = .ok a →
          AuthenticatedUserMakerOrder.tryFrom order' = .ok a' → a'.shared = a.shared ∧
            (order'.instrument = order.instrument → a'.instrument = a.instrument)) ∧
    ∀ order order', Wire.WireOrder.shared order' = some (Orders.WireOrder.shared order) →
      optionalOutcomeIsValid order'.outcome → order.RestOnlyValid →
        ((∃ a, AuthenticatedOrder.tryFrom order = .ok a) ↔
          ∃ a', AuthenticatedUserOrder.tryFrom order' = .ok a') ∧
        ∀ a a', AuthenticatedOrder.tryFrom order = .ok a →
          AuthenticatedUserOrder.tryFrom order' = .ok a' → a'.shared = some a.shared ∧
            (order'.instrument = order.instrument → a'.instrument = a.instrument) := by
  refine ⟨?_, ?_, ?_⟩
  · intro i trade trade' hs hl
    refine ⟨?_, fun a a' ha ha' => ?_⟩
    · rw [AuthenticatedTrade.tryFromWire_accepts, AuthenticatedUserTrade.tryFrom_accepts hs hl]
    · obtain ⟨hshared, hinstrument⟩ := AuthenticatedTrade.tryFromWire_keeps ha
      obtain ⟨hshared', hinstrument'⟩ := AuthenticatedUserTrade.tryFrom_keeps ha'
      exact ⟨by rw [hshared', hs, hshared], fun h => by rw [hinstrument', h, hinstrument]⟩
  · intro i j order order' hs ho
    refine ⟨?_, fun a a' ha ha' => ?_⟩
    · rw [AuthenticatedMakerOrder.tryFromWire_accepts,
        AuthenticatedUserMakerOrder.tryFrom_accepts ho, hs]
    · obtain ⟨hshared, hinstrument⟩ := AuthenticatedMakerOrder.tryFromWire_keeps ha
      obtain ⟨hshared', hinstrument'⟩ := AuthenticatedUserMakerOrder.tryFrom_keeps ha'
      exact ⟨by rw [hshared', hs, hshared], fun h => by rw [hinstrument', h, hinstrument]⟩
  · intro order order' hs ho hr
    refine ⟨?_, fun a a' ha ha' => ?_⟩
    · rw [AuthenticatedOrder.tryFrom_accepts hr, AuthenticatedUserOrder.tryFrom_accepts hs ho]
    · obtain ⟨hshared, hinstrument⟩ := AuthenticatedOrder.tryFrom_keeps ha
      obtain ⟨hshared', hinstrument'⟩ := AuthenticatedUserOrder.tryFrom_keeps ha'
      exact ⟨by rw [hshared', hs, hshared], fun h => by rw [hinstrument', h, hinstrument]⟩

/-! ## A trade of one leg, and an order, on both channels -/

def Trades.WireMakerOrder.sample : WireMakerOrder :=
  ⟨"0xB", 2, 3, 10, 1 / 2, none, none, 42, "Yes", .sell⟩

def Wire.WireMakerOrder.sample : WireMakerOrder :=
  ⟨42, 10, "0xB", 2, 1 / 2, .sell, none, some "Yes", none, none, none⟩

def Trades.WireTrade.sample : WireTrade where
  id := "T1"
  takerOrderId := "0xA"
  market := 5
  assetId := 42
  side := .buy
  size := 10
  feeRateBps := 0
  feeUsdc := none
  price := 1 / 2
  status := .confirmed
  matchTime := 1754611200
  lastUpdate := 1754611201
  outcome := "Yes"
  bucketIndex := 0
  owner := 1
  makerAddress := 3
  makerOrders := [.sample]
  transactionHash := 9
  traderSide := .taker
  errorMsg := none

def Wire.WireTrade.sample : WireTrade where
  id := "T1"
  market := 5
  assetId := 42
  side := .buy
  size := 10
  price := 1 / 2
  status := .confirmed
  messageType := some .trade
  lastUpdate := none
  matchtime := none
  timestamp := none
  owner := some 1
  tradeOwner := none
  takerOrderId := some "0xA"
  makerOrders := [.sample]
  feeRateBps := some 0
  feeUsdc := none
  traderSide := none
  outcome := some "Yes"
  makerAddress := none
  transactionHash := none
  bucketIndex := none

def Orders.WireOrder.sample : WireOrder :=
  ⟨"0xB", .live, 2, 3, 5, 42, .sell, 10, 4, 1 / 2, 1754611200, 0, ["T1"], "Yes", "GTC"⟩

def Wire.WireOrder.sample : WireOrder :=
  ⟨"0xB", 5, 42, .sell, 1 / 2, none, some 10, some 4, none, some ["T1"], none, none, none,
    some "Yes", none, none, none, none⟩

theorem sample_leg_valid : Trades.WireMakerOrder.sample.shared.Valid where
  orderId := by decide
  matchedAmount := by norm_num [Trades.WireMakerOrder.sample, Trades.WireMakerOrder.shared]
  price := by norm_num [Trades.WireMakerOrder.sample, Trades.WireMakerOrder.shared]
  feeRateBps := by simp [Trades.WireMakerOrder.sample, Trades.WireMakerOrder.shared]
  feeUsdc := by simp [Trades.WireMakerOrder.sample, Trades.WireMakerOrder.shared]

theorem sample_trade_valid : Trades.WireTrade.sample.shared.Valid where
  id := by decide
  takerOrderId := by decide
  size := by norm_num [Trades.WireTrade.sample, Trades.WireTrade.shared]
  price := by norm_num [Trades.WireTrade.sample, Trades.WireTrade.shared]
  feeRateBps := le_rfl
  feeUsdc := by simp [Trades.WireTrade.sample, Trades.WireTrade.shared]
  makerOrders := by
    intro order hm
    obtain rfl := List.mem_singleton.1 hm
    exact sample_leg_valid

theorem sample_order_valid : Orders.WireOrder.sample.shared.Valid where
  id := by decide
  originalSize := by norm_num [Orders.WireOrder.sample, Orders.WireOrder.shared]
  sizeMatched := by norm_num [Orders.WireOrder.sample, Orders.WireOrder.shared]
  price := by norm_num [Orders.WireOrder.sample, Orders.WireOrder.shared]
  associateTrades := by
    intro tradeId hm
    obtain rfl := List.mem_singleton.1 hm
    decide

/-- Both channels accept the samples, and make the same of them. -/
theorem rest_ws_agree_sample :
    (∃ a a', AuthenticatedTrade.tryFromWire 0 .sample = .ok a ∧
      AuthenticatedUserTrade.tryFrom .sample = .ok a' ∧ a'.shared = some a.shared ∧
        a'.instrument = a.instrument) ∧
    (∃ a a', AuthenticatedMakerOrder.tryFromWire 0 0 .sample = .ok a ∧
      AuthenticatedUserMakerOrder.tryFrom .sample = .ok a' ∧ a'.shared = a.shared ∧
        a'.instrument = a.instrument) ∧
    ∃ a a', AuthenticatedOrder.tryFrom .sample = .ok a ∧
      AuthenticatedUserOrder.tryFrom .sample = .ok a' ∧ a'.shared = some a.shared ∧
        a'.instrument = a.instrument := by
  obtain ⟨htrades, hlegs, horders⟩ := rest_ws_agree
  have houtcome : optionalOutcomeIsValid (some "Yes") = true := by decide
  have hlabels : Wire.WireTrade.sample.LabelsAccepted := by
    refine ⟨rfl, houtcome, fun order hm => ?_⟩
    obtain rfl := List.mem_singleton.1 hm
    exact houtcome
  have hrest : Orders.WireOrder.sample.RestOnlyValid :=
    ⟨by decide, le_rfl, by decide, by decide⟩
  refine ⟨?_, ?_, ?_⟩
  · obtain ⟨hiff, hsame⟩ := htrades 0 .sample .sample rfl hlabels
    obtain ⟨a, ha⟩ := AuthenticatedTrade.tryFromWire_accepts.2 sample_trade_valid
    obtain ⟨a', ha'⟩ := hiff.1 ⟨a, ha⟩
    obtain ⟨hshared, hinstrument⟩ := hsame a a' ha ha'
    exact ⟨a, a', ha, ha', hshared, hinstrument rfl⟩
  · obtain ⟨hiff, hsame⟩ := hlegs 0 0 .sample .sample rfl houtcome
    obtain ⟨a, ha⟩ := AuthenticatedMakerOrder.tryFromWire_accepts.2 sample_leg_valid
    obtain ⟨a', ha'⟩ := hiff.1 ⟨a, ha⟩
    obtain ⟨hshared, hinstrument⟩ := hsame a a' ha ha'
    exact ⟨a, a', ha, ha', hshared, hinstrument rfl⟩
  · obtain ⟨hiff, hsame⟩ := horders .sample .sample rfl houtcome hrest
    obtain ⟨a, ha⟩ := (AuthenticatedOrder.tryFrom_accepts hrest).2 sample_order_valid
    obtain ⟨a', ha'⟩ := hiff.1 ⟨a, ha⟩
    obtain ⟨hshared, hinstrument⟩ := hsame a a' ha ha'
    exact ⟨a, a', ha, ha', hshared, hinstrument rfl⟩

end Rspm
