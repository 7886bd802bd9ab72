/-
  Pages of the trade history: all of the page or nothing, and the first error
  located.

  A page is checked as a whole, then trade by trade, and each trade before its
  maker legs.  `tradePage_decode`: what is accepted, what it becomes, and which
  element and field the path of the error names.
-/
import Rspm.Lib.Decoding
import Rspm.Auth.Decode

namespace Rspm

open Decoding

def terminalCursor : String := "LTE="
def maxPageLimit : ℕ := 1000

def cursorIsTerminal (cursor : String) : Bool := cursor.isEmpty || cursor = terminalCursor

def cursorIsValid (cursor : String) : Bool :=
  !cursor.isEmpty && cursor.utf8ByteSize ≤ 1024 &&
    cursor.toList.all fun byte => byte.isAlphanum || byte = '+' || byte = '/' || byte = '='

def validatePage (endpoint : AuthenticatedEndpoint) (dataLen count limit : ℕ)
    (nextCursor : String) : Except AuthenticatedEndpointError Unit :=
  let countMatches := decide (count = dataLen)
  let bounded := limit ≠ 0 && limit ≤ maxPageLimit && count ≤ limit && dataLen ≤ limit
  let cursorValid := cursorIsTerminal nextCursor || cursorIsValid nextCursor
  if !countMatches || !bounded || !cursorValid ||
      (dataLen = 0 && !cursorIsTerminal nextCursor) then .error (.requestFailed endpoint)
  else .ok ()

structure Trades.WireTradePage where
  data : List Trades.WireTrade
  nextCursor : String
  limit : ℕ
  count : ℕ

structure AuthenticatedTradePage where
  data : List AuthenticatedTrade
  nextCursor : String
  limit : ℕ
  count : ℕ

/-- `decode_json` from the page that the JSON reader returns. -/
def AuthenticatedTradePage.ofWire (page : Trades.WireTradePage) :
    Except AuthenticatedEndpointError AuthenticatedTradePage := do
  validatePage .trades page.data.length page.count page.limit page.nextCursor
  let data ← page.data.zipIdx.mapM fun trade => AuthenticatedTrade.tryFromWire trade.2 trade.1
  return { data, nextCursor := page.nextCursor, limit := page.limit, count := page.count }

/-- `decode_json`.  `json` is `AuthenticatedEndpoint::decode` of the page. -/
def AuthenticatedTradePage.decodeJson
    (json : List UInt8 → Except AuthenticatedEndpointError Trades.WireTradePage)
    (body : List UInt8) : Except AuthenticatedEndpointError AuthenticatedTradePage := do
  let page ← json body
  AuthenticatedTradePage.ofWire page

/-! ## What a valid page is -/

/-- The first of the checks that fails. -/
def firstInvalid (checks : List (String × Bool)) : Option String :=
  (checks.find? fun check => !check.2).map Prod.fst

/-- The checked fields of a leg, in their order. -/
def Trades.WireMakerOrder.checks (order : WireMakerOrder) : List (String × Bool) :=
  [("order_id", venueIdentifierIsValid order.orderId),
    ("matched_amount", decide (0 ≤ order.matchedAmount)),
    ("price", decide (0 ≤ order.price ∧ order.price ≤ 1)),
    ("fee_rate_bps", decide (∀ fee ∈ order.feeRateBps, 0 ≤ fee)),
    ("fee_usdc", decide (∀ fee ∈ order.feeUsdc, 0 ≤ fee))]

/-- The checked fields of a trade, in their order. -/
def Trades.WireTrade.checks (trade : WireTrade) : List (String × Bool) :=
  [("id", venueIdentifierIsValid trade.id),
    ("taker_order_id", venueIdentifierIsValid trade.takerOrderId),
    ("size", decide (0 ≤ trade.size)),
    ("price", decide (0 ≤ trade.price ∧ trade.price ≤ 1)),
    ("fee_rate_bps", decide (0 ≤ trade.feeRateBps)),
    ("fee_usdc", decide (∀ fee ∈ trade.feeUsdc, 0 ≤ fee))]

@[simp] theorem firstInvalid_nil : firstInvalid [] = none := rfl

@[simp] theorem firstInvalid_cons (field : String) (b : Bool) (checks : List (String × Bool)) :
    firstInvalid ((field, b) :: checks) = if !b then some field else firstInvalid checks := by
  cases b <;> rfl

/-- No check fails, or the first that does names its field. -/
theorem firstInvalid_eq_none {checks : List (String × Bool)} :
    firstInvalid checks = none ↔ ∀ check ∈ checks, check.2 = true := by
  simp [firstInvalid]

theorem not_decide_forall_mem_nonneg (o : Option ℚ) :
    (!decide (∀ fee ∈ o, 0 ≤ fee)) = o.any (· < 0) := by
  cases o <;> simp [← not_le]

theorem not_decide_between (price : ℚ) :
    (!decide (0 ≤ price ∧ price ≤ 1)) = (decide (price < 0) || decide (price > 1)) := by
  by_cases h0 : 0 ≤ price
  · simp [h0, not_lt.2 h0, ← not_le]
  · simp [h0, not_le.1 h0]

theorem not_decide_nonneg (q : ℚ) : (!decide (0 ≤ q)) = decide (q < 0) := by
  simp [← not_le]

theorem Trades.WireMakerOrder.invalidField_eq (order : WireMakerOrder) :
    order.invalidField = firstInvalid order.checks := by
  simp only [checks, firstInvalid_cons, firstInvalid_nil, not_decide_forall_mem_nonneg,
    not_decide_between, not_decide_nonneg, decide_eq_true_eq]
  rfl

theorem Trades.WireTrade.invalidField_eq (trade : WireTrade) :
    trade.invalidField = firstInvalid trade.checks := by
  simp only [checks, firstInvalid_cons, firstInvalid_nil, not_decide_forall_mem_nonneg,
    not_decide_between, not_decide_nonneg, decide_eq_true_eq]
  rfl

def Trades.WireMakerOrder.Valid (order : WireMakerOrder) : Prop :=
  ∀ check ∈ order.checks, check.2 = true

/-- The own fields of the trade and its legs are valid. -/
def Trades.WireTrade.Valid (trade : WireTrade) : Prop :=
  (∀ check ∈ trade.checks, check.2 = true) ∧ ∀ order ∈ trade.makerOrders, order.Valid

/-- The arithmetic of the page, and its cursor. -/
structure Trades.WireTradePage.Framed (page : WireTradePage) : Prop where
  count : page.count = page.data.length
  limit_pos : 0 < page.limit
  limit_le : page.limit ≤ maxPageLimit
  count_le : page.count ≤ page.limit
  cursor : cursorIsTerminal page.nextCursor ∨ cursorIsValid page.nextCursor
  empty : page.data = [] → cursorIsTerminal page.nextCursor

theorem validatePage_eq_ok {page : Trades.WireTradePage} :
    validatePage .trades page.data.length page.count page.limit page.nextCursor = .ok () ↔
      page.Framed := by
  unfold validatePage
  dsimp only
  constructor
  · intro h
    split_ifs at h with hc
    simp only [Bool.or_eq_true, Bool.and_eq_true, Bool.not_eq_true', decide_eq_true_eq,
      decide_eq_false_iff_not, not_or, not_and, Bool.not_eq_false, List.length_eq_zero_iff,
      ne_eq] at hc
    obtain ⟨⟨⟨hcount, hbounded⟩, hcursor⟩, hempty⟩ := hc
    obtain ⟨⟨⟨hpos, hmax⟩, hcount'⟩, -⟩ := hbounded
    exact ⟨not_not.1 hcount, Nat.pos_of_ne_zero hpos, hmax, hcount', hcursor, hempty⟩
  · intro h
    rw [if_neg]
    simp only [Bool.or_eq_true, Bool.and_eq_true, Bool.not_eq_true', decide_eq_true_eq,
      decide_eq_false_iff_not, not_or, not_and, Bool.not_eq_false, List.length_eq_zero_iff]
    exact ⟨⟨⟨not_not.2 h.count, ⟨⟨h.limit_pos.ne', h.limit_le⟩, h.count_le⟩,
      h.count ▸ h.count_le⟩, h.cursor⟩, h.empty⟩

/-! ## What a trade becomes -/

/-- The leg that a decoded leg came from. -/
def AuthenticatedMakerOrder.wire (order : AuthenticatedMakerOrder) : Trades.WireMakerOrder where
  orderId := order.orderId
  owner := order.owner
  makerAddress := order.makerAddress
  matchedAmount := order.matchedAmount
  price := order.price
  feeRateBps := order.feeRateBps
  feeUsdc := order.feeUsdc
  assetId := order.assetId
  outcome := order.outcome
  side := order.side

/-- The trade that a decoded trade came from. -/
def AuthenticatedTrade.wire (trade : AuthenticatedTrade) : Trades.WireTrade where
  id := trade.id
  takerOrderId := trade.takerOrderId
  market := trade.market
  assetId := trade.assetId
  side := trade.side
  size := trade.size
  feeRateBps := trade.feeRateBps
  feeUsdc := trade.feeUsdc
  price := trade.price
  status := trade.status
  matchTime := trade.matchTime
  lastUpdate := trade.lastUpdate
  outcome := trade.outcome
  bucketIndex := trade.bucketIndex
  owner := trade.owner
  makerAddress := trade.makerAddress
  makerOrders := trade.makerOrders.map AuthenticatedMakerOrder.wire
  transactionHash := trade.transactionHash
  traderSide := trade.traderSide
  errorMsg := trade.errorMsg

namespace AuthenticatedMakerOrder

variable {tradeIndex makerIndex : ℕ} {order : Trades.WireMakerOrder}

theorem tryFromWire_eq_ok {order' : AuthenticatedMakerOrder}
    (h : tryFromWire tradeIndex makerIndex order = .ok order') : order'.wire = order := by
  unfold tryFromWire at h
  split at h
  · cases h
  · obtain rfl := Except.ok.inj h
    rfl

theorem tryFromWire_valid :
    (∃ order', tryFromWire tradeIndex makerIndex order = .ok order') ↔ order.Valid := by
  rw [Trades.WireMakerOrder.Valid, ← firstInvalid_eq_none, ← order.invalidField_eq]
  unfold tryFromWire
  cases order.invalidField <;> simp

/-- A leg that is refused: the error names its first invalid field. -/
theorem tryFromWire_eq_error {e : AuthenticatedEndpointError} :
    tryFromWire tradeIndex makerIndex order = .error e ↔
      ∃ field, firstInvalid order.checks = some field ∧
        indexedMakerSchemaError tradeIndex makerIndex field = e := by
  rw [← order.invalidField_eq]
  unfold tryFromWire
  cases order.invalidField <;> simp

end AuthenticatedMakerOrder

/-- The path to what is refused in a trade: its first invalid field, or the first invalid field of
    its first invalid leg. -/
inductive Trades.WireTrade.RefusedAt (tradeIndex : ℕ) (trade : WireTrade) :
    List ResponseSegment → Prop
  | field {field : String} (hfield : firstInvalid trade.checks = some field) :
      RefusedAt tradeIndex trade [⟨"data", [tradeIndex]⟩, ⟨field, []⟩]
  | leg {l₁ l₂ : List WireMakerOrder} {order : WireMakerOrder} {field : String}
      (hown : ∀ check ∈ trade.checks, check.2 = true)
      (hlegs : trade.makerOrders = l₁ ++ order :: l₂) (hfirst : ∀ order ∈ l₁, order.Valid)
      (hfield : firstInvalid order.checks = some field) :
      RefusedAt tradeIndex trade
        [⟨"data", [tradeIndex]⟩, ⟨"maker_orders", [l₁.length]⟩, ⟨field, []⟩]

namespace AuthenticatedTrade

variable {tradeIndex : ℕ} {trade : Trades.WireTrade}

/-- The legs are decoded as a whole. -/
theorem makerOrders_valid :
    (∃ orders, (trade.makerOrders.zipIdx.mapM fun order =>
      AuthenticatedMakerOrder.tryFromWire tradeIndex order.2 order.1) = .ok orders) ↔
      ∀ order ∈ trade.makerOrders, order.Valid := by
  rw [mapM_accepts]
  simp only [AuthenticatedMakerOrder.tryFromWire_valid]
  rw [← List.forall_mem_map (f := Prod.fst) (P := Trades.WireMakerOrder.Valid),
    List.zipIdx_map_fst]

theorem tryFromWire_eq_ok {trade' : AuthenticatedTrade}
    (h : tryFromWire tradeIndex trade = .ok trade') : trade.Valid ∧ trade'.wire = trade := by
  unfold tryFromWire at h
  split at h
  · cases h
  · next hnone =>
    rw [trade.invalidField_eq, firstInvalid_eq_none] at hnone
    cases ho : trade.makerOrders.zipIdx.mapM fun order =>
        AuthenticatedMakerOrder.tryFromWire tradeIndex order.2 order.1 with
    | error e =>
      rw [ho] at h
      cases h
    | ok orders =>
      rw [ho] at h
      obtain rfl := Except.ok.inj h
      have hlegs : orders.map AuthenticatedMakerOrder.wire = trade.makerOrders :=
        (mapM_map (fun _ _ h => AuthenticatedMakerOrder.tryFromWire_eq_ok h) ho).trans
          (List.zipIdx_map_fst 0 trade.makerOrders)
      refine ⟨⟨hnone, makerOrders_valid.1 ⟨orders, ho⟩⟩, ?_⟩
      simp only [wire, hlegs]

theorem tryFromWire_valid :
    (∃ trade', tryFromWire tradeIndex trade = .ok trade') ↔ trade.Valid := by
  constructor
  · rintro ⟨trade', h⟩
    exact (tryFromWire_eq_ok h).1
  · rintro ⟨hown, hlegs⟩
    obtain ⟨orders, ho⟩ := (@makerOrders_valid tradeIndex trade).2 hlegs
    have hnone : trade.invalidField = none := by
      rw [trade.invalidField_eq, firstInvalid_eq_none]
      exact hown
    unfold tryFromWire
    rw [hnone, ho]
    exact ⟨_, rfl⟩

/-- The legs are refused with the error of the first invalid one. -/
theorem makerOrders_eq_error {e : AuthenticatedEndpointError} :
    (trade.makerOrders.zipIdx.mapM fun order =>
      AuthenticatedMakerOrder.tryFromWire tradeIndex order.2 order.1) = .error e ↔
    ∃ l₁ order l₂ field, trade.makerOrders = l₁ ++ order :: l₂ ∧ (∀ order ∈ l₁, order.Valid) ∧
      firstInvalid order.checks = some field ∧
      indexedMakerSchemaError tradeIndex l₁.length field = e := by
  rw [mapM_zipIdx_eq_error (fun _ _ => AuthenticatedMakerOrder.tryFromWire_valid)]
  simp only [Nat.zero_add, AuthenticatedMakerOrder.tryFromWire_eq_error, ← exists_and_left]

theorem tryFromWire_eq_error {e : AuthenticatedEndpointError} :
    tryFromWire tradeIndex trade = .error e ↔
      ∃ path, trade.RefusedAt tradeIndex path ∧ responseSchemaDecode .trades path = e := by
  unfold tryFromWire
  cases hown : trade.invalidField with
  | some field =>
    rw [trade.invalidField_eq] at hown
    constructor
    · intro h
      exact ⟨_, .field hown, Except.error.inj h⟩
    · rintro ⟨path, hpath, rfl⟩
      cases hpath with
      | field hfield =>
        obtain rfl := Option.some.inj (hown.symm.trans hfield)
        rfl
      | leg hvalid =>
        rw [firstInvalid_eq_none.2 hvalid] at hown
        cases hown
  | none =>
    rw [trade.invalidField_eq] at hown
    have hbind : ((trade.makerOrders.zipIdx.mapM fun order =>
        AuthenticatedMakerOrder.tryFromWire tradeIndex order.2 order.1) = .error e) ↔
        ∃ path, trade.RefusedAt tradeIndex path ∧ responseSchemaDecode .trades path = e := by
      rw [makerOrders_eq_error]
      constructor
      · rintro ⟨l₁, order, l₂, field, hsplit, hfirst, hfield, he⟩
        exact ⟨_, .leg (firstInvalid_eq_none.1 hown) hsplit hfirst hfield, he⟩
      · rintro ⟨path, hpath, he⟩
        cases hpath with
        | field hfield =>
          rw [hown] at hfield
          cases hfield
        | leg _ hsplit hfirst hfield => exact ⟨_, _, _, _, hsplit, hfirst, hfield, he⟩
    rw [← hbind]
    cases trade.makerOrders.zipIdx.mapM fun order =>
        AuthenticatedMakerOrder.tryFromWire tradeIndex order.2 order.1 with
    | error e' => exact ⟨fun h => congrArg Except.error (Except.error.inj h),
        fun h => congrArg Except.error (Except.error.inj h)⟩
    | ok orders =>
      constructor
      · intro h
        cases h
      · intro h
        cases h

end AuthenticatedTrade

/-! ## Pages -/

/-- The path to the first thing that is refused in a page. -/
def Trades.WireTradePage.RefusedAt (page : WireTradePage) (path : List ResponseSegment) : Prop :=
  ∃ l₁ trade l₂, page.data = l₁ ++ trade :: l₂ ∧ (∀ trade ∈ l₁, trade.Valid) ∧
    trade.RefusedAt l₁.length path

variable {page : Trades.WireTradePage}

theorem trades_valid :
    (∃ data, (page.data.zipIdx.mapM fun trade =>
      AuthenticatedTrade.tryFromWire trade.2 trade.1) = .ok data) ↔
      ∀ trade ∈ page.data, trade.Valid := by
  rw [mapM_accepts]
  simp only [AuthenticatedTrade.tryFromWire_valid]
  rw [← List.forall_mem_map (f := Prod.fst) (P := Trades.WireTrade.Valid), List.zipIdx_map_fst]

theorem trades_eq_error {e : AuthenticatedEndpointError} :
    (page.data.zipIdx.mapM fun trade => AuthenticatedTrade.tryFromWire trade.2 trade.1) =
        .error e ↔
      ∃ path, page.RefusedAt path ∧ responseSchemaDecode .trades path = e := by
  rw [mapM_zipIdx_eq_error (fun _ _ => AuthenticatedTrade.tryFromWire_valid)]
  simp only [Nat.zero_add, AuthenticatedTrade.tryFromWire_eq_error]
  constructor
  · rintro ⟨l₁, trade, l₂, hsplit, hfirst, path, hpath, he⟩
    exact ⟨path, ⟨l₁, trade, l₂, hsplit, hfirst, hpath⟩, he⟩
  · rintro ⟨path, ⟨l₁, trade, l₂, hsplit, hfirst, hpath⟩, he⟩
    exact ⟨l₁, trade, l₂, hsplit, hfirst, path, hpath, he⟩

/-- A page that is framed is its trades. -/
theorem ofWire_of_framed (h : page.Framed) :
    AuthenticatedTradePage.ofWire page =
      (page.data.zipIdx.mapM fun trade => AuthenticatedTrade.tryFromWire trade.2 trade.1).map
        fun data => ⟨data, page.nextCursor, page.limit, page.count⟩ := by
  unfold AuthenticatedTradePage.ofWire
  rw [validatePage_eq_ok.2 h]
  cases page.data.zipIdx.mapM fun trade => AuthenticatedTrade.tryFromWire trade.2 trade.1 <;> rfl

theorem ofWire_of_not_framed (h : ¬ page.Framed) :
    AuthenticatedTradePage.ofWire page = .error (.requestFailed .trades) := by
  unfold AuthenticatedTradePage.ofWire
  rw [← validatePage_eq_ok] at h
  unfold validatePage at h ⊢
  dsimp only at h ⊢
  split_ifs at h ⊢ with hc
  · rfl
  · exact absurd rfl h

/-- A page that is accepted was framed, and its trades are decoded. -/
theorem ofWire_eq_ok {decoded : AuthenticatedTradePage}
    (h : AuthenticatedTradePage.ofWire page = .ok decoded) :
    page.Framed ∧
      (page.data.zipIdx.mapM fun trade => AuthenticatedTrade.tryFromWire trade.2 trade.1) =
        .ok decoded.data ∧
      decoded = ⟨decoded.data, page.nextCursor, page.limit, page.count⟩ := by
  by_cases hframed : page.Framed
  · rw [ofWire_of_framed hframed] at h
    cases ho : page.data.zipIdx.mapM fun trade =>
        AuthenticatedTrade.tryFromWire trade.2 trade.1 with
    | error e =>
      rw [ho] at h
      cases h
    | ok data =>
      rw [ho] at h
      obtain rfl := Except.ok.inj h
      exact ⟨hframed, rfl, rfl⟩
  · rw [ofWire_of_not_framed hframed] at h
    cases h

/-- The fields that the path names are in the allow-list. -/
theorem responseSchemaDecode_of_allowed {path : List ResponseSegment}
    (h : ∀ segment ∈ path, segment.field ∈ AuthenticatedEndpoint.trades.fields) :
    responseSchemaDecode .trades path = .schemaDecode .trades path := by
  unfold responseSchemaDecode authenticatedResponsePathIsSafe
  rw [if_pos]
  simpa using h

/-- A page is accepted if it is framed and each trade and leg in it is valid; what it becomes is
    what was on the wire, in its order; and a framed page is refused with the path of its first
    invalid field, or without a path where the allow-list does not have that field. -/
theorem tradePage_decode
    {json : List UInt8 → Except AuthenticatedEndpointError Trades.WireTradePage}
    {body : List UInt8} (hjson : json body = .ok page) :
    ((∃ decoded, AuthenticatedTradePage.decodeJson json body = .ok decoded) ↔
      page.Framed ∧ ∀ trade ∈ page.data, trade.Valid) ∧
    (∀ decoded, AuthenticatedTradePage.decodeJson json body = .ok decoded →
      decoded.data.map AuthenticatedTrade.wire = page.data ∧
      decoded.nextCursor = page.nextCursor ∧ decoded.limit = page.limit ∧
      decoded.count = page.count) ∧
    (¬ page.Framed →
      AuthenticatedTradePage.decodeJson json body = .error (.requestFailed .trades)) ∧
    ∀ e, page.Framed → AuthenticatedTradePage.decodeJson json body = .error e →
      ∃ path, page.RefusedAt path ∧
        ((∀ segment ∈ path, segment.field ∈ AuthenticatedEndpoint.trades.fields) →
          e = .schemaDecode .trades path) := by
  have hbody :
      AuthenticatedTradePage.decodeJson json body = AuthenticatedTradePage.ofWire page := by
    unfold AuthenticatedTradePage.decodeJson
    rw [hjson]
    rfl
  rw [hbody]
  refine ⟨⟨?_, ?_⟩, ?_, ofWire_of_not_framed, ?_⟩
  · rintro ⟨decoded, h⟩
    obtain ⟨hframed, hdata, -⟩ := ofWire_eq_ok h
    exact ⟨hframed, trades_valid.1 ⟨decoded.data, hdata⟩⟩
  · rintro ⟨hframed, hvalid⟩
    obtain ⟨data, hdata⟩ := trades_valid.2 hvalid
    rw [ofWire_of_framed hframed, hdata]
    exact ⟨_, rfl⟩
  · intro decoded h
    obtain ⟨-, hdata, he⟩ := ofWire_eq_ok h
    refine ⟨?_, by rw [he], by rw [he], by rw [he]⟩
    exact (mapM_map (fun _ _ h => (AuthenticatedTrade.tryFromWire_eq_ok h).2) hdata).trans
      (List.zipIdx_map_fst 0 page.data)
  · intro e hframed h
    rw [ofWire_of_framed hframed] at h
    cases ho : page.data.zipIdx.mapM fun trade =>
        AuthenticatedTrade.tryFromWire trade.2 trade.1 with
    | error e' =>
      rw [ho] at h
      obtain rfl := Except.error.inj h
      obtain ⟨path, hpath, rfl⟩ := trades_eq_error.1 ho
      exact ⟨path, hpath, responseSchemaDecode_of_allowed⟩
    | ok data =>
      rw [ho] at h
      cases h

/-! ## A trade with two legs -/

def sampleLeg (price : ℚ) : Trades.WireMakerOrder where
  orderId := "order-2"
  owner := 0
  makerAddress := 0
  matchedAmount := 5
  price := price
  feeRateBps := none
  feeUsdc := none
  assetId := 7
  outcome := "Yes"
  side := .sell

def sampleTrade (makerOrders : List Trades.WireMakerOrder) : Trades.WireTrade where
  id := "trade-1"
  takerOrderId := "order-1"
  market := 1
  assetId := 7
  side := .buy
  size := 5
  feeRateBps := 0
  feeUsdc := none
  price := 1 / 2
  status := .matched
  matchTime := 0
  lastUpdate := 0
  outcome := "Yes"
  bucketIndex := 0
  owner := 0
  makerAddress := 0
  makerOrders := makerOrders
  transactionHash := 0
  traderSide := .taker
  errorMsg := none

def samplePage (makerOrders : List Trades.WireMakerOrder) : Trades.WireTradePage :=
  ⟨[sampleTrade makerOrders], terminalCursor, 100, 1⟩

theorem samplePage_framed (makerOrders : List Trades.WireMakerOrder) :
    (samplePage makerOrders).Framed where
  count := rfl
  limit_pos := by show 0 < 100; decide
  limit_le := by show 100 ≤ maxPageLimit; decide
  count_le := by show 1 ≤ 100; decide
  cursor := .inl (by show cursorIsTerminal terminalCursor; decide)
  empty h := by cases h

theorem sampleTrade_checks (makerOrders : List Trades.WireMakerOrder) :
    ∀ check ∈ (sampleTrade makerOrders).checks, check.2 = true := by
  show ∀ check ∈ (sampleTrade []).checks, check.2 = true
  decide +kernel

theorem sampleLeg_valid : (sampleLeg (1 / 2)).Valid ∧ (sampleLeg 1).Valid := by
  unfold Trades.WireMakerOrder.Valid
  decide +kernel

theorem sampleLeg_overpriced : firstInvalid (sampleLeg 2).checks = some "price" := by
  decide +kernel

/-- The one path to the second leg. -/
theorem samplePage_refusedAt {path : List ResponseSegment}
    (h : (samplePage [sampleLeg (1 / 2), sampleLeg 2]).RefusedAt path) :
    path = [⟨"data", [0]⟩, ⟨"maker_orders", [1]⟩, ⟨"price", []⟩] := by
  obtain ⟨l₁, trade, l₂, hsplit, -, hpath⟩ := h
  replace hsplit : [sampleTrade [sampleLeg (1 / 2), sampleLeg 2]] = l₁ ++ trade :: l₂ := hsplit
  obtain ⟨rfl, hcons⟩ | ⟨rfl, hcons⟩ := List.singleton_eq_append_iff.1 hsplit
  swap
  · cases hcons
  cases hcons
  cases hpath with
  | field hfield =>
    rw [firstInvalid_eq_none.2 (sampleTrade_checks _)] at hfield
    cases hfield
  | @leg l₁ l₂ order field _ hlegs _ hfield =>
    replace hlegs : [sampleLeg (1 / 2), sampleLeg 2] = l₁ ++ order :: l₂ := hlegs
    rcases l₁ with - | ⟨first, - | ⟨second, l₁⟩⟩
    · cases hlegs
      rw [firstInvalid_eq_none.2 sampleLeg_valid.1] at hfield
      cases hfield
    · cases hlegs
      rw [sampleLeg_overpriced] at hfield
      cases hfield
      rfl
    · have hlength := congrArg List.length hlegs
      simp only [List.length_append, List.length_cons, List.length_nil] at hlength
      omega

/-- With two valid legs the page is decoded; with a second leg for more than the whole the error
    names the price of that leg. -/
theorem tradePage_decode_legs :
    (∃ decoded, AuthenticatedTradePage.decodeJson
        (fun _ => .ok (samplePage [sampleLeg (1 / 2), sampleLeg 1])) [] = .ok decoded ∧
      decoded.data.map AuthenticatedTrade.wire =
        [sampleTrade [sampleLeg (1 / 2), sampleLeg 1]]) ∧
    AuthenticatedTradePage.decodeJson
        (fun _ => .ok (samplePage [sampleLeg (1 / 2), sampleLeg 2])) [] =
      .error (.schemaDecode .trades
        [⟨"data", [0]⟩, ⟨"maker_orders", [1]⟩, ⟨"price", []⟩]) := by
  constructor
  · have hpage := @tradePage_decode _
      (fun _ => .ok (samplePage [sampleLeg (1 / 2), sampleLeg 1])) [] rfl
    obtain ⟨decoded, hdecoded⟩ := hpage.1.2 ⟨samplePage_framed _, by
      rintro trade htrade
      obtain rfl := List.mem_singleton.1 htrade
      refine ⟨sampleTrade_checks _, ?_⟩
      simpa [sampleTrade] using sampleLeg_valid⟩
    exact ⟨decoded, hdecoded, (hpage.2.1 decoded hdecoded).1⟩
  · have hpage := @tradePage_decode _
      (fun _ => .ok (samplePage [sampleLeg (1 / 2), sampleLeg 2])) [] rfl
    cases hdecode : AuthenticatedTradePage.decodeJson
        (fun _ => .ok (samplePage [sampleLeg (1 / 2), sampleLeg 2])) [] with
    | ok decoded =>
      have hvalid := (hpage.1.1 ⟨decoded, hdecode⟩).2 _ (List.mem_singleton_self _)
      have hleg := firstInvalid_eq_none.2 (hvalid.2 (sampleLeg 2) (by simp [sampleTrade]))
      rw [sampleLeg_overpriced] at hleg
      cases hleg
    | error e =>
      obtain ⟨path, hpath, he⟩ := hpage.2.2.2 e (samplePage_framed _) hdecode
      obtain rfl := samplePage_refusedAt hpath
      rw [he (by decide)]

end Rspm
