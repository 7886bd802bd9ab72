/-
  What the two channels make of a trade, a maker leg and an order: the pages of
  the REST endpoints (`Trades`, `Orders`), and the frames of the private socket
  (`Wire`).

  Both begin with the fields as they were decoded, and check them.
-/
import Rspm.Clob.Client

namespace Rspm

abbrev B256 := BitVec 256
abbrev U256 := BitVec 256
abbrev Address := BitVec 160
abbrev ApiKey := BitVec 128

inductive AuthenticatedTraderSide where
  | taker | maker
deriving DecidableEq

inductive AuthenticatedTradeStatus where
  | matchedNotBroadcasted | matched | mined | confirmed | retrying | failed
deriving DecidableEq

inductive AuthenticatedOrderStatus where
  | live | invalid | canceledMarketResolved | canceled | matched | delayed | unmatched
deriving DecidableEq

/-! ## Errors of the endpoints -/

inductive AuthenticatedEndpoint where
  | protocolVersion | trades | order | balanceAllowance | positions
deriving DecidableEq

/-- A segment of a path, such as `maker_orders[17]`. -/
structure ResponseSegment where
  field : String
  indexes : List ℕ
deriving DecidableEq

/-- The fields that a path of the endpoint may name. -/
def AuthenticatedEndpoint.fields : AuthenticatedEndpoint → List String
  | .protocolVersion => ["version"]
  | .trades => ["asset_id", "bucket_index", "count", "data", "error_msg", "fee_rate_bps", "id",
      "last_update", "limit", "maker_address", "maker_orders", "market", "match_time",
      "matched_amount", "next_cursor", "order_id", "outcome", "owner", "price", "side", "size",
      "status", "taker_order_id", "trader_side", "transaction_hash"]
  | .order => ["asset_id", "count", "created_at", "data", "expiration", "id", "limit", "market",
      "next_cursor", "original_size", "price", "side", "size_matched", "status"]
  | .balanceAllowance => ["allowances", "balance"]
  | .positions => ["asset", "avgPrice", "conditionId", "mergeable", "outcome", "proxyWallet",
      "redeemable", "size", "slug"]

def authenticatedResponsePathIsSafe (endpoint : AuthenticatedEndpoint)
    (path : List ResponseSegment) : Bool :=
  path.all fun segment => endpoint.fields.contains segment.field

inductive AuthenticatedEndpointError where
  | schemaDecode (endpoint : AuthenticatedEndpoint) (responsePath : List ResponseSegment)
  | requestFailed (endpoint : AuthenticatedEndpoint)
deriving DecidableEq

/-- `response_schema_decode`: a path that is not safe is left out. -/
def responseSchemaDecode (endpoint : AuthenticatedEndpoint) (path : List ResponseSegment) :
    AuthenticatedEndpointError :=
  if authenticatedResponsePathIsSafe endpoint path then .schemaDecode endpoint path
  else .requestFailed endpoint

/-! ## Trades of a page -/

structure AuthenticatedMakerOrder where
  orderId : String
  owner : ApiKey
  makerAddress : Address
  matchedAmount : ℚ
  price : ℚ
  feeRateBps : Option ℚ
  feeUsdc : Option ℚ
  assetId : U256
  outcome : String
  side : ClobSide

structure AuthenticatedTrade where
  id : String
  takerOrderId : String
  market : B256
  assetId : U256
  side : ClobSide
  size : ℚ
  feeRateBps : ℚ
  feeUsdc : Option ℚ
  price : ℚ
  status : AuthenticatedTradeStatus
  matchTime : ℤ
  lastUpdate : ℤ
  outcome : String
  bucketIndex : ℕ
  owner : ApiKey
  makerAddress : Address
  makerOrders : List AuthenticatedMakerOrder
  transactionHash : B256
  traderSide : AuthenticatedTraderSide
  errorMsg : Option String

namespace Trades

structure WireMakerOrder where
  orderId : String
  owner : ApiKey
  makerAddress : Address
  matchedAmount : ℚ
  price : ℚ
  feeRateBps : Option ℚ
  feeUsdc : Option ℚ
  assetId : U256
  outcome : String
  side : ClobSide

structure WireTrade where
  id : String
  takerOrderId : String
  market : B256
  assetId : U256
  side : ClobSide
  size : ℚ
  feeRateBps : ℚ
  feeUsdc : Option ℚ
  price : ℚ
  status : AuthenticatedTradeStatus
  matchTime : ℤ
  lastUpdate : ℤ
  outcome : String
  bucketIndex : ℕ
  owner : ApiKey
  makerAddress : Address
  makerOrders : List WireMakerOrder
  transactionHash : B256
  traderSide : AuthenticatedTraderSide
  errorMsg : Option String

end Trades

def indexedTradeSchemaError (tradeIndex : ℕ) (field : String) : AuthenticatedEndpointError :=
  responseSchemaDecode .trades [⟨"data", [tradeIndex]⟩, ⟨field, []⟩]

def indexedMakerSchemaError (tradeIndex makerIndex : ℕ) (field : String) :
    AuthenticatedEndpointError :=
  responseSchemaDecode .trades
    [⟨"data", [tradeIndex]⟩, ⟨"maker_orders", [makerIndex]⟩, ⟨field, []⟩]

/-- The first field of the leg that is refused. -/
def Trades.WireMakerOrder.invalidField (order : WireMakerOrder) : Option String :=
  if !venueIdentifierIsValid order.orderId then some "order_id"
  else if order.matchedAmount < 0 then some "matched_amount"
  else if order.price < 0 || order.price > 1 then some "price"
  else if order.feeRateBps.any (· < 0) then some "fee_rate_bps"
  else if order.feeUsdc.any (· < 0) then some "fee_usdc"
  else none

def AuthenticatedMakerOrder.tryFromWire (tradeIndex makerIndex : ℕ)
    (order : Trades.WireMakerOrder) : Except AuthenticatedEndpointError AuthenticatedMakerOrder :=
  match order.invalidField with
  | some field => .error (indexedMakerSchemaError tradeIndex makerIndex field)
  | none => .ok {
      orderId := order.orderId
      owner := order.owner
      makerAddress := order.makerAddress
      matchedAmount := order.matchedAmount
      price := order.price
      feeRateBps := order.feeRateBps
      feeUsdc := order.feeUsdc
      assetId := order.assetId
      outcome := order.outcome
      side := order.side }

/-- The first field of the trade that is refused, before its legs. -/
def Trades.WireTrade.invalidField (trade : WireTrade) : Option String :=
  if !venueIdentifierIsValid trade.id then some "id"
  else if !venueIdentifierIsValid trade.takerOrderId then some "taker_order_id"
  else if trade.size < 0 then some "size"
  else if trade.price < 0 || trade.price > 1 then some "price"
  else if trade.feeRateBps < 0 then some "fee_rate_bps"
  else if trade.feeUsdc.any (· < 0) then some "fee_usdc"
  else none

def AuthenticatedTrade.tryFromWire (tradeIndex : ℕ) (trade : Trades.WireTrade) :
    Except AuthenticatedEndpointError AuthenticatedTrade :=
  match trade.invalidField with
  | some field => .error (indexedTradeSchemaError tradeIndex field)
  | none => do
    let makerOrders ← trade.makerOrders.zipIdx.mapM fun order =>
      AuthenticatedMakerOrder.tryFromWire tradeIndex order.2 order.1
    return {
      id := trade.id
      takerOrderId := trade.takerOrderId
      market := trade.market
      assetId := trade.assetId
      side := trade.side
      size := trade.size
      feeRateBps := trade.feeRateBps
      feeUsdc := trade.feeUsdc
      price := trade.price
      status := trade.status
      matchTime := trade.matchTime
      lastUpdate := trade.lastUpdate
      outcome := trade.outcome
      bucketIndex := trade.bucketIndex
      owner := trade.owner
      makerAddress := trade.makerAddress
      makerOrders := makerOrders
      transactionHash := trade.transactionHash
      traderSide := trade.traderSide
      errorMsg := trade.errorMsg }

/-! ## Orders of a page -/

structure AuthenticatedOrder where
  id : String
  status : AuthenticatedOrderStatus
  owner : ApiKey
  makerAddress : Address
  market : B256
  assetId : U256
  side : ClobSide
  originalSize : ℚ
  sizeMatched : ℚ
  price : ℚ
  createdAtSeconds : ℤ
  expirationSeconds : ℤ
  associateTrades : List String
  outcome : String
  orderType : String

namespace Orders

structure WireOrder where
  id : String
  status : AuthenticatedOrderStatus
  owner : ApiKey
  makerAddress : Address
  market : B256
  assetId : U256
  side : ClobSide
  originalSize : ℚ
  sizeMatched : ℚ
  price : ℚ
  createdAt : ℤ
  expiration : ℤ
  associateTrades : List String
  outcome : String
  orderType : String

end Orders

def AuthenticatedOrder.tryFrom (order : Orders.WireOrder) :
    Except AuthenticatedEndpointError AuthenticatedOrder :=
  let valid := venueIdentifierIsValid order.id && 0 ≤ order.createdAt && 0 ≤ order.expiration &&
    order.originalSize > 0 && order.sizeMatched ≥ 0 && order.sizeMatched ≤ order.originalSize &&
    order.price > 0 && order.price ≤ 1 && order.associateTrades.all venueIdentifierIsValid &&
    !order.outcome.isEmpty && !order.orderType.isEmpty
  if !valid then .error (.requestFailed .order)
  else .ok {
    id := order.id
    status := order.status
    owner := order.owner
    makerAddress := order.makerAddress
    market := order.market
    assetId := order.assetId
    side := order.side
    originalSize := order.originalSize
    sizeMatched := order.sizeMatched
    price := order.price
    createdAtSeconds := order.createdAt
    expirationSeconds := order.expiration
    associateTrades := order.associateTrades
    outcome := order.outcome
    orderType := order.orderType }

/-! ## Frames -/

inductive AuthenticatedUserOrderType where
  | placement | update | cancellation
deriving DecidableEq

inductive AuthenticatedUserOrderStatus where
  | live | matched | delayed | unmatched | canceled
deriving DecidableEq

inductive AuthenticatedUserVenueOrderType where
  | gtc | gtd | fak | fok
deriving DecidableEq

inductive AuthenticatedUserTradeStatus where
  | matchedNotBroadcasted | matched | mined | confirmed | retrying | failed
deriving DecidableEq

structure AuthenticatedUserMakerOrder where
  assetId : U256
  matchedAmount : ℚ
  orderId : String
  owner : ApiKey
  price : ℚ
  side : ClobSide
  makerAddress : Option Address
  outcome : Option String
  outcomeIndex : Option ℕ
  feeRateBps : Option ℚ
  feeUsdc : Option ℚ

structure AuthenticatedUserTrade where
  id : String
  market : B256
  assetId : U256
  side : ClobSide
  size : ℚ
  price : ℚ
  status : AuthenticatedUserTradeStatus
  lastUpdate : Option ℤ
  matchTime : Option ℤ
  timestamp : Option ℤ
  owner : Option ApiKey
  tradeOwner : Option ApiKey
  takerOrderId : Option String
  makerOrders : List AuthenticatedUserMakerOrder
  outcome : Option String
  makerAddress : Option Address
  transactionHash : Option B256
  bucketIndex : Option ℕ
  feeRateBps : Option ℚ
  feeUsdc : Option ℚ
  traderSide : Option AuthenticatedTraderSide

structure AuthenticatedUserOrder where
  id : String
  market : B256
  assetId : U256
  side : ClobSide
  price : ℚ
  eventType : Option AuthenticatedUserOrderType
  originalSize : Option ℚ
  sizeMatched : Option ℚ
  timestamp : Option ℤ
  associatedTrades : Option (List String)
  status : Option AuthenticatedUserOrderStatus
  owner : Option ApiKey
  orderOwner : Option ApiKey
  outcome : Option String
  createdAt : Option ℤ
  expiration : Option ℤ
  orderType : Option AuthenticatedUserVenueOrderType
  makerAddress : Option Address

/-- `FrameSchema`, the only error of the frames. -/
inductive FrameSchemaError where
  | frameSchema
deriving DecidableEq

namespace Wire

structure WireMakerOrder where
  assetId : U256
  matchedAmount : ℚ
  orderId : String
  owner : ApiKey
  price : ℚ
  side : ClobSide
  makerAddress : Option Address
  outcome : Option String
  outcomeIndex : Option ℕ
  feeRateBps : Option ℚ
  feeUsdc : Option ℚ

inductive WireTradeType where
  | trade
deriving DecidableEq

structure WireTrade where
  id : String
  market : B256
  assetId : U256
  side : ClobSide
  size : ℚ
  price : ℚ
  status : AuthenticatedUserTradeStatus
  messageType : Option WireTradeType
  lastUpdate : Option ℤ
  matchtime : Option ℤ
  timestamp : Option ℤ
  owner : Option ApiKey
  tradeOwner : Option ApiKey
  takerOrderId : Option String
  makerOrders : List WireMakerOrder
  feeRateBps : Option ℚ
  feeUsdc : Option ℚ
  traderSide : Option AuthenticatedTraderSide
  outcome : Option String
  makerAddress : Option Address
  transactionHash : Option B256
  bucketIndex : Option ℕ

structure WireOrder where
  id : String
  market : B256
  assetId : U256
  side : ClobSide
  price : ℚ
  eventType : Option AuthenticatedUserOrderType
  originalSize : Option ℚ
  sizeMatched : Option ℚ
  timestamp : Option ℤ
  associatedTrades : Option (List String)
  status : Option AuthenticatedUserOrderStatus
  owner : Option ApiKey
  orderOwner : Option ApiKey
  outcome : Option String
  createdAt : Option ℤ
  expiration : Option ℤ
  orderType : Option AuthenticatedUserVenueOrderType
  makerAddress : Option Address

end Wire

/-- Absent, or printable ASCII that is not blank and not too long. -/
def optionalOutcomeIsValid (outcome : Option String) : Bool :=
  outcome.all fun value => !value.toList.all isWhitespace && value.utf8ByteSize ≤ 256 &&
    value.toList.all fun byte => 32 ≤ byte.toNat && byte.toNat < 127

def AuthenticatedUserMakerOrder.tryFrom (order : Wire.WireMakerOrder) :
    Except FrameSchemaError AuthenticatedUserMakerOrder :=
  if !venueIdentifierIsValid order.orderId || order.matchedAmount < 0 || order.price < 0 ||
      order.price > 1 || order.feeRateBps.any (· < 0) || order.feeUsdc.any (· < 0) ||
      !optionalOutcomeIsValid order.outcome then .error .frameSchema
  else .ok {
    assetId := order.assetId
    matchedAmount := order.matchedAmount
    orderId := order.orderId
    owner := order.owner
    price := order.price
    side := order.side
    makerAddress := order.makerAddress
    outcome := order.outcome
    outcomeIndex := order.outcomeIndex
    feeRateBps := order.feeRateBps
    feeUsdc := order.feeUsdc }

def AuthenticatedUserTrade.tryFrom (trade : Wire.WireTrade) :
    Except FrameSchemaError AuthenticatedUserTrade :=
  if !venueIdentifierIsValid trade.id || trade.takerOrderId.any (!venueIdentifierIsValid ·) ||
      trade.size < 0 || trade.price < 0 || trade.price > 1 || trade.feeRateBps.any (· < 0) ||
      trade.feeUsdc.any (· < 0) || trade.messageType.isNone ||
      !optionalOutcomeIsValid trade.outcome then .error .frameSchema
  else do
    let makerOrders ← trade.makerOrders.mapM AuthenticatedUserMakerOrder.tryFrom
    return {
      id := trade.id
      market := trade.market
      assetId := trade.assetId
      side := trade.side
      size := trade.size
      price := trade.price
      status := trade.status
      lastUpdate := trade.lastUpdate
      matchTime := trade.matchtime
      timestamp := trade.timestamp
      owner := trade.owner
      tradeOwner := trade.tradeOwner
      takerOrderId := trade.takerOrderId
      makerOrders := makerOrders
      outcome := trade.outcome
      makerAddress := trade.makerAddress
      transactionHash := trade.transactionHash
      bucketIndex := trade.bucketIndex
      feeRateBps := trade.feeRateBps
      feeUsdc := trade.feeUsdc
      traderSide := trade.traderSide }

/-- Both sizes are present and in order, or neither is present. -/
def Wire.WireOrder.sizeValid (order : WireOrder) : Bool :=
  match order.originalSize, order.sizeMatched with
  | some original, some matched => original > 0 && matched ≥ 0 && matched ≤ original
  | none, none => true
  | _, _ => false

def AuthenticatedUserOrder.tryFrom (order : Wire.WireOrder) :
    Except FrameSchemaError AuthenticatedUserOrder :=
  let associatedValid := order.associatedTrades.all (·.all venueIdentifierIsValid)
  if !venueIdentifierIsValid order.id || order.price ≤ 0 || order.price > 1 || !order.sizeValid ||
      !associatedValid || !optionalOutcomeIsValid order.outcome then .error .frameSchema
  else .ok {
    id := order.id
    market := order.market
    assetId := order.assetId
    side := order.side
    price := order.price
    eventType := order.eventType
    originalSize := order.originalSize
    sizeMatched := order.sizeMatched
    timestamp := order.timestamp
    associatedTrades := order.associatedTrades
    status := order.status
    owner := order.owner
    orderOwner := order.orderOwner
    outcome := order.outcome
    createdAt := order.createdAt
    expiration := order.expiration
    orderType := order.orderType
    makerAddress := order.makerAddress }

end Rspm
