/-
  Private frames as JSON: how the events of a frame are read, and how they are
  written.

  `user_frame_round_trip`: the events of an accepted frame are valid, and valid
  events that were written are read back as they were, with the entries of the
  objects in any order.

  The numbers, hashes, addresses and keys are read by other packages
  (`WireCrates`); each of them reads its own text.
-/
import Rspm.Auth.Quoted
import Rspm.Auth.Requests
import Rspm.Lib.Fields
import Rspm.Ws.Batch

namespace Rspm

open Balance Decoding Requests Serde

/-! ## Values -/

/-- What is read by other packages. -/
structure WireCrates where
  u256 : Json → Option U256
  b256 : Json → Option B256
  /-- `B256::from_str` -/
  b256FromStr : String → Option B256
  address : Json → Option Address
  apiKey : Json → Option ApiKey
  /-- `Decimal::from_str_exact` -/
  fromStrExact : String → Option ℚ
  /-- the name of a variant without data -/
  variant : Json → Option String
  /-- a number that is an `i64` -/
  number : String → Option ℤ

def textValue : Json → Option String
  | .string value => some value
  | _ => none

def listOf {α : Type} (read : Json → Option α) : Json → Option (List α)
  | .array values => values.mapM read
  | _ => none

def ClobSide.names : List (String × ClobSide) :=
  [("BUY", .buy), ("buy", .buy), ("SELL", .sell), ("sell", .sell)]

def AuthenticatedTraderSide.names : List (String × AuthenticatedTraderSide) :=
  [("TAKER", .taker), ("taker", .taker), ("MAKER", .maker), ("maker", .maker)]

def AuthenticatedUserTradeStatus.names : List (String × AuthenticatedUserTradeStatus) := [
  ("MATCHED_NOT_BROADCASTED", .matchedNotBroadcasted),
  ("matched_not_broadcasted", .matchedNotBroadcasted),
  ("TRADE_STATUS_MATCHED_NOT_BROADCASTED", .matchedNotBroadcasted),
  ("MATCHED", .matched), ("matched", .matched), ("TRADE_STATUS_MATCHED", .matched),
  ("MINED", .mined), ("mined", .mined), ("TRADE_STATUS_MINED", .mined),
  ("CONFIRMED", .confirmed), ("confirmed", .confirmed), ("TRADE_STATUS_CONFIRMED", .confirmed),
  ("RETRYING", .retrying), ("retrying", .retrying), ("TRADE_STATUS_RETRYING", .retrying),
  ("FAILED", .failed), ("failed", .failed), ("TRADE_STATUS_FAILED", .failed)]

def AuthenticatedUserOrderType.names : List (String × AuthenticatedUserOrderType) := [
  ("PLACEMENT", .placement), ("placement", .placement), ("UPDATE", .update), ("update", .update),
  ("CANCELLATION", .cancellation), ("cancellation", .cancellation)]

def AuthenticatedUserOrderStatus.names : List (String × AuthenticatedUserOrderStatus) := [
  ("LIVE", .live), ("live", .live), ("MATCHED", .matched), ("matched", .matched),
  ("DELAYED", .delayed), ("delayed", .delayed), ("UNMATCHED", .unmatched),
  ("unmatched", .unmatched), ("CANCELED", .canceled), ("canceled", .canceled)]

def AuthenticatedUserVenueOrderType.names : List (String × AuthenticatedUserVenueOrderType) :=
  [("GTC", .gtc), ("GTD", .gtd), ("FAK", .fak), ("FOK", .fok)]

def Wire.WireTradeType.names : List (String × WireTradeType) :=
  [("TRADE", .trade), ("trade", .trade)]

/-! ## Reading -/

namespace Wire

def WireMakerOrder.fields : List FieldNames := [
  ⟨"asset_id", []⟩, ⟨"matched_amount", []⟩, ⟨"order_id", []⟩, ⟨"owner", []⟩, ⟨"price", []⟩,
  ⟨"side", []⟩, ⟨"maker_address", []⟩, ⟨"outcome", []⟩, ⟨"outcome_index", []⟩,
  ⟨"fee_rate_bps", []⟩, ⟨"fee_usdc", ["feeUsdc"]⟩]

def WireTrade.fields : List FieldNames := [
  ⟨"id", []⟩, ⟨"market", []⟩, ⟨"asset_id", []⟩, ⟨"side", []⟩, ⟨"size", []⟩, ⟨"price", []⟩,
  ⟨"status", []⟩, ⟨"type", []⟩, ⟨"last_update", []⟩, ⟨"matchtime", ["match_time"]⟩,
  ⟨"timestamp", []⟩, ⟨"owner", []⟩, ⟨"trade_owner", []⟩, ⟨"taker_order_id", []⟩,
  ⟨"maker_orders", []⟩, ⟨"fee_rate_bps", []⟩, ⟨"fee_usdc", ["feeUsdc"]⟩, ⟨"trader_side", []⟩,
  ⟨"outcome", []⟩, ⟨"maker_address", []⟩, ⟨"transaction_hash", []⟩, ⟨"bucket_index", []⟩]

def WireOrder.fields : List FieldNames := [
  ⟨"id", []⟩, ⟨"market", []⟩, ⟨"asset_id", []⟩, ⟨"side", []⟩, ⟨"price", []⟩, ⟨"type", []⟩,
  ⟨"original_size", []⟩, ⟨"size_matched", []⟩, ⟨"timestamp", []⟩, ⟨"associate_trades", []⟩,
  ⟨"status", []⟩, ⟨"owner", []⟩, ⟨"order_owner", []⟩, ⟨"outcome", []⟩, ⟨"created_at", []⟩,
  ⟨"expiration", []⟩, ⟨"order_type", []⟩, ⟨"maker_address", []⟩]

section

variable (crates : WireCrates)

/-- A variant without data, by one of its names. -/
def variantOf {α : Type} (names : List (String × α)) (value : Json) : Option α :=
  (crates.variant value).bind fun name => names.lookup name

/-- `optional_empty_b256`. -/
def optionalEmptyB256 : Json → Option (Option B256)
  | .null => some none
  | .string value => if value.isEmpty then some none else (crates.b256FromStr value).map some
  | _ => none

def WireMakerOrder.deserialize (value : Json) : Option WireMakerOrder := do
  let field ← value.table true fields
  let assetId ← required crates.u256 (field "asset_id")
  let matchedAmount ← required (quotedDecimal crates.fromStrExact) (field "matched_amount")
  let orderId ← required textValue (field "order_id")
  let owner ← required crates.apiKey (field "owner")
  let price ← required (quotedDecimal crates.fromStrExact) (field "price")
  let side ← required (variantOf crates ClobSide.names) (field "side")
  let makerAddress ← withDefault none (nullable crates.address) (field "maker_address")
  let outcome ← withDefault none (nullable textValue) (field "outcome")
  let outcomeIndex ← withDefault none (optionalU64 crates.number) (field "outcome_index")
  let feeRateBps ← withDefault none (optionalQuotedDecimal crates.fromStrExact)
    (field "fee_rate_bps")
  let feeUsdc ← withDefault none (optionalQuotedDecimal crates.fromStrExact) (field "fee_usdc")
  return { assetId, matchedAmount, orderId, owner, price, side, makerAddress, outcome,
           outcomeIndex, feeRateBps, feeUsdc }

/-- `wire_maker_orders_or_empty`. -/
def wireMakerOrdersOrEmpty (value : Json) : Option (List WireMakerOrder) :=
  (nullable (listOf (WireMakerOrder.deserialize crates)) value).map (·.getD [])

def WireTrade.deserialize (value : Json) : Option WireTrade := do
  let field ← value.table true fields
  let id ← required textValue (field "id")
  let market ← required crates.b256 (field "market")
  let assetId ← required crates.u256 (field "asset_id")
  let side ← required (variantOf crates ClobSide.names) (field "side")
  let size ← required (quotedDecimal crates.fromStrExact) (field "size")
  let price ← required (quotedDecimal crates.fromStrExact) (field "price")
  let status ← required (variantOf crates AuthenticatedUserTradeStatus.names) (field "status")
  let messageType ← withDefault none (nullable (variantOf crates WireTradeType.names))
    (field "type")
  let lastUpdate ← withDefault none optionalQuotedI64 (field "last_update")
  let matchtime ← withDefault none optionalQuotedI64 (field "matchtime")
  let timestamp ← withDefault none optionalQuotedI64 (field "timestamp")
  let owner ← withDefault none (nullable crates.apiKey) (field "owner")
  let tradeOwner ← withDefault none (nullable crates.apiKey) (field "trade_owner")
  let takerOrderId ← withDefault none (nullable textValue) (field "taker_order_id")
  let makerOrders ← withDefault [] (wireMakerOrdersOrEmpty crates) (field "maker_orders")
  let feeRateBps ← withDefault none (optionalQuotedDecimal crates.fromStrExact)
    (field "fee_rate_bps")
  let feeUsdc ← withDefault none (optionalQuotedDecimal crates.fromStrExact) (field "fee_usdc")
  let traderSide ← withDefault none (nullable (variantOf crates AuthenticatedTraderSide.names))
    (field "trader_side")
  let outcome ← withDefault none (nullable textValue) (field "outcome")
  let makerAddress ← withDefault none (nullable crates.address) (field "maker_address")
  let transactionHash ← withDefault none (optionalEmptyB256 crates) (field "transaction_hash")
  let bucketIndex ← withDefault none (optionalU64 crates.number) (field "bucket_index")
  return { id, market, assetId, side, size, price, status, messageType, lastUpdate, matchtime,
           timestamp, owner, tradeOwner, takerOrderId, makerOrders, feeRateBps, feeUsdc,
           traderSide, outcome, makerAddress, transactionHash, bucketIndex }

def WireOrder.deserialize (value : Json) : Option WireOrder := do
  let field ← value.table true fields
  let id ← required textValue (field "id")
  let market ← required crates.b256 (field "market")
  let assetId ← required crates.u256 (field "asset_id")
  let side ← required (variantOf crates ClobSide.names) (field "side")
  let price ← required (quotedDecimal crates.fromStrExact) (field "price")
  let eventType ← withDefault none (nullable (variantOf crates AuthenticatedUserOrderType.names))
    (field "type")
  let originalSize ← withDefault none (optionalQuotedDecimal crates.fromStrExact)
    (field "original_size")
  let sizeMatched ← withDefault none (optionalQuotedDecimal crates.fromStrExact)
    (field "size_matched")
  let timestamp ← withDefault none optionalQuotedI64 (field "timestamp")
  let associatedTrades ← withDefault none (nullable (listOf textValue)) (field "associate_trades")
  let status ← withDefault none (nullable (variantOf crates AuthenticatedUserOrderStatus.names))
    (field "status")
  let owner ← withDefault none (nullable crates.apiKey) (field "owner")
  let orderOwner ← withDefault none (nullable crates.apiKey) (field "order_owner")
  let outcome ← withDefault none (nullable textValue) (field "outcome")
  let createdAt ← withDefault none (optionalI64 crates.number) (field "created_at")
  let expiration ← withDefault none (optionalI64 crates.number) (field "expiration")
  let orderType ← withDefault none
    (nullable (variantOf crates AuthenticatedUserVenueOrderType.names)) (field "order_type")
  let makerAddress ← withDefault none (nullable crates.address) (field "maker_address")
  return { id, market, assetId, side, price, eventType, originalSize, sizeMatched, timestamp,
           associatedTrades, status, owner, orderOwner, outcome, createdAt, expiration, orderType,
           makerAddress }

/-- The tag `event_type` says what the rest of an event is. -/
def WireUserEvent.deserialize (value : Json) : Option WireUserEvent := do
  let (tag, content) ← value.tagged "event_type"
  match ← textValue tag with
  | "trade" => return .trade (← WireTrade.deserialize crates content)
  | "order" => return .order (← WireOrder.deserialize crates content)
  | _ => none

/-- What `OneOrMany` visits. -/
def frameValue : Json → FrameValue
  | .object entries => .map (WireUserEvent.deserialize crates (.object entries))
  | .array values => .seq (values.map (WireUserEvent.deserialize crates))
  | _ => .other

end

end Wire

/-! ## Writing -/

def ClobSide.text : ClobSide → String
  | buy => "BUY"
  | sell => "SELL"

def AuthenticatedTraderSide.text : AuthenticatedTraderSide → String
  | taker => "TAKER"
  | maker => "MAKER"

def AuthenticatedUserTradeStatus.text : AuthenticatedUserTradeStatus → String
  | matchedNotBroadcasted => "MATCHED_NOT_BROADCASTED"
  | matched => "MATCHED"
  | mined => "MINED"
  | confirmed => "CONFIRMED"
  | retrying => "RETRYING"
  | failed => "FAILED"

def AuthenticatedUserOrderType.text : AuthenticatedUserOrderType → String
  | placement => "PLACEMENT"
  | update => "UPDATE"
  | cancellation => "CANCELLATION"

def AuthenticatedUserOrderStatus.text : AuthenticatedUserOrderStatus → String
  | live => "LIVE"
  | matched => "MATCHED"
  | delayed => "DELAYED"
  | unmatched => "UNMATCHED"
  | canceled => "CANCELED"

def AuthenticatedUserVenueOrderType.text : AuthenticatedUserVenueOrderType → String
  | gtc => "GTC"
  | gtd => "GTD"
  | fak => "FAK"
  | fok => "FOK"

/-- A key, with dashes between its groups of digits. -/
def apiKeyText (key : ApiKey) : String :=
  let digits := Hex.toHex 32 key.toNat
  String.ofList (digits.take 8 ++ '-' :: (digits.drop 8).take 4 ++ '-' :: (digits.drop 12).take 4 ++
    '-' :: (digits.drop 16).take 4 ++ '-' :: digits.drop 20)

def decimalValue (q : ℚ) : Json := .string (exactText q)
def timeValue (n : ℤ) : Json := .string n.toNat.repr
def countValue (n : ℕ) : Json := .string n.repr
def addressValue (address : Address) : Json := .string (lowerHex address)
def apiKeyValue (key : ApiKey) : Json := .string (apiKeyText key)

namespace AuthenticatedUserMakerOrder

variable (order : AuthenticatedUserMakerOrder)

def written : List (String × Option Json) := [
  ("asset_id", some (.string (u256Text order.assetId))),
  ("matched_amount", some (decimalValue order.matchedAmount)),
  ("order_id", some (.string order.orderId)),
  ("owner", some (apiKeyValue order.owner)),
  ("price", some (decimalValue order.price)),
  ("side", some (.string order.side.text)),
  ("maker_address", order.makerAddress.map addressValue),
  ("outcome", order.outcome.map .string),
  ("outcome_index", order.outcomeIndex.map countValue),
  ("fee_rate_bps", order.feeRateBps.map decimalValue),
  ("fee_usdc", order.feeUsdc.map decimalValue)]

/-- The value is the object of an order, with its entries in some order. -/
def Writes (value : Json) : Prop :=
  ∃ entries, value = .object entries ∧ entries.Perm (present order.written)

end AuthenticatedUserMakerOrder

namespace AuthenticatedUserTrade

variable (trade : AuthenticatedUserTrade)

def written (makerOrders : List Json) : List (String × Option Json) := [
  ("id", some (.string trade.id)),
  ("market", some (.string (Sdk.hashText trade.market))),
  ("asset_id", some (.string (u256Text trade.assetId))),
  ("side", some (.string trade.side.text)),
  ("size", some (decimalValue trade.size)),
  ("price", some (decimalValue trade.price)),
  ("status", some (.string trade.status.text)),
  ("type", some (.string "TRADE")),
  ("last_update", trade.lastUpdate.map timeValue),
  ("matchtime", trade.matchTime.map timeValue),
  ("timestamp", trade.timestamp.map timeValue),
  ("owner", trade.owner.map apiKeyValue),
  ("trade_owner", trade.tradeOwner.map apiKeyValue),
  ("taker_order_id", trade.takerOrderId.map .string),
  ("maker_orders", some (.array makerOrders)),
  ("fee_rate_bps", trade.feeRateBps.map decimalValue),
  ("fee_usdc", trade.feeUsdc.map decimalValue),
  ("trader_side", trade.traderSide.map fun side => .string side.text),
  ("outcome", trade.outcome.map .string),
  ("maker_address", trade.makerAddress.map addressValue),
  ("transaction_hash", trade.transactionHash.map fun hash => .string (Sdk.hashText hash)),
  ("bucket_index", trade.bucketIndex.map countValue)]

def Writes (value : Json) : Prop :=
  ∃ makerOrders entries, List.Forall₂ AuthenticatedUserMakerOrder.Writes trade.makerOrders
      makerOrders ∧ value = .object entries ∧
    entries.Perm (("event_type", .string "trade") :: present (trade.written makerOrders))

end AuthenticatedUserTrade

namespace AuthenticatedUserOrder

variable (order : AuthenticatedUserOrder)

def written : List (String × Option Json) := [
  ("id", some (.string order.id)),
  ("market", some (.string (Sdk.hashText order.market))),
  ("asset_id", some (.string (u256Text order.assetId))),
  ("side", some (.string order.side.text)),
  ("price", some (decimalValue order.price)),
  ("type", order.eventType.map fun eventType => .string eventType.text),
  ("original_size", order.originalSize.map decimalValue),
  ("size_matched", order.sizeMatched.map decimalValue),
  ("timestamp", order.timestamp.map timeValue),
  ("associate_trades", order.associatedTrades.map fun trades => .array (trades.map .string)),
  ("status", order.status.map fun status => .string status.text),
  ("owner", order.owner.map apiKeyValue),
  ("order_owner", order.orderOwner.map apiKeyValue),
  ("outcome", order.outcome.map .string),
  ("created_at", order.createdAt.map timeValue),
  ("expiration", order.expiration.map timeValue),
  ("order_type", order.orderType.map fun orderType => .string orderType.text),
  ("maker_address", order.makerAddress.map addressValue)]

def Writes (value : Json) : Prop :=
  ∃ entries, value = .object entries ∧
    entries.Perm (("event_type", .string "order") :: present order.written)

end AuthenticatedUserOrder

def AuthenticatedUserEvent.Writes : AuthenticatedUserEvent → Json → Prop
  | .trade event, value => event.Writes value
  | .order event, value => event.Writes value

/-- The value of a frame: an array of events, or one event. -/
inductive FrameWrites : List AuthenticatedUserEvent → Json → Prop
  | many {events : List AuthenticatedUserEvent} {values : List Json}
    (h : List.Forall₂ AuthenticatedUserEvent.Writes events values) :
    FrameWrites events (.array values)
  | one {event : AuthenticatedUserEvent} {value : Json} (h : event.Writes value) :
    FrameWrites [event] value

/-! ## Valid events -/

structure AuthenticatedUserMakerOrder.Valid (order : AuthenticatedUserMakerOrder) : Prop where
  orderId : venueIdentifierIsValid order.orderId = true
  matchedAmount : Exact order.matchedAmount
  price : Exact order.price
  price_le : order.price ≤ 1
  feeRateBps : ∀ fee ∈ order.feeRateBps, Exact fee
  feeUsdc : ∀ fee ∈ order.feeUsdc, Exact fee
  outcome : optionalOutcomeIsValid order.outcome = true
  outcomeIndex : ∀ index ∈ order.outcomeIndex, index < 2 ^ 63

structure AuthenticatedUserTrade.Valid (trade : AuthenticatedUserTrade) : Prop where
  id : venueIdentifierIsValid trade.id = true
  takerOrderId : ∀ id ∈ trade.takerOrderId, venueIdentifierIsValid id = true
  size : Exact trade.size
  price : Exact trade.price
  price_le : trade.price ≤ 1
  lastUpdate : ∀ time ∈ trade.lastUpdate, InI64 time
  matchTime : ∀ time ∈ trade.matchTime, InI64 time
  timestamp : ∀ time ∈ trade.timestamp, InI64 time
  makerOrders : ∀ order ∈ trade.makerOrders, order.Valid
  feeRateBps : ∀ fee ∈ trade.feeRateBps, Exact fee
  feeUsdc : ∀ fee ∈ trade.feeUsdc, Exact fee
  outcome : optionalOutcomeIsValid trade.outcome = true
  bucketIndex : ∀ index ∈ trade.bucketIndex, index < 2 ^ 63

structure AuthenticatedUserOrder.Valid (order : AuthenticatedUserOrder) : Prop where
  id : venueIdentifierIsValid order.id = true
  price : Exact order.price
  price_pos : 0 < order.price
  price_le : order.price ≤ 1
  originalSize : ∀ size ∈ order.originalSize, Exact size ∧ 0 < size
  sizeMatched : ∀ size ∈ order.sizeMatched, Exact size
  sizes : order.originalSize.isSome = order.sizeMatched.isSome
  matched_le : ∀ original ∈ order.originalSize, ∀ matched ∈ order.sizeMatched, matched ≤ original
  timestamp : ∀ time ∈ order.timestamp, InI64 time
  associatedTrades : ∀ trades ∈ order.associatedTrades, ∀ id ∈ trades,
    venueIdentifierIsValid id = true
  outcome : optionalOutcomeIsValid order.outcome = true
  createdAt : ∀ time ∈ order.createdAt, InI64 time
  expiration : ∀ time ∈ order.expiration, InI64 time

def AuthenticatedUserEvent.Valid : AuthenticatedUserEvent → Prop
  | .trade event => event.Valid
  | .order event => event.Valid

/-! ## Fields that were written -/

/-- Each package reads its own texts, and a text is the name of a variant. -/
structure WireCrates.Lawful (crates : WireCrates) : Prop where
  u256 : ∀ value, crates.u256 (.string (u256Text value)) = some value
  b256 : ∀ value, crates.b256 (.string (Sdk.hashText value)) = some value
  b256FromStr : ∀ value, crates.b256FromStr (Sdk.hashText value) = some value
  address : ∀ value, crates.address (addressValue value) = some value
  apiKey : ∀ value, crates.apiKey (apiKeyValue value) = some value
  decimals : ReadsDecimals crates.fromStrExact
  variant : ∀ name, crates.variant (.string name) = some name
  number : ReadsI64 crates.number

section

variable {α : Type} {crates : WireCrates}

theorem variantOf_text (hcrates : crates.Lawful) {names : List (String × α)} {text : α → String}
    (hnames : ∀ a, names.lookup (text a) = some a) (a : α) :
    Wire.variantOf crates names (.string (text a)) = some a := by
  rw [Wire.variantOf, hcrates.variant, Option.bind_some, hnames]

theorem optional_text (value : Option String) :
    withDefault none (nullable textValue) (value.map .string) = some value :=
  withDefault_map fun _ _ => nullable_string rfl

theorem optional_variant (hcrates : crates.Lawful) {names : List (String × α)}
    {text : α → String} (hnames : ∀ a, names.lookup (text a) = some a) (value : Option α) :
    withDefault none (nullable (Wire.variantOf crates names))
      (value.map fun a => .string (text a)) = some value :=
  withDefault_map fun a _ => nullable_string (variantOf_text hcrates hnames a)

theorem optional_address (hcrates : crates.Lawful) (value : Option Address) :
    withDefault none (nullable crates.address) (value.map addressValue) = some value :=
  withDefault_map fun address _ => nullable_string (hcrates.address address)

theorem optional_apiKey (hcrates : crates.Lawful) (value : Option ApiKey) :
    withDefault none (nullable crates.apiKey) (value.map apiKeyValue) = some value :=
  withDefault_map fun key _ => nullable_string (hcrates.apiKey key)

theorem optional_decimal (hcrates : crates.Lawful) {value : Option ℚ}
    (h : ∀ q ∈ value, Exact q) :
    withDefault none (optionalQuotedDecimal crates.fromStrExact) (value.map decimalValue) =
      some value :=
  withDefault_map fun q hq => optionalQuotedDecimal_exactText hcrates.decimals (h q hq)

theorem quotedDecimal_value (hcrates : crates.Lawful) {q : ℚ} (h : Exact q) :
    quotedDecimal crates.fromStrExact (decimalValue q) = some q :=
  quotedDecimal_exactText hcrates.decimals h

theorem optional_quotedTime {value : Option ℤ} (h : ∀ n ∈ value, InI64 n) :
    withDefault none optionalQuotedI64 (value.map timeValue) = some value :=
  withDefault_map fun n hn => optionalQuotedI64_repr (h n hn)

theorem optional_time {value : Option ℤ} (h : ∀ n ∈ value, InI64 n) :
    withDefault none (optionalI64 crates.number) (value.map timeValue) = some value :=
  withDefault_map fun n hn => optionalI64_repr crates.number (h n hn)

theorem optional_count {value : Option ℕ} (h : ∀ n ∈ value, n < 2 ^ 63) :
    withDefault none (optionalU64 crates.number) (value.map countValue) = some value :=
  withDefault_map fun n hn => optionalU64_repr crates.number (h n hn)

theorem optional_hash (hcrates : crates.Lawful) (value : Option B256) :
    withDefault none (Wire.optionalEmptyB256 crates)
      (value.map fun hash => .string (Sdk.hashText hash)) = some value := by
  refine withDefault_map fun hash _ => ?_
  have hne : (Sdk.hashText hash).isEmpty = false := by
    rw [← Bool.not_eq_true, String.isEmpty_iff, ← String.toList_inj, Sdk.hashText,
      String.toList_ofList]
    exact List.cons_ne_nil _ _
  rw [Wire.optionalEmptyB256, hne, if_neg Bool.false_ne_true, hcrates.b256FromStr]
  rfl

theorem optional_texts (value : Option (List String)) :
    withDefault none (nullable (listOf textValue))
      (value.map fun texts => .array (texts.map .string)) = some value := by
  have hread : ∀ texts : List String, (texts.map Json.string).mapM textValue = some texts := by
    intro texts
    induction texts with
    | nil => rfl
    | cons text texts ih =>
      rw [List.map_cons, List.mapM_cons, ih]
      rfl
  refine withDefault_map fun texts _ => ?_
  rw [nullable_array, listOf, hread]
  rfl

end

theorem ClobSide.lookup_text (side : ClobSide) : names.lookup side.text = some side := by
  cases side <;> rfl

theorem AuthenticatedTraderSide.lookup_text (side : AuthenticatedTraderSide) :
    names.lookup side.text = some side := by
  cases side <;> rfl

theorem AuthenticatedUserTradeStatus.lookup_text (status : AuthenticatedUserTradeStatus) :
    names.lookup status.text = some status := by
  cases status <;> rfl

theorem AuthenticatedUserOrderType.lookup_text (orderType : AuthenticatedUserOrderType) :
    names.lookup orderType.text = some orderType := by
  cases orderType <;> rfl

theorem AuthenticatedUserOrderStatus.lookup_text (status : AuthenticatedUserOrderStatus) :
    names.lookup status.text = some status := by
  cases status <;> rfl

theorem AuthenticatedUserVenueOrderType.lookup_text (orderType : AuthenticatedUserVenueOrderType) :
    names.lookup orderType.text = some orderType := by
  cases orderType <;> rfl

/-! ## Events that were written -/

/-- The wire form of an order that was written. -/
def AuthenticatedUserMakerOrder.wire (order : AuthenticatedUserMakerOrder) :
    Wire.WireMakerOrder where
  assetId := order.assetId
  matchedAmount := order.matchedAmount
  orderId := order.orderId
  owner := order.owner
  price := order.price
  side := order.side
  makerAddress := order.makerAddress
  outcome := order.outcome
  outcomeIndex := order.outcomeIndex
  feeRateBps := order.feeRateBps
  feeUsdc := order.feeUsdc

def AuthenticatedUserTrade.wire (trade : AuthenticatedUserTrade) : Wire.WireTrade where
  id := trade.id
  market := trade.market
  assetId := trade.assetId
  side := trade.side
  size := trade.size
  price := trade.price
  status := trade.status
  messageType := some .trade
  lastUpdate := trade.lastUpdate
  matchtime := trade.matchTime
  timestamp := trade.timestamp
  owner := trade.owner
  tradeOwner := trade.tradeOwner
  takerOrderId := trade.takerOrderId
  makerOrders := trade.makerOrders.map (·.wire)
  feeRateBps := trade.feeRateBps
  feeUsdc := trade.feeUsdc
  traderSide := trade.traderSide
  outcome := trade.outcome
  makerAddress := trade.makerAddress
  transactionHash := trade.transactionHash
  bucketIndex := trade.bucketIndex

def AuthenticatedUserOrder.wire (order : AuthenticatedUserOrder) : Wire.WireOrder where
  id := order.id
  market := order.market
  assetId := order.assetId
  side := order.side
  price := order.price
  eventType := order.eventType
  originalSize := order.originalSize
  sizeMatched := order.sizeMatched
  timestamp := order.timestamp
  associatedTrades := order.associatedTrades
  status := order.status
  owner := order.owner
  orderOwner := order.orderOwner
  outcome := order.outcome
  createdAt := order.createdAt
  expiration := order.expiration
  orderType := order.orderType
  makerAddress := order.makerAddress

section

variable {crates : WireCrates} (hcrates : crates.Lawful)
include hcrates

theorem AuthenticatedUserMakerOrder.deserialize_of_writes {order : AuthenticatedUserMakerOrder}
    {value : Json} (hvalid : order.Valid) (h : order.Writes value) :
    Wire.WireMakerOrder.deserialize crates value = some order.wire := by
  obtain ⟨entries, rfl, hperm⟩ := h
  obtain ⟨field, htable, hfield⟩ :=
    @table_present true Wire.WireMakerOrder.fields _ _ (by decide) (by rfl) hperm
  refine Option.bind_eq_some_iff.2 ⟨field, htable, ?_⟩
  -- what is found for each field, and what it is read as
  simp only [hfield "asset_id" _ rfl, hfield "matched_amount" _ rfl, hfield "order_id" _ rfl,
    hfield "owner" _ rfl, hfield "price" _ rfl, hfield "side" _ rfl, hfield "maker_address" _ rfl,
    hfield "outcome" _ rfl, hfield "outcome_index" _ rfl, hfield "fee_rate_bps" _ rfl,
    hfield "fee_usdc" _ rfl, required_some]
  simp only [textValue, hcrates.u256, hcrates.apiKey, quotedDecimal_value hcrates hvalid.price,
    quotedDecimal_value hcrates hvalid.matchedAmount,
    variantOf_text hcrates ClobSide.lookup_text, optional_address hcrates, optional_text,
    optional_count hvalid.outcomeIndex, optional_decimal hcrates hvalid.feeRateBps,
    optional_decimal hcrates hvalid.feeUsdc]
  rfl

theorem makerOrders_of_writes {orders : List AuthenticatedUserMakerOrder} {values : List Json}
    (hvalid : ∀ order ∈ orders, order.Valid)
    (h : List.Forall₂ AuthenticatedUserMakerOrder.Writes orders values) :
    Wire.wireMakerOrdersOrEmpty crates (.array values) = some (orders.map (·.wire)) := by
  have hread : values.mapM (Wire.WireMakerOrder.deserialize crates) =
      some (orders.map (·.wire)) := by
    induction h with
    | nil => rfl
    | cons horder _ ih =>
      obtain ⟨hhead, htail⟩ := List.forall_mem_cons.1 hvalid
      rw [List.mapM_cons, AuthenticatedUserMakerOrder.deserialize_of_writes hcrates hhead horder,
        ih htail]
      rfl
  rw [Wire.wireMakerOrdersOrEmpty, nullable_array, listOf, hread]
  rfl

theorem AuthenticatedUserTrade.deserialize_of_writes {trade : AuthenticatedUserTrade}
    {makerOrders : List Json} {entries : List (String × Json)} (hvalid : trade.Valid)
    (hmakers : List.Forall₂ AuthenticatedUserMakerOrder.Writes trade.makerOrders makerOrders)
    (hperm : entries.Perm (present (trade.written makerOrders))) :
    Wire.WireTrade.deserialize crates (.object entries) = some trade.wire := by
  obtain ⟨field, htable, hfield⟩ :=
    @table_present true Wire.WireTrade.fields _ _ (by decide) (by rfl) hperm
  have htype : withDefault none (nullable (Wire.variantOf crates Wire.WireTradeType.names))
      (some (.string "TRADE")) = some (some .trade) := by
    rw [withDefault_some]
    exact nullable_string (by rw [Wire.variantOf, hcrates.variant]; rfl)
  refine Option.bind_eq_some_iff.2 ⟨field, htable, ?_⟩
  simp only [hfield "id" _ rfl, hfield "market" _ rfl, hfield "asset_id" _ rfl,
    hfield "side" _ rfl, hfield "size" _ rfl, hfield "price" _ rfl, hfield "status" _ rfl,
    hfield "type" _ rfl, hfield "last_update" _ rfl, hfield "matchtime" _ rfl,
    hfield "timestamp" _ rfl, hfield "owner" _ rfl, hfield "trade_owner" _ rfl,
    hfield "taker_order_id" _ rfl, hfield "maker_orders" _ rfl, hfield "fee_rate_bps" _ rfl,
    hfield "fee_usdc" _ rfl, hfield "trader_side" _ rfl, hfield "outcome" _ rfl,
    hfield "maker_address" _ rfl, hfield "transaction_hash" _ rfl, hfield "bucket_index" _ rfl,
    required_some]
  simp only [textValue, hcrates.u256, hcrates.b256, quotedDecimal_value hcrates hvalid.price,
    quotedDecimal_value hcrates hvalid.size, variantOf_text hcrates ClobSide.lookup_text,
    variantOf_text hcrates AuthenticatedUserTradeStatus.lookup_text, htype,
    optional_quotedTime hvalid.lastUpdate, optional_quotedTime hvalid.matchTime,
    optional_quotedTime hvalid.timestamp, optional_apiKey hcrates, withDefault_some [],
    makerOrders_of_writes hcrates hvalid.makerOrders hmakers,
    optional_variant hcrates AuthenticatedTraderSide.lookup_text,
    optional_address hcrates, optional_text, optional_hash hcrates,
    optional_count hvalid.bucketIndex, optional_decimal hcrates hvalid.feeRateBps,
    optional_decimal hcrates hvalid.feeUsdc]
  rfl

theorem AuthenticatedUserOrder.deserialize_of_writes {order : AuthenticatedUserOrder}
    {entries : List (String × Json)} (hvalid : order.Valid)
    (hperm : entries.Perm (present order.written)) :
    Wire.WireOrder.deserialize crates (.object entries) = some order.wire := by
  obtain ⟨field, htable, hfield⟩ :=
    @table_present true Wire.WireOrder.fields _ _ (by decide) (by rfl) hperm
  have hsize : ∀ size ∈ order.originalSize, Exact size :=
    fun size hsize => (hvalid.originalSize size hsize).1
  refine Option.bind_eq_some_iff.2 ⟨field, htable, ?_⟩
  simp only [hfield "id" _ rfl, hfield "market" _ rfl, hfield "asset_id" _ rfl,
    hfield "side" _ rfl, hfield "price" _ rfl, hfield "type" _ rfl, hfield "original_size" _ rfl,
    hfield "size_matched" _ rfl, hfield "timestamp" _ rfl, hfield "associate_trades" _ rfl,
    hfield "status" _ rfl, hfield "owner" _ rfl, hfield "order_owner" _ rfl,
    hfield "outcome" _ rfl, hfield "created_at" _ rfl, hfield "expiration" _ rfl,
    hfield "order_type" _ rfl, hfield "maker_address" _ rfl, required_some]
  simp only [textValue, hcrates.u256, hcrates.b256, quotedDecimal_value hcrates hvalid.price,
    variantOf_text hcrates ClobSide.lookup_text,
    optional_variant hcrates AuthenticatedUserOrderType.lookup_text,
    optional_decimal hcrates hsize, optional_decimal hcrates hvalid.sizeMatched,
    optional_quotedTime hvalid.timestamp, optional_texts,
    optional_variant hcrates AuthenticatedUserOrderStatus.lookup_text, optional_apiKey hcrates,
    optional_text, optional_time hvalid.createdAt, optional_time hvalid.expiration,
    optional_variant hcrates AuthenticatedUserVenueOrderType.lookup_text,
    optional_address hcrates]
  rfl

end

/-! ## Events that are valid -/

theorem not_any_neg {value : Option ℚ} (h : ∀ q ∈ value, Exact q) :
    value.any (fun q => decide (q < 0)) = false := by
  cases value with
  | none => rfl
  | some q => exact decide_eq_false (not_lt.2 (h q rfl).1)

theorem AuthenticatedUserMakerOrder.tryFrom_wire {order : AuthenticatedUserMakerOrder}
    (h : order.Valid) : tryFrom order.wire = .ok order := by
  rw [tryFrom, if_neg]
  · rfl
  · simp only [wire, h.orderId, h.outcome, not_any_neg h.feeRateBps, not_any_neg h.feeUsdc,
      not_lt.2 h.matchedAmount.1, not_lt.2 h.price.1, not_lt.2 h.price_le]
    decide

theorem AuthenticatedUserTrade.tryFrom_wire {trade : AuthenticatedUserTrade}
    (h : trade.Valid) : tryFrom trade.wire = .ok trade := by
  have htaker : trade.takerOrderId.any (fun id => !venueIdentifierIsValid id) = false := by
    have hall := h.takerOrderId
    cases htaker : trade.takerOrderId with
    | none => rfl
    | some id =>
      rw [Option.any_some, hall id htaker]
      rfl
  have hmakers : (trade.makerOrders.map (·.wire)).mapM AuthenticatedUserMakerOrder.tryFrom =
      .ok trade.makerOrders := by
    rw [mapM_eq_ok, List.forall₂_map_left_iff, List.forall₂_same]
    exact fun order horder => AuthenticatedUserMakerOrder.tryFrom_wire (h.makerOrders order horder)
  rw [tryFrom, if_neg]
  · show (trade.makerOrders.map (·.wire)).mapM AuthenticatedUserMakerOrder.tryFrom >>= _ = _
    rw [hmakers]
    rfl
  · simp only [wire, h.id, htaker, h.outcome, not_any_neg h.feeRateBps, not_any_neg h.feeUsdc,
      not_lt.2 h.size.1, not_lt.2 h.price.1, not_lt.2 h.price_le]
    decide

theorem AuthenticatedUserOrder.sizeValid_wire {order : AuthenticatedUserOrder} (h : order.Valid) :
    order.wire.sizeValid = true := by
  have hsome := h.sizes
  have hle := h.matched_le
  rw [Wire.WireOrder.sizeValid]
  dsimp only [wire]
  cases hsize : order.originalSize with
  | none =>
    cases hfilled : order.sizeMatched with
    | none => rfl
    | some matched =>
      rw [hsize, hfilled] at hsome
      cases hsome
  | some original =>
    cases hfilled : order.sizeMatched with
    | none =>
      rw [hsize, hfilled] at hsome
      cases hsome
    | some matched =>
      simp [(h.originalSize original hsize).2, (h.sizeMatched matched hfilled).1,
        hle original hsize matched hfilled]

theorem AuthenticatedUserOrder.tryFrom_wire {order : AuthenticatedUserOrder}
    (h : order.Valid) : tryFrom order.wire = .ok order := by
  have hassociated : order.associatedTrades.all (·.all venueIdentifierIsValid) = true := by
    have hall := h.associatedTrades
    cases htrades : order.associatedTrades with
    | none => rfl
    | some trades => exact List.all_eq_true.2 (hall trades htrades)
  have hsize := sizeValid_wire h
  unfold tryFrom
  dsimp only
  rw [if_neg]
  · rfl
  · simp only [wire] at hsize ⊢
    simp only [hsize, h.id, h.outcome, hassociated, not_le.2 h.price_pos, not_lt.2 h.price_le]
    decide

/-- What is read is exact, and its times and counts are within range. -/
structure Wire.WireMakerOrder.Read (order : WireMakerOrder) : Prop where
  matchedAmount : Exact order.matchedAmount
  price : Exact order.price
  feeRateBps : ∀ fee ∈ order.feeRateBps, Exact fee
  feeUsdc : ∀ fee ∈ order.feeUsdc, Exact fee
  outcomeIndex : ∀ index ∈ order.outcomeIndex, index < 2 ^ 63

structure Wire.WireTrade.Read (trade : WireTrade) : Prop where
  size : Exact trade.size
  price : Exact trade.price
  lastUpdate : ∀ time ∈ trade.lastUpdate, InI64 time
  matchtime : ∀ time ∈ trade.matchtime, InI64 time
  timestamp : ∀ time ∈ trade.timestamp, InI64 time
  makerOrders : ∀ order ∈ trade.makerOrders, order.Read
  feeRateBps : ∀ fee ∈ trade.feeRateBps, Exact fee
  feeUsdc : ∀ fee ∈ trade.feeUsdc, Exact fee
  bucketIndex : ∀ index ∈ trade.bucketIndex, index < 2 ^ 63

structure Wire.WireOrder.Read (order : WireOrder) : Prop where
  price : Exact order.price
  originalSize : ∀ size ∈ order.originalSize, Exact size
  sizeMatched : ∀ size ∈ order.sizeMatched, Exact size
  timestamp : ∀ time ∈ order.timestamp, InI64 time
  createdAt : ∀ time ∈ order.createdAt, InI64 time
  expiration : ∀ time ∈ order.expiration, InI64 time

section

variable {crates : WireCrates} (hcrates : crates.Lawful)
include hcrates

theorem exact_of_required {value : Option Json} {q : ℚ}
    (h : required (quotedDecimal crates.fromStrExact) value = some q) : Exact q := by
  obtain ⟨v, -, hread⟩ := required_eq_some.1 h
  exact quotedDecimal_eq_some hcrates.decimals hread

theorem exact_of_withDefault {value : Option Json} {read : Option ℚ}
    (h : withDefault none (optionalQuotedDecimal crates.fromStrExact) value = some read) :
    ∀ q ∈ read, Exact q :=
  of_withDefault (P := fun read => ∀ q ∈ read, Exact q) h (by simp)
    fun _ _ => optionalQuotedDecimal_eq_some hcrates.decimals

theorem count_of_withDefault {value : Option Json} {read : Option ℕ}
    (h : withDefault none (optionalU64 crates.number) value = some read) :
    ∀ n ∈ read, n < 2 ^ 63 :=
  of_withDefault (P := fun read => ∀ n ∈ read, n < 2 ^ 63) h (by simp)
    fun _ _ => optionalU64_eq_some hcrates.number

theorem Wire.WireMakerOrder.read_of_deserialize {value : Json} {order : WireMakerOrder}
    (h : WireMakerOrder.deserialize crates value = some order) : order.Read := by
  unfold WireMakerOrder.deserialize at h
  obtain ⟨_, -, h⟩ := Option.bind_eq_some_iff.1 h
  obtain ⟨_, -, h⟩ := Option.bind_eq_some_iff.1 h
  obtain ⟨_, hmatched, h⟩ := Option.bind_eq_some_iff.1 h
  obtain ⟨_, -, h⟩ := Option.bind_eq_some_iff.1 h
  obtain ⟨_, -, h⟩ := Option.bind_eq_some_iff.1 h
  obtain ⟨_, hprice, h⟩ := Option.bind_eq_some_iff.1 h
  obtain ⟨_, -, h⟩ := Option.bind_eq_some_iff.1 h
  obtain ⟨_, -, h⟩ := Option.bind_eq_some_iff.1 h
  obtain ⟨_, -, h⟩ := Option.bind_eq_some_iff.1 h
  obtain ⟨_, hindex, h⟩ := Option.bind_eq_some_iff.1 h
  obtain ⟨_, hrate, h⟩ := Option.bind_eq_some_iff.1 h
  obtain ⟨_, husdc, h⟩ := Option.bind_eq_some_iff.1 h
  cases h
  exact ⟨exact_of_required hcrates hmatched, exact_of_required hcrates hprice,
    exact_of_withDefault hcrates hrate, exact_of_withDefault hcrates husdc,
    count_of_withDefault hcrates hindex⟩

omit hcrates in
theorem quotedTime_of_withDefault {value : Option Json} {read : Option ℤ}
    (h : withDefault none optionalQuotedI64 value = some read) : ∀ n ∈ read, InI64 n :=
  of_withDefault (P := fun read => ∀ n ∈ read, InI64 n) h (by simp)
    fun _ _ => optionalQuotedI64_eq_some

theorem time_of_withDefault {value : Option Json} {read : Option ℤ}
    (h : withDefault none (optionalI64 crates.number) value = some read) : ∀ n ∈ read, InI64 n :=
  of_withDefault (P := fun read => ∀ n ∈ read, InI64 n) h (by simp)
    fun _ _ => optionalI64_eq_some hcrates.number

theorem makerOrders_of_withDefault {value : Option Json} {orders : List Wire.WireMakerOrder}
    (h : withDefault [] (Wire.wireMakerOrdersOrEmpty crates) value = some orders) :
    ∀ order ∈ orders, order.Read := by
  refine of_withDefault (P := fun orders => ∀ order ∈ orders, order.Read) h (by simp) ?_
  intro v orders hread
  obtain ⟨read, hlist, rfl⟩ := Option.map_eq_some_iff.1 hread
  cases read with
  | none => simp
  | some orders =>
    have hvalues := nullable_eq_some hlist
    cases v with
    | array values =>
      intro order horder
      obtain ⟨v, -, hv⟩ := mem_of_mapM hvalues order horder
      exact Wire.WireMakerOrder.read_of_deserialize hcrates hv
    | _ => cases hvalues

theorem Wire.WireTrade.read_of_deserialize {value : Json} {trade : WireTrade}
    (h : WireTrade.deserialize crates value = some trade) : trade.Read := by
  unfold WireTrade.deserialize at h
  obtain ⟨_, -, h⟩ := Option.bind_eq_some_iff.1 h
  obtain ⟨_, -, h⟩ := Option.bind_eq_some_iff.1 h
  obtain ⟨_, -, h⟩ := Option.bind_eq_some_iff.1 h
  obtain ⟨_, -, h⟩ := Option.bind_eq_some_iff.1 h
  obtain ⟨_, -, h⟩ := Option.bind_eq_some_iff.1 h
  obtain ⟨_, hsize, h⟩ := Option.bind_eq_some_iff.1 h
  obtain ⟨_, hprice, h⟩ := Option.bind_eq_some_iff.1 h
  obtain ⟨_, -, h⟩ := Option.bind_eq_some_iff.1 h
  obtain ⟨_, -, h⟩ := Option.bind_eq_some_iff.1 h
  obtain ⟨_, hlast, h⟩ := Option.bind_eq_some_iff.1 h
  obtain ⟨_, hmatch, h⟩ := Option.bind_eq_some_iff.1 h
  obtain ⟨_, htime, h⟩ := Option.bind_eq_some_iff.1 h
  obtain ⟨_, -, h⟩ := Option.bind_eq_some_iff.1 h
  obtain ⟨_, -, h⟩ := Option.bind_eq_some_iff.1 h
  obtain ⟨_, -, h⟩ := Option.bind_eq_some_iff.1 h
  obtain ⟨_, hmakers, h⟩ := Option.bind_eq_some_iff.1 h
  obtain ⟨_, hrate, h⟩ := Option.bind_eq_some_iff.1 h
  obtain ⟨_, husdc, h⟩ := Option.bind_eq_some_iff.1 h
  obtain ⟨_, -, h⟩ := Option.bind_eq_some_iff.1 h
  obtain ⟨_, -, h⟩ := Option.bind_eq_some_iff.1 h
  obtain ⟨_, -, h⟩ := Option.bind_eq_some_iff.1 h
  obtain ⟨_, -, h⟩ := Option.bind_eq_some_iff.1 h
  obtain ⟨_, hindex, h⟩ := Option.bind_eq_some_iff.1 h
  cases h
  exact ⟨exact_of_required hcrates hsize, exact_of_required hcrates hprice,
    quotedTime_of_withDefault hlast, quotedTime_of_withDefault hmatch,
    quotedTime_of_withDefault htime, makerOrders_of_withDefault hcrates hmakers,
    exact_of_withDefault hcrates hrate, exact_of_withDefault hcrates husdc,
    count_of_withDefault hcrates hindex⟩

theorem Wire.WireOrder.read_of_deserialize {value : Json} {order : WireOrder}
    (h : WireOrder.deserialize crates value = some order) : order.Read := by
  unfold WireOrder.deserialize at h
  obtain ⟨_, -, h⟩ := Option.bind_eq_some_iff.1 h
  obtain ⟨_, -, h⟩ := Option.bind_eq_some_iff.1 h
  obtain ⟨_, -, h⟩ := Option.bind_eq_some_iff.1 h
  obtain ⟨_, -, h⟩ := Option.bind_eq_some_iff.1 h
  obtain ⟨_, -, h⟩ := Option.bind_eq_some_iff.1 h
  obtain ⟨_, hprice, h⟩ := Option.bind_eq_some_iff.1 h
  obtain ⟨_, -, h⟩ := Option.bind_eq_some_iff.1 h
  obtain ⟨_, horiginal, h⟩ := Option.bind_eq_some_iff.1 h
  obtain ⟨_, hmatched, h⟩ := Option.bind_eq_some_iff.1 h
  obtain ⟨_, htime, h⟩ := Option.bind_eq_some_iff.1 h
  obtain ⟨_, -, h⟩ := Option.bind_eq_some_iff.1 h
  obtain ⟨_, -, h⟩ := Option.bind_eq_some_iff.1 h
  obtain ⟨_, -, h⟩ := Option.bind_eq_some_iff.1 h
  obtain ⟨_, -, h⟩ := Option.bind_eq_some_iff.1 h
  obtain ⟨_, -, h⟩ := Option.bind_eq_some_iff.1 h
  obtain ⟨_, hcreated, h⟩ := Option.bind_eq_some_iff.1 h
  obtain ⟨_, hexpiration, h⟩ := Option.bind_eq_some_iff.1 h
  obtain ⟨_, -, h⟩ := Option.bind_eq_some_iff.1 h
  obtain ⟨_, -, h⟩ := Option.bind_eq_some_iff.1 h
  cases h
  exact ⟨exact_of_required hcrates hprice, exact_of_withDefault hcrates horiginal,
    exact_of_withDefault hcrates hmatched, quotedTime_of_withDefault htime,
    time_of_withDefault hcrates hcreated, time_of_withDefault hcrates hexpiration⟩

end

/-! ## Accepted events -/

theorem AuthenticatedUserMakerOrder.valid_of_tryFrom {wire : Wire.WireMakerOrder}
    {order : AuthenticatedUserMakerOrder} (hread : wire.Read) (h : tryFrom wire = .ok order) :
    order.Valid := by
  unfold tryFrom at h
  split_ifs at h with hchecks
  cases h
  simp only [Bool.or_eq_true, not_or, decide_eq_true_eq, not_lt, Bool.not_eq_true',
    Bool.not_eq_false] at hchecks
  obtain ⟨⟨⟨⟨⟨⟨horder, -⟩, -⟩, hprice⟩, -⟩, -⟩, houtcome⟩ := hchecks
  exact ⟨horder, hread.matchedAmount, hread.price, hprice, hread.feeRateBps, hread.feeUsdc,
    houtcome, hread.outcomeIndex⟩

theorem AuthenticatedUserTrade.valid_of_tryFrom {wire : Wire.WireTrade}
    {trade : AuthenticatedUserTrade} (hread : wire.Read) (h : tryFrom wire = .ok trade) :
    trade.Valid := by
  unfold tryFrom at h
  split_ifs at h with hchecks
  cases hmakers : wire.makerOrders.mapM AuthenticatedUserMakerOrder.tryFrom with
  | error error =>
    rw [hmakers] at h
    cases h
  | ok makerOrders =>
    rw [hmakers] at h
    cases h
    simp only [Bool.or_eq_true, not_or, decide_eq_true_eq, not_lt, Bool.not_eq_true',
      Bool.not_eq_false] at hchecks
    obtain ⟨⟨⟨⟨⟨⟨⟨⟨hid, htaker⟩, -⟩, -⟩, hprice⟩, -⟩, -⟩, -⟩, houtcome⟩ := hchecks
    have hvalid : ∀ order ∈ makerOrders, order.Valid := by
      have hall := mapM_eq_ok.1 hmakers
      have hreads := hread.makerOrders
      generalize wire.makerOrders = orders at hall hreads
      clear * - hall hreads
      induction hall with
      | nil => simp
      | cons horder _ ih =>
        rw [List.forall_mem_cons] at hreads ⊢
        exact ⟨AuthenticatedUserMakerOrder.valid_of_tryFrom hreads.1 horder, ih hreads.2⟩
    refine ⟨hid, ?_, hread.size, hread.price, hprice, hread.lastUpdate, hread.matchtime,
      hread.timestamp, hvalid, hread.feeRateBps, hread.feeUsdc, houtcome, hread.bucketIndex⟩
    intro id htaken
    dsimp only at htaken
    rw [Option.mem_def] at htaken
    rw [htaken] at htaker
    simpa using htaker

theorem AuthenticatedUserOrder.valid_of_tryFrom {wire : Wire.WireOrder}
    {order : AuthenticatedUserOrder} (hread : wire.Read) (h : tryFrom wire = .ok order) :
    order.Valid := by
  unfold tryFrom at h
  dsimp only at h
  split_ifs at h with hchecks
  cases h
  simp only [Bool.or_eq_true, not_or, decide_eq_true_eq, not_lt, not_le, Bool.not_eq_true',
    Bool.not_eq_false] at hchecks
  obtain ⟨⟨⟨⟨⟨hid, hpos⟩, hprice⟩, hsize⟩, hassociated⟩, houtcome⟩ := hchecks
  have hsizes : (wire.originalSize = none ∧ wire.sizeMatched = none) ∨
      ∃ original matched, wire.originalSize = some original ∧ wire.sizeMatched = some matched ∧
        0 < original ∧ matched ≤ original := by
    unfold Wire.WireOrder.sizeValid at hsize
    split at hsize
    · next original matched horiginal hmatched =>
      simp only [Bool.and_eq_true, decide_eq_true_eq] at hsize
      exact .inr ⟨original, matched, horiginal, hmatched, hsize.1.1, hsize.2⟩
    · next horiginal hmatched => exact .inl ⟨horiginal, hmatched⟩
    · cases hsize
  have hids : ∀ trades ∈ wire.associatedTrades, ∀ id ∈ trades,
      venueIdentifierIsValid id = true := by
    intro trades htrades
    rw [Option.mem_def] at htrades
    rw [htrades] at hassociated
    exact List.all_eq_true.1 hassociated
  refine ⟨hid, hread.price, hpos, hprice, ?_, hread.sizeMatched, ?_, ?_, hread.timestamp, hids,
    houtcome, hread.createdAt, hread.expiration⟩
  all_goals
    dsimp only
    have hexact := hread.originalSize
    rcases hsizes with ⟨horiginal, hmatched⟩ | ⟨original, matched, horiginal, hmatched, hlt, hle⟩
    all_goals simp_all

/-! ## Frames -/

section

variable {crates : WireCrates} (hcrates : crates.Lawful)
include hcrates

/-- A valid event that was written is read back. -/
theorem AuthenticatedUserEvent.deserialize_of_writes {event : AuthenticatedUserEvent}
    {value : Json} (hvalid : event.Valid) (h : event.Writes value) :
    ∃ wire, Wire.WireUserEvent.deserialize crates value = some wire ∧
      tryFrom wire = .ok event := by
  cases event with
  | trade trade =>
    obtain ⟨makerOrders, entries, hmakers, rfl, hperm⟩ := h
    obtain ⟨rest, hrest, htagged⟩ :=
      @tagged_present _ _ Wire.WireTrade.fields _ _ (by decide) (by rfl) hperm
    have hread := AuthenticatedUserTrade.deserialize_of_writes hcrates hvalid hmakers hrest
    refine ⟨.trade trade.wire, ?_, ?_⟩
    · refine Option.bind_eq_some_iff.2 ⟨_, htagged, ?_⟩
      refine Option.bind_eq_some_iff.2 ⟨"trade", rfl, ?_⟩
      exact Option.bind_eq_some_iff.2 ⟨_, hread, rfl⟩
    · rw [tryFrom, AuthenticatedUserTrade.tryFrom_wire hvalid]
      rfl
  | order order =>
    obtain ⟨entries, rfl, hperm⟩ := h
    obtain ⟨rest, hrest, htagged⟩ :=
      @tagged_present _ _ Wire.WireOrder.fields _ _ (by decide) (by rfl) hperm
    have hread := AuthenticatedUserOrder.deserialize_of_writes hcrates hvalid hrest
    refine ⟨.order order.wire, ?_, ?_⟩
    · refine Option.bind_eq_some_iff.2 ⟨_, htagged, ?_⟩
      refine Option.bind_eq_some_iff.2 ⟨"order", rfl, ?_⟩
      exact Option.bind_eq_some_iff.2 ⟨_, hread, rfl⟩
    · rw [tryFrom, AuthenticatedUserOrder.tryFrom_wire hvalid]
      rfl

/-- What is made of an event that was read is valid. -/
theorem AuthenticatedUserEvent.valid_of_deserialize {value : Json} {wire : Wire.WireUserEvent}
    {event : AuthenticatedUserEvent}
    (hread : Wire.WireUserEvent.deserialize crates value = some wire)
    (h : tryFrom wire = .ok event) : event.Valid := by
  obtain ⟨⟨tag, content⟩, -, hread⟩ := Option.bind_eq_some_iff.1 hread
  obtain ⟨name, -, hread⟩ := Option.bind_eq_some_iff.1 hread
  split at hread
  · obtain ⟨trade, htrade, hread⟩ := Option.bind_eq_some_iff.1 hread
    cases hread
    rw [tryFrom] at h
    cases hevent : AuthenticatedUserTrade.tryFrom trade with
    | error error =>
      rw [hevent] at h
      cases h
    | ok event =>
      rw [hevent] at h
      cases h
      exact AuthenticatedUserTrade.valid_of_tryFrom
        (Wire.WireTrade.read_of_deserialize hcrates htrade) hevent
  · obtain ⟨order, horder, hread⟩ := Option.bind_eq_some_iff.1 hread
    cases hread
    rw [tryFrom] at h
    cases hevent : AuthenticatedUserOrder.tryFrom order with
    | error error =>
      rw [hevent] at h
      cases h
    | ok event =>
      rw [hevent] at h
      cases h
      exact AuthenticatedUserOrder.valid_of_tryFrom
        (Wire.WireOrder.read_of_deserialize hcrates horder) hevent
  · cases hread

omit hcrates in
/-- An event of a frame was read from one of its values. -/
theorem Wire.mem_events {value : Json} {events : List Wire.WireUserEvent}
    (h : (Wire.frameValue crates value).events = some events) :
    ∀ event ∈ events, ∃ value, Wire.WireUserEvent.deserialize crates value = some event := by
  cases value with
  | object entries =>
    obtain ⟨event, hevent, rfl⟩ := Option.map_eq_some_iff.1 h
    intro event' hmem
    rw [List.mem_singleton.1 hmem]
    exact ⟨_, hevent⟩
  | array values =>
    intro event hmem
    obtain ⟨read, hread, heq⟩ := mem_of_mapM h event hmem
    obtain ⟨value, -, hvalue⟩ := List.mem_map.1 hread
    exact ⟨value, hvalue.trans heq⟩
  | _ => cases h

/-- The events of a frame that was written. -/
theorem events_of_writes {events : List AuthenticatedUserEvent} {value : Json}
    (hvalid : ∀ event ∈ events, event.Valid) (h : FrameWrites events value) :
    ∃ wire, (Wire.frameValue crates value).events = some wire ∧
      wire.mapM AuthenticatedUserEvent.tryFrom = .ok events := by
  cases h with
  | many h =>
    rename_i values
    suffices hread : ∃ wire, (values.map (Wire.WireUserEvent.deserialize crates)).mapM id =
        some wire ∧ wire.mapM AuthenticatedUserEvent.tryFrom = .ok events from hread
    induction h with
    | nil => exact ⟨[], rfl, rfl⟩
    | cons hevent _ ih =>
      obtain ⟨hhead, htail⟩ := List.forall_mem_cons.1 hvalid
      obtain ⟨wire, hwire, htry⟩ :=
        AuthenticatedUserEvent.deserialize_of_writes hcrates hhead hevent
      obtain ⟨wires, hwires, htries⟩ := ih htail
      refine ⟨wire :: wires, ?_, ?_⟩
      · rw [List.map_cons, List.mapM_cons, hwire, hwires]
        rfl
      · rw [List.mapM_cons, htry, htries]
        rfl
  | one h =>
    rename_i event
    have hhead := hvalid event List.mem_cons_self
    obtain ⟨wire, hwire, htry⟩ := AuthenticatedUserEvent.deserialize_of_writes hcrates hhead h
    obtain ⟨entries, rfl⟩ : ∃ entries, value = .object entries := by
      cases event with
      | trade trade =>
        obtain ⟨-, entries, -, rfl, -⟩ := h
        exact ⟨entries, rfl⟩
      | order order =>
        obtain ⟨entries, rfl, -⟩ := h
        exact ⟨entries, rfl⟩
    refine ⟨[wire], ?_, ?_⟩
    · rw [Wire.frameValue, FrameValue.events, hwire]
      rfl
    · rw [List.mapM_cons, htry]
      rfl

end

/-- The frame's value, as `OneOrMany` visits it. -/
def frameJson (crates : WireCrates) (json : List UInt8 → Option Json) (frame : List UInt8) :
    Option FrameValue :=
  (json frame).map (Wire.frameValue crates)

open AuthenticatedUserEventBatch in
/-- The events of an accepted frame are valid, and valid events that were written are read back. -/
theorem user_frame_round_trip {crates : WireCrates} (hcrates : crates.Lawful)
    (json : List UInt8 → Option Json) (frame : List UInt8) :
    (∀ batch, decodeFrame (frameJson crates json) frame = .ok batch →
      ∀ event ∈ batch.events, event.Valid) ∧
    ∀ value events, json frame = some value → 0 < frame.length → frame.length ≤ maxFrameBytes →
      (∀ event ∈ events, event.Valid) → FrameWrites events value →
      decodeFrame (frameJson crates json) frame = .ok { rawFrame := frame, events } := by
  constructor
  · intro batch h
    obtain ⟨wire, hwire, hall, -, -⟩ := decodeFrame_eq_ok h
    obtain ⟨read, hread, hevents⟩ := Option.bind_eq_some_iff.1 hwire
    obtain ⟨value, -, rfl⟩ := Option.map_eq_some_iff.1 hread
    have hfrom := Wire.mem_events hevents
    generalize batch.events = events at hall
    clear * - hcrates hall hfrom
    induction hall with
    | nil => simp
    | cons hevent _ ih =>
      rw [List.forall_mem_cons] at hfrom ⊢
      obtain ⟨⟨value, hvalue⟩, hrest⟩ := hfrom
      exact ⟨AuthenticatedUserEvent.valid_of_deserialize hcrates hvalue hevent, ih hrest⟩
  · intro value events hjson hpos hle hvalid hwrites
    obtain ⟨wire, hwire, htry⟩ := events_of_writes hcrates hvalid hwrites
    have hread : (frameJson crates json frame).bind FrameValue.events = some wire := by
      rw [frameJson, hjson, Option.map_some, Option.bind_some, hwire]
    have hbounds : (frame.isEmpty || decide (frame.length > maxFrameBytes)) = false := by
      rw [Bool.or_eq_false_iff, List.isEmpty_eq_false_iff, decide_eq_false_iff_not, not_lt]
      exact ⟨List.ne_nil_of_length_pos hpos, hle⟩
    rw [decodeFrame, hbounds, if_neg Bool.false_ne_true, hread]
    dsimp only
    rw [htry]
    rfl

/-! ## A sample frame -/

def WireCrates.sample : WireCrates where
  u256 value := (textValue value).map fun text => BitVec.ofNat 256 (integerValue text)
  b256 value := (textValue value).map fun text => BitVec.ofNat 256 (Hex.ofHex (text.toList.drop 2))
  b256FromStr text := some (BitVec.ofNat 256 (Hex.ofHex (text.toList.drop 2)))
  address value :=
    (textValue value).map fun text => BitVec.ofNat 160 (Hex.ofHex (text.toList.drop 2))
  apiKey value :=
    (textValue value).map fun text => BitVec.ofNat 128 (Hex.ofHex (text.toList.filter (· ≠ '-')))
  fromStrExact := exactDecimal
  variant := textValue
  number text := if canonicalUnsignedIntegerText text then parseI64 text else none

/-- Without its dashes, a key is its digits. -/
theorem filter_apiKeyText (key : ApiKey) :
    (apiKeyText key).toList.filter (· ≠ '-') = Hex.toHex 32 key.toNat := by
  have hdigits : ∀ c ∈ Hex.toHex 32 key.toNat, decide (c ≠ '-') = true := by
    intro c hc
    have hall : Hex.lowerDigits.all (fun c => decide (c ≠ '-')) = true := by decide
    exact List.all_eq_true.1 hall c (Hex.mem_lowerDigits_toHex c hc)
  rw [apiKeyText]
  generalize Hex.toHex 32 key.toNat = digits at hdigits
  have hpart : ∀ {part : List Char}, part.Sublist digits →
      part.filter (fun c => decide (c ≠ '-')) = part :=
    fun hsub => List.filter_eq_self.2 fun c hc => hdigits c (hsub.subset hc)
  have hdrop : ∀ n, ((digits.drop n).take 4).Sublist digits :=
    fun n => (List.take_sublist _ _).trans (List.drop_sublist _ _)
  have hdash : ∀ part : List Char, ('-' :: part).filter (fun c => decide (c ≠ '-')) =
      part.filter fun c => decide (c ≠ '-') := fun _ => List.filter_cons_of_neg (by decide)
  have hjoin : ∀ n, (digits.drop n).take 4 ++ digits.drop (n + 4) = digits.drop n := by
    intro n
    rw [← List.drop_drop, List.take_append_drop]
  rw [String.toList_ofList]
  simp only [List.filter_append, hdash, hpart (List.take_sublist 8 digits), hpart (hdrop 8),
    hpart (hdrop 12), hpart (hdrop 16), hpart (List.drop_sublist 20 digits), List.append_assoc,
    hjoin 16, hjoin 12, hjoin 8, List.take_append_drop]

theorem ofNat_ofHex {w length : ℕ} (hplace : 2 ^ w = 16 ^ length) (value : BitVec w) :
    BitVec.ofNat w (Hex.ofHex (Hex.toHex length value.toNat)) = value := by
  rw [Hex.ofHex_toHex (hplace ▸ value.isLt), BitVec.ofNat_toNat, BitVec.setWidth_eq]

theorem WireCrates.lawful_sample : sample.Lawful where
  u256 value := by
    show some (BitVec.ofNat 256 (integerValue value.toNat.repr)) = some value
    rw [integerValue_repr, BitVec.ofNat_toNat, BitVec.setWidth_eq]
  b256 value := by
    show some (BitVec.ofNat 256 (Hex.ofHex ((Sdk.hashText value).toList.drop 2))) = some value
    rw [Sdk.hashText, String.toList_ofList]
    exact congrArg some (ofNat_ofHex (by norm_num) value)
  b256FromStr value := by
    show some (BitVec.ofNat 256 (Hex.ofHex ((Sdk.hashText value).toList.drop 2))) = some value
    rw [Sdk.hashText, String.toList_ofList]
    exact congrArg some (ofNat_ofHex (by norm_num) value)
  address value := by
    show some (BitVec.ofNat 160 (Hex.ofHex ((lowerHex value).toList.drop 2))) = some value
    rw [lowerHex, String.toList_ofList]
    exact congrArg some (ofNat_ofHex (by norm_num) value)
  apiKey value := by
    show some (BitVec.ofNat 128 (Hex.ofHex ((apiKeyText value).toList.filter (· ≠ '-')))) =
      some value
    rw [filter_apiKeyText]
    exact congrArg some (ofNat_ofHex (by norm_num) value)
  decimals := readsDecimals_exactDecimal
  variant _ := rfl
  number text n h := by
    unfold sample at h
    dsimp only at h
    split_ifs at h
    exact (parseI64_eq_some h).2

/-- An order for ten shares at a half, placed. -/
def placedOrder : AuthenticatedUserOrder where
  id := "order-1"
  market := 2
  assetId := 42
  side := .buy
  price := 1 / 2
  eventType := some .placement
  originalSize := some 10
  sizeMatched := some 0
  timestamp := some 1754611200
  associatedTrades := none
  status := none
  owner := some 7
  orderOwner := none
  outcome := some "Yes"
  createdAt := none
  expiration := none
  orderType := some .gtc
  makerAddress := none

theorem placedOrder_valid : placedOrder.Valid where
  id := by decide
  price := ⟨by norm_num [placedOrder],
    ⟨⟨5, 1, by decide, by decide⟩, by norm_num [FixedPoint.Decimal.value, placedOrder]⟩⟩
  price_pos := by norm_num [placedOrder]
  price_le := by norm_num [placedOrder]
  originalSize := by
    rintro _ ⟨rfl⟩
    exact ⟨⟨by norm_num, ⟨⟨10, 0, by decide, by decide⟩,
      by norm_num [FixedPoint.Decimal.value]⟩⟩, by norm_num⟩
  sizeMatched := by
    rintro _ ⟨rfl⟩
    exact ⟨by norm_num, ⟨⟨0, 0, by decide, by decide⟩, by norm_num [FixedPoint.Decimal.value]⟩⟩
  sizes := rfl
  matched_le := by
    rintro _ ⟨rfl⟩ _ ⟨rfl⟩
    norm_num
  timestamp := by
    rintro _ ⟨rfl⟩
    exact ⟨by norm_num, by norm_num⟩
  associatedTrades := by simp [placedOrder]
  outcome := by decide
  createdAt := by simp [placedOrder]
  expiration := by simp [placedOrder]

/-- Its frame, with the type of the event at the end. -/
def placedFrame : List UInt8 :=
  ("\x7b\"id\":\"order-1\",\"market\":" ++
    "\"0x0000000000000000000000000000000000000000000000000000000000000002\"," ++
    "\"asset_id\":\"42\",\"side\":\"BUY\",\"price\":\"0.5\",\"type\":\"PLACEMENT\"," ++
    "\"original_size\":\"10\",\"size_matched\":\"0\",\"timestamp\":\"1754611200\"," ++
    "\"owner\":\"00000000-0000-0000-0000-000000000007\",\"outcome\":\"Yes\"," ++
    "\"order_type\":\"GTC\",\"event_type\":\"order\"\x7d").toUTF8.toList

def placedEntries : List (String × Json) := [("id", .string "order-1"),
  ("market", .string "0x0000000000000000000000000000000000000000000000000000000000000002"),
  ("asset_id", .string "42"), ("side", .string "BUY"), ("price", .string "0.5"),
  ("type", .string "PLACEMENT"), ("original_size", .string "10"), ("size_matched", .string "0"),
  ("timestamp", .string "1754611200"),
  ("owner", .string "00000000-0000-0000-0000-000000000007"), ("outcome", .string "Yes"),
  ("order_type", .string "GTC")]

theorem present_placedOrder : present placedOrder.written = placedEntries := by
  have hprice : exactText (1 / 2) = "0.5" := by decide +kernel
  have horiginal : exactText 10 = "10" := by decide +kernel
  have hmatched : exactText 0 = "0" := by decide +kernel
  have hmarket : Sdk.hashText 2 =
      "0x0000000000000000000000000000000000000000000000000000000000000002" := by decide +kernel
  have hasset : u256Text 42 = "42" := by decide +kernel
  have howner : apiKeyText 7 = "00000000-0000-0000-0000-000000000007" := by decide +kernel
  have htime : (1754611200 : ℤ).toNat.repr = "1754611200" := by decide +kernel
  simp only [AuthenticatedUserOrder.written, placedOrder, decimalValue, apiKeyValue, timeValue,
    Option.map_some, Option.map_none, hprice, horiginal, hmatched, hmarket, hasset, howner, htime]
  rfl

def placedJson (frame : List UInt8) : Option Json :=
  if frame = placedFrame then some (.object (placedEntries ++ [("event_type", .string "order")]))
  else none

theorem user_frame_round_trip_placed :
    AuthenticatedUserEventBatch.decodeFrame (frameJson .sample placedJson) placedFrame =
      .ok { rawFrame := placedFrame, events := [.order placedOrder] } := by
  have hwrites : FrameWrites [.order placedOrder]
      (.object (placedEntries ++ [("event_type", .string "order")])) := by
    refine .one ⟨_, rfl, ?_⟩
    rw [present_placedOrder]
    exact List.perm_append_comm
  have hvalid : ∀ event ∈ [AuthenticatedUserEvent.order placedOrder], event.Valid := by
    rintro _ (_ | ⟨_, ⟨⟩⟩)
    exact placedOrder_valid
  exact (user_frame_round_trip WireCrates.lawful_sample placedJson placedFrame).2 _ _ (if_pos rfl)
    (by decide +kernel) (by decide +kernel) hvalid hwrites

end Rspm
