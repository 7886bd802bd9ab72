/-
  The limit-order builder of the client library: its checks in the order of the
  source, the amounts of the order, and the payload of the protocol version that
  the server runs.

  The arithmetic of decimals and the display of a date come from other packages
  (`Crates`); what the server answers is arbitrary (`Answers`).
-/
import Rspm.Auth.Decode
import Rspm.Clob.Sdk
import Rspm.Fees
import Rspm.Lib.Rescaling

namespace Rspm

namespace Sdk

export Fees (Decimal zero one)

/-- What is computed by other packages. -/
structure Crates where
  arithmetic : FixedPoint.Arithmetic (2 ^ 96) 28
  rescaling : FixedPoint.Rescaling (2 ^ 96) 28
  /-- the display of a date, in nanoseconds since the epoch -/
  dateText : ℤ → String

structure Crates.Lawful (crates : Crates) : Prop where
  arithmetic : crates.arithmetic.Lawful
  rescaling : crates.rescaling.Lawful

/-- Maximum number of decimal places for `size`. -/
def lotSizeScale : ℕ := 2

def usdcDecimals : ℕ := 6

/-! ## Orders -/

inductive Side where
  | buy | sell | unknown
deriving DecidableEq

def Side.asU8 : Side → ℕ
  | .buy => 0
  | .sell => 1
  | .unknown => 255

def Side.text : Side → String
  | .buy => "BUY"
  | .sell => "SELL"
  | .unknown => "UNKNOWN"

inductive OrderType where
  | gtc | fok | gtd | fak
  | unknown (text : String)
deriving DecidableEq

inductive SignatureType where
  | eoa | proxy | gnosisSafe | poly1271
deriving DecidableEq

def SignatureType.asU8 : SignatureType → ℕ
  | .eoa => 0
  | .proxy => 1
  | .gnosisSafe => 2
  | .poly1271 => 3

inductive TickSize where
  | tenth | hundredth | halfCent | quarterCent | thousandth | tenThousandth
deriving DecidableEq

/-- `dec!`, of a decimal that is not too long. -/
def dec (mantissa scale : ℕ) : Decimal :=
  if h : mantissa < 2 ^ 96 ∧ scale ≤ 28 then ⟨mantissa, scale, h.1, h.2⟩ else zero

def TickSize.asDecimal : TickSize → Decimal
  | .tenth => dec 1 1
  | .hundredth => dec 1 2
  | .halfCent => dec 5 3
  | .quarterCent => dec 25 4
  | .thousandth => dec 1 3
  | .tenThousandth => dec 1 4

/-- The signed struct of the first version. -/
structure OrderV1 where
  salt : ℕ
  maker : Address
  signer : Address
  taker : Address
  tokenId : U256
  makerAmount : ℕ
  takerAmount : ℕ
  expiration : ℕ
  nonce : ℕ
  feeRateBps : ℕ
  side : ℕ
  signatureType : ℕ
deriving DecidableEq

/-- The signed struct of the second version. -/
structure OrderV2 where
  salt : ℕ
  maker : Address
  signer : Address
  tokenId : U256
  makerAmount : ℕ
  takerAmount : ℕ
  side : ℕ
  signatureType : ℕ
  timestamp : ℕ
  metadata : B256
  builder : B256
deriving DecidableEq

inductive OrderPayload where
  | v1 (order : OrderV1)
  /-- the expiration travels outside of the signed struct -/
  | v2 (order : OrderV2) (expiration : ℕ)
deriving DecidableEq

namespace OrderPayload

def version : OrderPayload → ℕ
  | .v1 _ => 1
  | .v2 .. => 2

def tokenId : OrderPayload → U256
  | .v1 order => order.tokenId
  | .v2 order _ => order.tokenId

def side : OrderPayload → ℕ
  | .v1 order => order.side
  | .v2 order _ => order.side

def salt : OrderPayload → ℕ
  | .v1 order => order.salt
  | .v2 order _ => order.salt

def maker : OrderPayload → Address
  | .v1 order => order.maker
  | .v2 order _ => order.maker

def signatureType : OrderPayload → ℕ
  | .v1 order => order.signatureType
  | .v2 order _ => order.signatureType

def makerAmount : OrderPayload → ℕ
  | .v1 order => order.makerAmount
  | .v2 order _ => order.makerAmount

def takerAmount : OrderPayload → ℕ
  | .v1 order => order.takerAmount
  | .v2 order _ => order.takerAmount

def expiration : OrderPayload → ℕ
  | .v1 order => order.expiration
  | .v2 _ expiration => expiration

end OrderPayload

structure SignableOrder where
  payload : OrderPayload
  orderType : OrderType
  postOnly : Option Bool
  deferExec : Option Bool
deriving DecidableEq

/-! ## Texts -/

/-- The display of a decimal: as many digits after the point as it has places. -/
def decimalText (d : Decimal) : String :=
  let digits := (toString d.mantissa.natAbs).toList.leftpad (d.scale + 1) '0'
  let whole := digits.take (digits.length - d.scale)
  let fraction := digits.drop (digits.length - d.scale)
  (if d.mantissa < 0 then "-" else "") ++ String.ofList whole ++
    if d.scale = 0 then "" else "." ++ String.ofList fraction

/-! ## The builder -/

/-- How a build ends without an order. -/
inductive Stop where
  | error (error : SdkError)
  | panic
deriving DecidableEq

abbrev Build := Except Stop

/-- `Error::validation`. -/
def invalid {α : Type} (reason : String) : Build α :=
  .error (.error ⟨.validation, some (.validation reason)⟩)

/-- `ok_or`, with a validation error. -/
def required {α : Type} (value : Option α) (reason : String) : Build α :=
  match value with
  | some a => .ok a
  | none => invalid reason

def ensure (holds : Bool) (reason : String) : Build Unit :=
  if holds then .ok () else invalid reason

/-- `?` of a request. -/
def answered {α : Type} : Except SdkError α → Build α
  | .ok a => .ok a
  | .error error => .error (.error error)

/-- `expect`. -/
def expect {α : Type} : Option α → Build α
  | some a => .ok a
  | none => .error .panic

/-- What the requests of a build are answered with. -/
structure Answers where
  tickSize : U256 → Except SdkError TickSize
  version : Except SdkError ℕ
  feeRateBps : U256 → Except SdkError ℕ
  /-- milliseconds since the epoch, `none` before it -/
  now : Option ℕ

structure OrderBuilder where
  signer : Address
  signatureType : SignatureType
  /-- what `salt_generator` returns -/
  saltGenerator : UInt64
  tokenId : Option U256 := none
  price : Option Decimal := none
  size : Option Decimal := none
  side : Option Side := none
  /-- in nanoseconds since the epoch -/
  expiration : Option ℤ := none
  orderType : Option OrderType := none
  postOnly : Option Bool := some false
  funder : Option Address := none
  metadata : Option B256 := none
  builderCode : Option B256 := none
  deferExec : Option Bool := none
  taker : Option Address := none
  nonce : Option ℕ := none
  feeRateBps : Option ℕ := none

/-- `Number.MAX_SAFE_INTEGER`. -/
def jsSafeIntegerMax : UInt64 := ((1 : UInt64) <<< 53) - 1

def toIeee754Int (value : UInt64) : UInt64 := value &&& jsSafeIntegerMax

section

variable (crates : Crates)

/-- Millionths, as an integer. -/
def toFixedU128 (d : Decimal) : Build ℕ :=
  let mantissa :=
    (crates.rescaling.truncWithScale usdcDecimals (crates.rescaling.normalize d)).mantissa
  if 0 ≤ mantissa then .ok mantissa.toNat else .error .panic

/-- The operator `*`. -/
def multiply (a b : Decimal) : Build Decimal := expect (crates.arithmetic.checkedMul a b)

/-- The operator `-`. -/
def subtract (a b : Decimal) : Build Decimal := expect (crates.arithmetic.checkedSub a b)

def priceAlignedToTickSize (price tickSize : Decimal) : Bool :=
  (crates.rescaling.rem price tickSize).value = 0

def negativePrice (price : Decimal) : String :=
  "Unable to build Order due to negative price " ++ decimalText price

def pricePlaces (price tickSize : Decimal) : String :=
  "Unable to build Order: Price " ++ decimalText price ++ " has " ++ toString price.scale ++
    " decimal places. Minimum tick size " ++ decimalText tickSize ++ " has " ++
    toString tickSize.scale ++
    " decimal places. Price decimal places <= minimum tick size decimal places"

def priceRange (price tickSize : Decimal) : String :=
  "Price " ++ decimalText price ++ " is too small or too large for the minimum tick size " ++
    decimalText tickSize

def priceAlignment (price tickSize : Decimal) : String :=
  "Price " ++ decimalText price ++ " is not aligned to the minimum tick size " ++
    decimalText tickSize

/-- The checks of a price against the tick size. -/
def checkPrice (price tickSize : Decimal) : Build Unit := do
  ensure (price.scale ≤ tickSize.scale) (pricePlaces price tickSize)
  let highest ← subtract crates one tickSize
  ensure (tickSize.value ≤ price.value && price.value ≤ highest.value) (priceRange price tickSize)
  ensure (priceAlignedToTickSize crates price tickSize) (priceAlignment price tickSize)

def sizePlaces (size : Decimal) : String :=
  "Unable to build Order: Size " ++ decimalText size ++ " has " ++ toString size.scale ++
    " decimal places. Maximum lot size is " ++ toString lotSizeScale

def checkSize (size : Decimal) : Build Unit := do
  ensure (size.scale ≤ lotSizeScale) (sizePlaces size)
  ensure (0 < size.value) ("Unable to build Order due to negative size " ++ decimalText size)

/-- Only an order that rests may be limited to posting, and only one of them expires. -/
def checkTerms (expiration : ℤ) (orderType : OrderType) (postOnly : Bool) : Build Unit := do
  ensure (orderType = .gtd || expiration ≤ 0) "Only GTD orders may have a non-zero expiration"
  ensure (!postOnly || orderType = .gtc || orderType = .gtd)
    "postOnly is only supported for GTC and GTD orders"

/-- The amounts of the taker and of the maker. -/
def amounts (side : Side) (size price : Decimal) (decimals : ℕ) : Build (Decimal × Decimal) :=
  match side with
  | .buy => do
    let notional ← multiply crates size price
    return (size, crates.rescaling.truncWithScale (decimals + lotSizeScale) notional)
  | .sell => do
    let notional ← multiply crates size price
    return (crates.rescaling.truncWithScale (decimals + lotSizeScale) notional, size)
  | .unknown => invalid ("Invalid side: " ++ Side.unknown.text)

/-- `DateTime::timestamp`, as a number without a sign. -/
def expirationSeconds (expiration : ℤ) : Build ℕ :=
  if 0 ≤ expiration / 1000000000 then .ok (expiration / 1000000000).toNat
  else invalid ("Unable to represent expiration " ++ crates.dateText expiration ++ " as a u64")

end

namespace OrderBuilder

variable (b : OrderBuilder) (answers : Answers)

/-- The rate of the market; one that the caller sets must be the same, unless it is zero. -/
def resolveFeeRateBps (tokenId : U256) : Build ℕ := do
  let marketFee ← answered (answers.feeRateBps tokenId)
  match b.feeRateBps with
  | some user =>
    ensure (marketFee = 0 || user = marketFee) ("invalid user-provided fee rate " ++
      toString user ++ "; market fee rate must be " ++ toString marketFee)
    return marketFee
  | none => return marketFee

/-- The signer of a deposit wallet is its funder. -/
def payloadSigner : Build Address :=
  if b.signatureType = .poly1271 then
    required b.funder
      "A deposit wallet funder address is required with a Poly1271 signature type"
  else .ok b.signer

def buildPayload (tokenId : U256) (side : Side) (makerAmount takerAmount salt expiration : ℕ) :
    Build OrderPayload := do
  let version ← answered answers.version
  let maker := b.funder.getD b.signer
  let signer ← b.payloadSigner
  match version with
  | 1 =>
    ensure (b.signatureType ≠ .poly1271) "signature type POLY_1271 is not supported for V1 orders"
    let feeRateBps ← b.resolveFeeRateBps answers tokenId
    return .v1 {
      salt, maker, signer := b.signer, taker := b.taker.getD 0, tokenId, makerAmount, takerAmount,
      expiration, nonce := b.nonce.getD 0, feeRateBps, side := side.asU8,
      signatureType := b.signatureType.asU8 }
  | 2 =>
    let timestamp ← expect answers.now
    return .v2 {
      salt, maker, signer, tokenId, makerAmount, takerAmount, side := side.asU8,
      signatureType := b.signatureType.asU8, timestamp, metadata := b.metadata.getD 0,
      builder := b.builderCode.getD 0 } expiration
  | other => invalid ("unsupported CLOB protocol version: " ++ toString other)

/-- The token and the price, which is checked before the size is looked at. -/
def checkedPrice (crates : Crates) : Build (U256 × Side × Decimal × Decimal) := do
  let tokenId ← required b.tokenId "Unable to build Order due to missing token ID"
  let side ← required b.side "Unable to build Order due to missing token side"
  let price ← required b.price "Unable to build Order due to missing price"
  ensure (0 ≤ price.value) (negativePrice price)
  let tickSize ← answered (answers.tickSize tokenId)
  checkPrice crates price tickSize.asDecimal
  return (tokenId, side, price, tickSize.asDecimal)

/-- `build` of a limit order. -/
def build (crates : Crates) : Build SignableOrder := do
  let (tokenId, side, price, tickSize) ← b.checkedPrice answers crates
  let size ← required b.size "Unable to build Order due to missing size"
  checkSize size
  let expiration := b.expiration.getD 0
  let orderType := b.orderType.getD .gtc
  let postOnly := b.postOnly.getD false
  checkTerms expiration orderType postOnly
  let (takerAmount, makerAmount) ← amounts crates side size price tickSize.scale
  let expiration ← expirationSeconds crates expiration
  let makerAmount ← toFixedU128 crates makerAmount
  let takerAmount ← toFixedU128 crates takerAmount
  let payload ← b.buildPayload answers tokenId side makerAmount takerAmount
    (toIeee754Int b.saltGenerator).toNat expiration
  return { payload, orderType, postOnly := some postOnly, deferExec := b.deferExec }

end OrderBuilder

end Sdk

end Rspm
