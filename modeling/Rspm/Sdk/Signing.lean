/-
  Signing an order, and the identifier that the venue will know it by.

  The digest of an order under a domain comes from another package (`Hashing`).
  Whether a market is a negative-risk one is looked up in a cache that only
  signing and naming an order write, and both are done under the serial lock.

  `prepared_order_identity`: an order that was prepared is the order that was
  asked for, on the account of the client and with the size cut to hundredths;
  the wallet signed its digest, and its identifier is this digest.
-/
import Rspm.Clob.Protocol
import Rspm.Lib.Hex
import Rspm.Sdk.Quantities

namespace Rspm

namespace Sdk

/-! ## The domain of an order -/

structure Eip712Domain where
  name : String
  version : String
  chainId : ℕ
  verifyingContract : Address
deriving DecidableEq

/-- The exchanges of a chain. -/
structure ContractConfig where
  exchange : Address
  exchangeV2 : Option Address
deriving DecidableEq

def polygon : ℕ := 137

def amoy : ℕ := 80002

def contractConfig (chainId : ℕ) : (isNegRisk : Bool) → Option ContractConfig
  | true =>
    if chainId = polygon ∨ chainId = amoy then
      some ⟨0xC5d563A36AE78145C45a50134d48A1215220f80a,
        some 0xe2222d279d744050d28e00520010520000310F59⟩
    else none
  | false =>
    if chainId = polygon then
      some ⟨0x4bFb41d5B3570DeFd03C39a9A4D8dE6Bd8B8982E,
        some 0xE111180000d2663C0091e4f400237545B87B996B⟩
    else if chainId = amoy then
      some ⟨0xdFE02Eb6733538f8Ea35D585af8DE5958AD99E40,
        some 0xE111180000d2663C0091e4f400237545B87B996B⟩
    else none

def orderName : String := "Polymarket CTF Exchange"

/-- `missing_contract_config`. -/
def missingContractConfig : SdkError := ⟨.internal, some .other⟩

/-- An order is signed for the exchange of its version. -/
def orderDomain (chainId : ℕ) (negRisk : Bool) (payload : OrderPayload) :
    Except SdkError Eip712Domain :=
  match contractConfig chainId negRisk with
  | none => .error missingContractConfig
  | some config =>
    match payload with
    | .v2 .. =>
      match config.exchangeV2 with
      | none => .error ⟨.validation, some (.validation
          ("No V2 exchange contract configured for chain_id=" ++ toString chainId ++
            ", neg_risk=" ++ toString negRisk))⟩
      | some exchange => .ok ⟨orderName, "2", chainId, exchange⟩
    | .v1 _ => .ok ⟨orderName, "1", chainId, config.exchange⟩

/-- `eip712_signing_hash`, and what is signed for a deposit wallet and how it is wrapped. -/
structure Hashing where
  hashV1 : OrderV1 → Eip712Domain → B256
  hashV2 : OrderV2 → Eip712Domain → B256
  poly1271 : OrderV2 → Eip712Domain → ℕ → B256
  wrap : OrderV2 → Eip712Domain → String → String

/-- The digest of an order. -/
def Hashing.signingHash (hashing : Hashing) (payload : OrderPayload) (domain : Eip712Domain) :
    B256 :=
  match payload with
  | .v1 order => hashing.hashV1 order domain
  | .v2 order _ => hashing.hashV2 order domain

/-! ## The negative-risk flag -/

abbrev NegRiskCache := U256 → Option Bool

/-- `neg_risk`: the flag, and the cache that is left. -/
def negRisk (cache : NegRiskCache) (answer : Except SdkError Bool) (tokenId : U256) :
    Except SdkError Bool × NegRiskCache :=
  match cache tokenId with
  | some flag => (.ok flag, cache)
  | none =>
    match answer with
    | .ok flag => (.ok flag, Function.update cache tokenId (some flag))
    | .error error => (.error error, cache)

/-- What was looked up is in the cache. -/
theorem negRisk_cached {cache cache' : NegRiskCache} {answer : Except SdkError Bool}
    {tokenId : U256} {flag : Bool} (h : negRisk cache answer tokenId = (.ok flag, cache')) :
    cache' tokenId = some flag := by
  unfold negRisk at h
  split at h
  · rename_i hhit
    cases h
    exact hhit
  · split at h
    · cases h
      exact Function.update_self ..
    · cases h

/-- A flag in the cache is not asked for. -/
theorem negRisk_of_cached {cache : NegRiskCache} {tokenId : U256} {flag : Bool}
    (h : cache tokenId = some flag) (answer : Except SdkError Bool) :
    negRisk cache answer tokenId = (.ok flag, cache) := by
  unfold negRisk
  rw [h]

/-! ## Signing -/

inductive OrderSignature where
  | ecdsa (signature : String)
  | wrapped (signature : String)
deriving DecidableEq

structure SignedOrder where
  payload : OrderPayload
  signature : OrderSignature
  orderType : OrderType
  owner : ApiKey
  postOnly : Option Bool
  deferExec : Option Bool
deriving DecidableEq

/-- The wallet that signs digests. -/
structure Wallet where
  chainId : Option ℕ
  signHash : B256 → Except SdkError String

/-- The signature of an order under its domain. -/
def signPayload (hashing : Hashing) (wallet : Wallet) (chainId : ℕ) (domain : Eip712Domain) :
    OrderPayload → Except SdkError OrderSignature
  | .v2 order _ =>
    if order.signatureType = SignatureType.poly1271.asU8 then
      (wallet.signHash (hashing.poly1271 order domain chainId)).map fun signature =>
        .wrapped (hashing.wrap order domain signature)
    else (wallet.signHash (hashing.hashV2 order domain)).map .ecdsa
  | .v1 order => (wallet.signHash (hashing.hashV1 order domain)).map .ecdsa

/-- `sign`. -/
def sign (hashing : Hashing) (wallet : Wallet) (owner : ApiKey) (cache : NegRiskCache)
    (answer : Except SdkError Bool) (order : SignableOrder) : Build SignedOrder × NegRiskCache :=
  match wallet.chainId with
  | none => (.error .panic, cache)
  | some chainId =>
    let (flag, cache) := negRisk cache answer order.payload.tokenId
    (do
      let flag ← answered flag
      let domain ← answered (orderDomain chainId flag order.payload)
      let signature ← answered (signPayload hashing wallet chainId domain order.payload)
      return {
        payload := order.payload, signature, orderType := order.orderType, owner,
        postOnly := order.postOnly, deferExec := order.deferExec },
      cache)

/-- `{hash:#x}`. -/
def hashText (hash : B256) : String := String.ofList ('0' :: 'x' :: Hex.toHex 64 hash.toNat)

/-- `provider_order_id`. -/
def providerOrderId (hashing : Hashing) (cache : NegRiskCache) (answer : Except SdkError Bool)
    (order : SignedOrder) (chainId : ℕ) : Build String := do
  let flag ← answered (negRisk cache answer order.payload.tokenId).1
  let domain ← answered (orderDomain chainId flag order.payload)
  return hashText (hashing.signingHash order.payload domain)

/-! ## The account of a client -/

/-- `canonical_account_address`. -/
def canonicalAccountAddress (signer : Address) (signatureType : SignatureType)
    (funder : Option Address) : Option Address :=
  match signatureType, funder with
  | .eoa, none => some signer
  | .proxy, some funder => if funder ≠ 0 ∧ funder ≠ signer then some funder else none
  | _, _ => none

/-- What an authenticated client of the library builds and signs orders with. -/
structure Account where
  address : Address
  signatureType : SignatureType
  funder : Option Address
  saltGenerator : UInt64
  builderCode : Option B256
  owner : ApiKey

/-- `authenticate_declared_authority`: only a proxy has a funder. -/
def Account.declared (signer accountAddress : Address) (signatureType : SignatureType)
    (saltGenerator : UInt64) (builderCode : Option B256) (owner : ApiKey) : Account where
  address := signer
  signatureType
  funder := if signatureType = .proxy then some accountAddress else none
  saltGenerator
  builderCode
  owner

/-- `limit_order`. -/
def Account.limitOrder (account : Account) : OrderBuilder where
  signer := account.address
  signatureType := account.signatureType
  saltGenerator := account.saltGenerator
  funder := account.funder
  builderCode := account.builderCode

/-! ## Preparing an order -/

def Side.ofClobSide : ClobSide → Side
  | .buy => .buy
  | .sell => .sell

def OrderType.ofClob : Rspm.OrderType → OrderType
  | .gtc => .gtc
  | .fak => .fak

/-- What is asked of a float: its value, if it is finite, and the decimal that its text is
    read as. -/
structure Floats (F : Type) where
  value : F → Option ℚ
  parsed : F → Option Decimal

/-- A price lies between zero and one. -/
def clobPriceDecimal {F : Type} (floats : Floats F) (price : F) : Option Decimal :=
  match floats.value price with
  | none => none
  | some value => if value ≤ 0 ∨ 1 ≤ value then none else floats.parsed price

/-- A size is cut to hundredths, and must not be cut to zero. -/
def clobShareDecimal {F : Type} (floats : Floats F) (crates : Crates) (size : F) :
    Option Decimal :=
  match floats.value size, floats.parsed size with
  | some _, some parsed =>
    let size := crates.rescaling.truncWithScale 2 parsed
    if size.value ≤ 0 then none else some size
  | _, _ => none

/-- What an order is prepared for; the text of the token may fail to be read. -/
structure LimitRequest (F : Type) where
  tid : Option U256
  price : F
  size : F
  side : ClobSide
  orderType : Rspm.OrderType
  clientMarker : String

structure PreparedOrder where
  signed : SignedOrder
  clientMarker : String
  providerOrderId : String
deriving DecidableEq

/-- How a preparation ends without an order. -/
inductive Refused where
  | failed (error : ClobOperationError)
  | panicked
deriving DecidableEq

/-- The errors of the library are classified. -/
def classified {α : Type} : Build α → Except Refused α
  | .ok a => .ok a
  | .error (.error error) => .error (.failed (classifyOperationError error))
  | .error .panic => .error .panicked

theorem classified_eq_ok {α : Type} {x : Build α} {a : α} : classified x = .ok a ↔ x = .ok a := by
  rcases x with (_ | _) | _ <;> simp [classified]

/-- What the requests of a preparation meet: the negative-risk cache, what the lookups of a sign
    and of a name are answered with, and whether the gate still admits the permit. -/
structure Circumstances where
  answers : Answers
  negRiskCache : NegRiskCache
  signAnswer : Except SdkError Bool
  nameAnswer : Except SdkError Bool
  admits : Bool

/-- The builder of a preparation. -/
def Account.builder {F : Type} (account : Account) (request : LimitRequest F) (tokenId : U256)
    (price size : Decimal) : OrderBuilder :=
  { account.limitOrder with
    tokenId := some tokenId
    price := some price
    size := some size
    side := some (Side.ofClobSide request.side)
    orderType := some (OrderType.ofClob request.orderType)
    postOnly := if request.orderType = .gtc then some true else some false }

section

variable {F : Type} (floats : Floats F) (crates : Crates) (hashing : Hashing) (wallet : Wallet)
  (account : Account) (met : Circumstances)

/-- `prepare_limit_order`, under the permit of a submission. -/
def prepareLimitOrder (request : LimitRequest F) : Except Refused PreparedOrder :=
  if clientMarkerIsValid request.clientMarker then
    match request.tid, clobPriceDecimal floats request.price,
        clobShareDecimal floats crates request.size with
    | some tokenId, some price, some size => do
      let signable ← classified
        ((account.builder request tokenId price size).build met.answers crates)
      let (signed, negRiskCache) :=
        sign hashing wallet account.owner met.negRiskCache met.signAnswer signable
      let signed ← classified signed
      if met.admits then
        match wallet.chainId with
        | none => .error (.failed .invalidRequest)
        | some chainId =>
          let providerOrderId ← classified
            (providerOrderId hashing negRiskCache met.nameAnswer signed chainId)
          return ⟨signed, request.clientMarker, providerOrderId⟩
      else .error (.failed .protocolAuthorityRevoked)
    | _, _, _ => .error (.failed .invalidRequest)
  else .error (.failed .invalidRequest)

end

/-! ## The identifier -/

theorem hashText_inj {a b : B256} (h : hashText a = hashText b) : a = b := by
  have hplace : (2 : ℕ) ^ 256 = 16 ^ 64 := by norm_num
  simp only [hashText, String.ofList_inj, List.cons.injEq, true_and] at h
  exact BitVec.eq_of_toNat_eq
    (Hex.toHex_inj (a.isLt.trans_eq hplace) (b.isLt.trans_eq hplace) h)

/-- The venue may answer with any such identifier. -/
theorem hashText_valid (hash : B256) : venueIdentifierIsValid (hashText hash) = true := by
  have hsize := Hex.utf8ByteSize_ofList_le ('0' :: 'x' :: Hex.toHex 64 hash.toNat)
  simp only [List.length_cons, Hex.length_toHex] at hsize
  have halphanum : ('0' :: 'x' :: Hex.lowerDigits).all Char.isAlphanum = true := by decide
  have hall : ∀ c ∈ '0' :: 'x' :: Hex.toHex 64 hash.toNat,
      (c.isAlphanum || decide (c = '-') || decide (c = '_')) = true := by
    intro c hc
    have hmem : c ∈ '0' :: 'x' :: Hex.lowerDigits := by
      rcases List.mem_cons.1 hc with rfl | hc
      · exact List.mem_cons_self
      · rcases List.mem_cons.1 hc with rfl | hc
        · exact List.mem_cons_of_mem _ List.mem_cons_self
        · exact List.mem_cons_of_mem _ (List.mem_cons_of_mem _ (Hex.mem_lowerDigits_toHex c hc))
    rw [List.all_eq_true.1 halphanum c hmem, Bool.true_or, Bool.true_or]
  have hempty : (hashText hash).isEmpty = false := by
    rw [Bool.eq_false_iff, ne_eq, String.isEmpty_iff]
    intro h
    have hlist := congrArg String.toList h
    rw [hashText, String.toList_ofList] at hlist
    cases hlist
  have hbytes : (hashText hash).utf8ByteSize ≤ maxVenueIdentifierBytes :=
    hsize.trans (by unfold maxVenueIdentifierBytes; omega)
  unfold venueIdentifierIsValid
  rw [hempty, decide_eq_true hbytes, hashText, String.toList_ofList, List.all_eq_true.2 hall]
  rfl

/-- The order was signed under the flag that is then in the cache. -/
theorem sign_eq_ok {hashing : Hashing} {wallet : Wallet} {owner : ApiKey}
    {cache cache' : NegRiskCache} {answer : Except SdkError Bool} {order : SignableOrder}
    {signed : SignedOrder}
    (h : sign hashing wallet owner cache answer order = (.ok signed, cache')) :
    ∃ chainId flag domain signature, wallet.chainId = some chainId ∧
      cache' order.payload.tokenId = some flag ∧
      orderDomain chainId flag order.payload = .ok domain ∧
      signPayload hashing wallet chainId domain order.payload = .ok signature ∧
      signed = ⟨order.payload, signature, order.orderType, owner, order.postOnly,
        order.deferExec⟩ := by
  unfold sign at h
  cases hchain : wallet.chainId with
  | none =>
    rw [hchain] at h
    cases h
  | some chainId =>
    rw [hchain] at h
    dsimp only at h
    rw [Prod.mk.injEq] at h
    obtain ⟨h, rfl⟩ := h
    simp only [bind_eq_ok, answered_eq_ok, pure_eq_ok] at h
    obtain ⟨flag, hflag, domain, hdomain, signature, hsignature, rfl⟩ := h
    exact ⟨chainId, flag, domain, signature, rfl, negRisk_cached (Prod.ext hflag rfl), hdomain,
      hsignature, rfl⟩

/-- An order that is no deposit wallet's is signed by its digest. -/
theorem signPayload_eq_ok {hashing : Hashing} {wallet : Wallet} {chainId : ℕ}
    {domain : Eip712Domain} {payload : OrderPayload} {signature : OrderSignature}
    (htype : payload.signatureType ≠ SignatureType.poly1271.asU8)
    (h : signPayload hashing wallet chainId domain payload = .ok signature) :
    ∃ text, wallet.signHash (hashing.signingHash payload domain) = .ok text ∧
      signature = .ecdsa text := by
  have hmap : (wallet.signHash (hashing.signingHash payload domain)).map OrderSignature.ecdsa =
      .ok signature := by
    cases payload with
    | v1 order => exact h
    | v2 order expiration =>
      have htype' : order.signatureType ≠ SignatureType.poly1271.asU8 := htype
      unfold signPayload at h
      dsimp only at h
      rw [if_neg htype'] at h
      exact h
  cases hsign : wallet.signHash (hashing.signingHash payload domain) with
  | error error =>
    rw [hsign] at hmap
    cases hmap
  | ok text =>
    rw [hsign] at hmap
    cases hmap
    exact ⟨text, rfl, rfl⟩

/-- The venue account is the maker of what the client builds, and no deposit wallet. -/
theorem canonicalAccountAddress_eq_some {signer accountAddress : Address}
    {signatureType : SignatureType} {funder : Option Address}
    (h : canonicalAccountAddress signer signatureType funder = some accountAddress)
    (saltGenerator : UInt64) (builderCode : Option B256) (owner : ApiKey) :
    signatureType.asU8 ≠ SignatureType.poly1271.asU8 ∧
      (Account.declared signer accountAddress signatureType saltGenerator builderCode
        owner).funder.getD signer = accountAddress := by
  unfold canonicalAccountAddress at h
  split at h
  · cases h
    exact ⟨by decide, rfl⟩
  · split_ifs at h
    cases h
    exact ⟨by decide, rfl⟩
  · cases h

/-- The parts of an order that was prepared. -/
theorem prepareLimitOrder_eq_ok {F : Type} {floats : Floats F} {crates : Crates}
    {hashing : Hashing} {wallet : Wallet} {account : Account} {met : Circumstances}
    {request : LimitRequest F} {prepared : PreparedOrder}
    (h : prepareLimitOrder floats crates hashing wallet account met request = .ok prepared) :
    ∃ tokenId price size signable cache chainId, request.tid = some tokenId ∧
      clobPriceDecimal floats request.price = some price ∧
      clobShareDecimal floats crates request.size = some size ∧
      (account.builder request tokenId price size).build met.answers crates = .ok signable ∧
      sign hashing wallet account.owner met.negRiskCache met.signAnswer signable =
        (.ok prepared.signed, cache) ∧
      wallet.chainId = some chainId ∧
      providerOrderId hashing cache met.nameAnswer prepared.signed chainId =
        .ok prepared.providerOrderId ∧
      prepared.clientMarker = request.clientMarker := by
  unfold prepareLimitOrder at h
  by_cases hmarker : clientMarkerIsValid request.clientMarker = true
  · rw [if_pos hmarker] at h
    split at h
    · rename_i tokenId price size htid hprice hsize
      rw [bind_eq_ok] at h
      obtain ⟨signable, hbuild, h⟩ := h
      generalize hsign : sign hashing wallet account.owner met.negRiskCache met.signAnswer
        signable = result at h
      obtain ⟨outcome, cache⟩ := result
      dsimp only at h
      rw [bind_eq_ok] at h
      obtain ⟨signed, hsigned, h⟩ := h
      rw [classified_eq_ok] at hbuild hsigned
      subst hsigned
      split_ifs at h
      split at h
      · cases h
      · rename_i chainId hchain
        rw [bind_eq_ok] at h
        obtain ⟨name, hname, h⟩ := h
        rw [classified_eq_ok] at hname
        cases h
        exact ⟨tokenId, price, size, signable, cache, chainId, htid, hprice, hsize, hbuild, hsign,
          hchain, hname, rfl⟩
    · cases h
  · rw [if_neg hmarker] at h
    cases h

/-- The price lies between zero and one, and is the decimal that was read. -/
theorem clobPriceDecimal_eq_some {F : Type} {floats : Floats F} {price : F} {decimal : Decimal}
    (h : clobPriceDecimal floats price = some decimal) :
    (∃ value, floats.value price = some value ∧ 0 < value ∧ value < 1) ∧
      floats.parsed price = some decimal := by
  unfold clobPriceDecimal at h
  split at h
  · cases h
  · rename_i value hvalue
    split_ifs at h with hrange
    obtain ⟨hpos, hlt⟩ := not_or.1 hrange
    exact ⟨⟨value, hvalue, not_le.1 hpos, not_le.1 hlt⟩, h⟩

/-- The size is what is left of the decimal that was read when it is cut to hundredths. -/
theorem clobShareDecimal_eq_some {F : Type} {floats : Floats F} {crates : Crates}
    (hlawful : crates.Lawful) {size : F} {decimal : Decimal}
    (h : clobShareDecimal floats crates size = some decimal) :
    ∃ parsed, floats.parsed size = some parsed ∧
      decimal.value = FixedPoint.truncate 2 parsed.value ∧ 0 < decimal.value ∧
      decimal.value ≤ parsed.value := by
  unfold clobShareDecimal at h
  split at h
  · rename_i parsed hvalue hparsed
    dsimp only at h
    split_ifs at h with hpos
    cases h
    rw [not_le] at hpos
    have hvalue := hlawful.rescaling.trunc_value 2 parsed
    refine ⟨parsed, hparsed, hvalue, hpos, ?_⟩
    rw [hvalue] at hpos ⊢
    exact FixedPoint.truncate_le (FixedPoint.nonneg_of_truncate_pos hpos)
  · cases h

/-- An order that was prepared is the order that was asked for, on the account of the client, at the
    price and the size cut to hundredths, exactly so if and only if this size fits; the wallet
    signed its digest, which is its identifier. -/
theorem prepared_order_identity {F : Type} (floats : Floats F) {crates : Crates}
    (hlawful : crates.Lawful) (hashing : Hashing) (wallet : Wallet) (met : Circumstances)
    {signer accountAddress : Address} {signatureType : SignatureType} {funder : Option Address}
    {saltGenerator : UInt64} {builderCode : Option B256} {owner : ApiKey}
    (haccount : canonicalAccountAddress signer signatureType funder = some accountAddress)
    {request : LimitRequest F} {prepared : PreparedOrder}
    (h : prepareLimitOrder floats crates hashing wallet
      (.declared signer accountAddress signatureType saltGenerator builderCode owner) met request =
        .ok prepared) :
    (∃ chainId negRisk domain signature, wallet.chainId = some chainId ∧
      orderDomain chainId negRisk prepared.signed.payload = .ok domain ∧
      wallet.signHash (hashing.signingHash prepared.signed.payload domain) = .ok signature ∧
      prepared.signed.signature = .ecdsa signature ∧
      prepared.providerOrderId = hashText (hashing.signingHash prepared.signed.payload domain)) ∧
    venueIdentifierIsValid prepared.providerOrderId = true ∧
    prepared.clientMarker = request.clientMarker ∧
    prepared.signed.payload.maker = accountAddress ∧
    request.tid = some prepared.signed.payload.tokenId ∧
    prepared.signed.payload.side = (Side.ofClobSide request.side).asU8 ∧
    prepared.signed.orderType = OrderType.ofClob request.orderType ∧
    prepared.signed.postOnly = some (decide (request.orderType = .gtc)) ∧
    (∃ value, floats.value request.price = some value ∧ 0 < value ∧ value < 1) ∧
    ∃ price size, floats.parsed request.price = some price ∧
      floats.parsed request.size = some size ∧
      0 < FixedPoint.truncate 2 size.value ∧ FixedPoint.truncate 2 size.value ≤ size.value ∧
      (prepared.signed.payload.Trades (FixedPoint.truncate 2 size.value) price.value ↔
        FixedPoint.truncate 2 size.value * 10 ^ usdcDecimals < 2 ^ 96) := by
  obtain ⟨tokenId, price, size, signable, cache, chainId, htid, hprice, hsize, hbuild, hsign,
    hchain, hname, hmarker⟩ := prepareLimitOrder_eq_ok h
  obtain ⟨hrange, hprice⟩ := clobPriceDecimal_eq_some hprice
  obtain ⟨parsed, hparsed, hcut, hpos, hle⟩ := clobShareDecimal_eq_some hlawful hsize
  obtain ⟨hnotPoly, hmaker⟩ :=
    canonicalAccountAddress_eq_some haccount saltGenerator builderCode owner
  obtain ⟨hplaced, _, side, price', size', tickSize, htoken, hside, hprice', hsize', -, hpToken,
    hpSide, -, -, -, -, -, htrades⟩ := (limit_order_exact hlawful _ met.answers).2 _ hbuild
  cases htoken
  cases hside
  cases hprice'
  cases hsize'
  obtain ⟨chainId', flag, domain, signature, hchain', hcached, hdomain, hsignature, hsigned⟩ :=
    sign_eq_ok hsign
  rw [hchain] at hchain'
  cases hchain'
  have hnotPoly' : signable.payload.signatureType ≠ SignatureType.poly1271.asU8 := by
    rw [hplaced.signatureType]
    exact hnotPoly
  obtain ⟨text, htext, rfl⟩ := signPayload_eq_ok hnotPoly' hsignature
  -- the flag is in the cache when the order is named
  have hnamed : prepared.providerOrderId =
      hashText (hashing.signingHash signable.payload domain) := by
    unfold providerOrderId at hname
    simp only [bind_eq_ok, answered_eq_ok, pure_eq_ok, hsigned, negRisk_of_cached hcached,
      Except.ok.injEq, exists_eq_left', hdomain] at hname
    exact hname.symm
  have hpostOnly : signable.postOnly = some (decide (request.orderType = .gtc)) := by
    rw [hplaced.postOnly]
    cases htype : request.orderType <;> simp [Account.builder, htype]
  rw [hnamed, hsigned]
  exact ⟨⟨chainId, flag, domain, text, hchain, hdomain, htext, rfl, rfl⟩, hashText_valid _, hmarker,
    hplaced.maker.trans hmaker, htid.trans (congrArg some hpToken.symm), hpSide, hplaced.orderType,
    hpostOnly, hrange, price, parsed, hprice, hparsed, hcut ▸ hpos, hcut ▸ hle, hcut ▸ htrades⟩

/-! ## A sample preparation -/

/-- A made-up hash, of the salt and the amount that an order gives. -/
def sampleHashing : Hashing where
  hashV1 order domain := BitVec.ofNat 256 (order.salt + domain.chainId)
  hashV2 order domain := BitVec.ofNat 256 (order.salt * domain.chainId + order.makerAmount)
  poly1271 order _ _ := BitVec.ofNat 256 order.salt
  wrap _ _ signature := signature

/-- It makes up the signature of a hash from the text of the hash. -/
def sampleWallet : Wallet := ⟨some polygon, fun hash => .ok (hashText hash ++ "1b")⟩

def sampleMet : Circumstances := ⟨sampleAnswers, fun _ => none, .ok false, .ok true, true⟩

/-- A float is given by the decimal that its text is. -/
def sampleFloats : Floats Decimal := ⟨fun float => some float.value, some⟩

/-- `12.509` shares are to be bought at `0.42`. -/
def sampleRequest : LimitRequest Decimal where
  tid := some 42
  price := dec 42 2
  size := dec 12509 3
  side := .buy
  orderType := .fak
  clientMarker := "marker-1"

def samplePrepared : PreparedOrder where
  signed := {
    payload := sampleSignable.payload
    signature :=
      .ecdsa "0x0000000000000000000000000000000000000000000000001120000000501b471b"
    orderType := .fak, owner := 0x5e, postOnly := some false, deferExec := none }
  clientMarker := "marker-1"
  providerOrderId := "0x0000000000000000000000000000000000000000000000001120000000501b47"

/-- The order is for `12.5` shares. -/
theorem prepared_order_identity_sampled :
    prepareLimitOrder sampleFloats sampleCrates sampleHashing sampleWallet
      (.declared 7 7 .eoa 18446744073709551615 none 0x5e) sampleMet sampleRequest =
        .ok samplePrepared ∧
    venueIdentifierIsValid samplePrepared.providerOrderId = true ∧
    samplePrepared.signed.payload.maker = 7 ∧
    samplePrepared.signed.payload.Trades (25 / 2) (42 / 100) := by
  have h : prepareLimitOrder sampleFloats sampleCrates sampleHashing sampleWallet
      (.declared 7 7 .eoa 18446744073709551615 none 0x5e) sampleMet sampleRequest =
        .ok samplePrepared := by
    decide +kernel
  have haccount : canonicalAccountAddress 7 .eoa none = some 7 := rfl
  obtain ⟨-, hvalid, -, hmaker, -, -, -, -, -, price, size, hprice, hsize, -, -, htrades⟩ :=
    prepared_order_identity sampleFloats sampleCrates_lawful sampleHashing sampleWallet sampleMet
      haccount h
  cases hprice
  cases hsize
  have hcut : FixedPoint.truncate 2 sampleRequest.size.value = 25 / 2 := by decide +kernel
  have hread : sampleRequest.price.value = 42 / 100 := by decide +kernel
  refine ⟨h, hvalid, hmaker, ?_⟩
  have htrade := htrades.2 (by rw [hcut]; decide +kernel)
  rw [hcut, hread] at htrade
  exact htrade

end Sdk

end Rspm
