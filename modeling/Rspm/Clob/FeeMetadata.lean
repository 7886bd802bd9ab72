/-
  The cache of fee schedules.

  A schedule is resolved from two responses: the market of a token, and the
  record of that market, whose two tokens are cached.  `schedules_of_market`: the
  cached tokens are those of the market, where the market names two.
-/
import Rspm.Lib.Machine
import Rspm.Utils.Helpers
import Rspm.Auth.Decode

namespace Rspm

namespace FeeMetadata

def maxResponseBytes : ℕ := 1024 * 1024

inductive FeeMetadataError where
  | invalidToken | requestFailed | responseSchema | invalidSchedule
deriving DecidableEq

/-- A schedule; its rate is not negative. -/
structure PlatformFeeSchedule where
  rate : ℚ
  exponent : UInt32
  takerOnly : Bool
  rate_nonneg : 0 ≤ rate

def PlatformFeeSchedule.new (rate : ℚ) (exponent : UInt32) (takerOnly : Bool) :
    Except FeeMetadataError PlatformFeeSchedule :=
  if h : rate < 0 then .error .invalidSchedule
  else .ok ⟨rate, exponent, takerOnly, not_lt.1 h⟩

/-- The text fields of `MarketByTokenWire`. -/
structure RawMarketByToken where
  conditionId : B256
  primaryTokenId : String
  secondaryTokenId : String

structure MarketByTokenWire where
  conditionId : B256
  primaryTokenId : U256
  secondaryTokenId : U256
deriving DecidableEq

/-- The text fields of `ClobMarketWire`; the rate is the raw text of the value. -/
structure RawClobMarket where
  conditionId : B256
  tokens : List (Option String)
  rate : String
  exponent : UInt32
  takerOnly : Bool

structure ClobMarketWire where
  conditionId : B256
  tokens : List (Option U256)
  rate : String
  exponent : UInt32
  takerOnly : Bool
deriving DecidableEq

/-- What is read by other packages: the JSON of the two records and of a string, and the numbers of
    the SDK. -/
structure Readers where
  marketByToken : List UInt8 → Option RawMarketByToken
  clobMarket : List UInt8 → Option RawClobMarket
  jsonString : String → Option String
  /-- `U256::from_str_radix` at 10 -/
  fromStrRadix : String → Option U256
  /-- `Decimal::from_str_exact` -/
  fromStrExact : String → Option ℚ

inductive FeeRequest where
  | marketsByToken (tokenId : U256)
  | clobMarkets (conditionId : B256)
deriving DecidableEq

/-- A call: what the server answers to its requests, and the token. -/
structure FeeCall where
  server : FeeRequest → Option Response
  tokenId : String

abbrev Schedules := U256 → Option PlatformFeeSchedule

def orError {α : Type} (value : Option α) (e : FeeMetadataError) : Except FeeMetadataError α :=
  match value with
  | some value => .ok value
  | none => .error e

section

variable (readers : Readers)

/-- `quoted_token_id`. -/
def quotedTokenId (value : String) : Option U256 :=
  if !canonicalUnsignedIntegerText value || value = "0" then none
  else readers.fromStrRadix value

def parseTokenId (value : String) : Except FeeMetadataError U256 :=
  if !canonicalUnsignedIntegerText value || value = "0" then .error .invalidToken
  else orError (readers.fromStrRadix value) .invalidToken

def parseRate (raw : String) : Except FeeMetadataError ℚ := do
  let value ←
    if raw.toList.head? = some '"' then orError (readers.jsonString raw) .responseSchema
    else pure raw
  if !canonicalNonnegativeDecimalText value then .error .responseSchema
  orError (readers.fromStrExact value) .responseSchema

def MarketByTokenWire.deserialize (body : List UInt8) : Option MarketByTokenWire := do
  let raw ← readers.marketByToken body
  let primaryTokenId ← quotedTokenId readers raw.primaryTokenId
  let secondaryTokenId ← quotedTokenId readers raw.secondaryTokenId
  return { conditionId := raw.conditionId, primaryTokenId, secondaryTokenId }

def ClobMarketWire.deserialize (body : List UInt8) : Option ClobMarketWire := do
  let raw ← readers.clobMarket body
  let tokens ← raw.tokens.mapM fun token =>
    match token with
    | some tokenId => (quotedTokenId readers tokenId).map some
    | none => some none
  return { conditionId := raw.conditionId, tokens, rate := raw.rate, exponent := raw.exponent,
           takerOnly := raw.takerOnly }

end

def getJson {α : Type} (server : FeeRequest → Option Response)
    (deserialize : List UInt8 → Option α) (request : FeeRequest) : Except FeeMetadataError α := do
  let response ← orError (server request) .requestFailed
  let body ← orError (response.readBody maxResponseBytes) .requestFailed
  orError (deserialize body) .responseSchema

section

variable (readers : Readers) (server : FeeRequest → Option Response)

/-- The market of a token, as the server answers. -/
def marketByToken (tokenId : U256) : Except FeeMetadataError MarketByTokenWire :=
  getJson server (MarketByTokenWire.deserialize readers) (.marketsByToken tokenId)

/-- The record of a market, as the server answers. -/
def clobMarket (conditionId : B256) : Except FeeMetadataError ClobMarketWire :=
  getJson server (ClobMarketWire.deserialize readers) (.clobMarkets conditionId)

/-- The schedule that a record of a market carries. -/
def ClobMarketWire.schedule (info : ClobMarketWire) :
    Except FeeMetadataError PlatformFeeSchedule := do
  let rate ← parseRate readers info.rate
  PlatformFeeSchedule.new rate info.exponent info.takerOnly

/-- The tokens to cache, and their schedule. -/
def resolve (tokenId : U256) : Except FeeMetadataError (List U256 × PlatformFeeSchedule) := do
  let market ← marketByToken readers server tokenId
  if tokenId ≠ market.primaryTokenId && tokenId ≠ market.secondaryTokenId then
    .error .responseSchema
  let info ← clobMarket readers server market.conditionId
  if info.conditionId ≠ market.conditionId then .error .responseSchema
  let tokenIds := info.tokens.filterMap id
  if tokenIds.length ≠ 2 || tokenIds[0]? = tokenIds[1]? ||
      !tokenIds.contains market.primaryTokenId || !tokenIds.contains market.secondaryTokenId then
    .error .responseSchema
  let schedule ← info.schedule readers
  return (tokenIds, schedule)

end

/-- `platform_fee_schedule`. -/
def platformFeeSchedule (readers : Readers) (schedules : Schedules) (call : FeeCall) :
    Schedules × Except FeeMetadataError PlatformFeeSchedule :=
  match parseTokenId readers call.tokenId with
  | .error e => (schedules, .error e)
  | .ok tokenId =>
    match schedules tokenId with
    | some schedule => (schedules, .ok schedule)
    | none =>
      match resolve readers call.server tokenId with
      | .error e => (schedules, .error e)
      | .ok (tokenIds, schedule) =>
        (tokenIds.foldl (fun schedules token => Function.update schedules token (some schedule))
          schedules, .ok schedule)

/-- A client, called again and again. -/
def feeMachine (readers : Readers) :
    Machine Schedules FeeCall (Except FeeMetadataError PlatformFeeSchedule) :=
  ⟨platformFeeSchedule readers⟩

variable {readers : Readers}

/-! ## What a call resolves -/

theorem orError_eq_ok {α : Type} {value : Option α} {e : FeeMetadataError} {a : α} :
    orError value e = .ok a ↔ value = some a := by
  cases value <;> simp [orError]

/-- A list of two distinct members, cached one after the other. -/
theorem pair_of_length {tokenIds : List U256} (hlength : tokenIds.length = 2)
    (hne : tokenIds[0]? ≠ tokenIds[1]?) : ∃ x y, tokenIds = [x, y] ∧ x ≠ y := by
  obtain ⟨x, y, rfl⟩ := List.length_eq_two.1 hlength
  exact ⟨x, y, rfl, by simpa using hne⟩

/-- What a call that resolves was answered. -/
structure Resolves (readers : Readers) (server : FeeRequest → Option Response) (tokenId : U256)
    (market : MarketByTokenWire) (info : ClobMarketWire) (tokenIds : List U256)
    (schedule : PlatformFeeSchedule) : Prop where
  answered : marketByToken readers server tokenId = .ok market
  asked : tokenId = market.primaryTokenId ∨ tokenId = market.secondaryTokenId
  recorded : clobMarket readers server market.conditionId = .ok info
  condition : info.conditionId = market.conditionId
  listed : info.tokens.filterMap id = tokenIds
  pair : ∃ x y, tokenIds = [x, y] ∧ x ≠ y
  primary : market.primaryTokenId ∈ tokenIds
  secondary : market.secondaryTokenId ∈ tokenIds
  charged : info.schedule readers = .ok schedule

theorem resolves_of_ok {server : FeeRequest → Option Response} {tokenId : U256}
    {tokenIds : List U256} {schedule : PlatformFeeSchedule}
    (h : resolve readers server tokenId = .ok (tokenIds, schedule)) :
    ∃ market info, Resolves readers server tokenId market info tokenIds schedule := by
  unfold resolve at h
  cases hmarket : marketByToken readers server tokenId with
  | error e =>
    rw [hmarket] at h
    cases h
  | ok market =>
    rw [hmarket] at h
    simp only [bind, Except.bind] at h
    split_ifs at h with hasked
    cases hinfo : clobMarket readers server market.conditionId with
    | error e =>
      rw [hinfo] at h
      cases h
    | ok info =>
      rw [hinfo] at h
      dsimp only at h
      split_ifs at h with hcondition htokens
      cases hschedule : info.schedule readers with
      | error e =>
        rw [hschedule] at h
        cases h
      | ok schedule' =>
        rw [hschedule] at h
        obtain ⟨rfl, rfl⟩ := Prod.mk.inj (Except.ok.inj h)
        simp only [Bool.and_eq_true, decide_eq_true_eq, not_and_or, not_not] at hasked
        simp only [Bool.or_eq_true, decide_eq_true_eq, Bool.not_eq_true', not_or, not_not,
          Bool.not_eq_false, List.contains_iff_mem] at htokens
        obtain ⟨⟨⟨hlength, hne⟩, hprimary⟩, hsecondary⟩ := htokens
        exact ⟨market, info, hmarket, hasked, hinfo, not_not.1 hcondition, rfl,
          pair_of_length hlength hne, hprimary, hsecondary, hschedule⟩

theorem resolve_eq_ok {server : FeeRequest → Option Response} {tokenId : U256}
    {tokenIds : List U256} {schedule : PlatformFeeSchedule} :
    resolve readers server tokenId = .ok (tokenIds, schedule) ↔
      ∃ market info, Resolves readers server tokenId market info tokenIds schedule := by
  constructor
  · intro h
    exact resolves_of_ok h
  · rintro ⟨market, info, h⟩
    obtain ⟨x, y, rfl, hne⟩ := h.pair
    have hcontains : [x, y].contains market.primaryTokenId = true ∧
        [x, y].contains market.secondaryTokenId = true :=
      ⟨List.contains_iff_mem.2 h.primary, List.contains_iff_mem.2 h.secondary⟩
    unfold resolve
    rw [h.answered]
    have hasked : (decide (tokenId ≠ market.primaryTokenId) &&
        decide (tokenId ≠ market.secondaryTokenId)) = false := by
      rcases h.asked with h | h <;> simp [h]
    simp only [bind, Except.bind, hasked, h.recorded, h.condition, h.listed, h.charged,
      hcontains.1, hcontains.2]
    simp [hne, pure, Except.pure]

/-- The tokens are those of the market, if it names two. -/
theorem Resolves.mem_tokenIds {server : FeeRequest → Option Response} {tokenId : U256}
    {market : MarketByTokenWire} {info : ClobMarketWire} {tokenIds : List U256}
    {schedule : PlatformFeeSchedule}
    (h : Resolves readers server tokenId market info tokenIds schedule)
    (htwo : market.primaryTokenId ≠ market.secondaryTokenId) (token : U256) :
    token ∈ tokenIds ↔ token = market.primaryTokenId ∨ token = market.secondaryTokenId := by
  obtain ⟨x, y, rfl, -⟩ := h.pair
  have hprimary := h.primary
  have hsecondary := h.secondary
  simp only [List.mem_cons, List.not_mem_nil, or_false] at hprimary hsecondary ⊢
  rcases hprimary with hp | hp <;> rcases hsecondary with hs | hs
  · exact absurd (hp.trans hs.symm) htwo
  · rw [hp, hs]
  · rw [hp, hs, or_comm]
  · exact absurd (hp.trans hs.symm) htwo

/-- A market that names one token twice: the other of the two tokens is not of the market. -/
theorem Resolves.exists_foreign {server : FeeRequest → Option Response} {tokenId : U256}
    {market : MarketByTokenWire} {info : ClobMarketWire} {tokenIds : List U256}
    {schedule : PlatformFeeSchedule}
    (h : Resolves readers server tokenId market info tokenIds schedule)
    (hone : market.primaryTokenId = market.secondaryTokenId) :
    ∃ token ∈ tokenIds, token ≠ market.primaryTokenId ∧ token ≠ market.secondaryTokenId := by
  obtain ⟨x, y, rfl, hne⟩ := h.pair
  rw [← hone]
  by_cases hx : x = market.primaryTokenId
  · exact ⟨y, by simp, fun hy => hne (hx.trans hy.symm), fun hy => hne (hx.trans hy.symm)⟩
  · exact ⟨x, by simp, hx, hx⟩

/-- The schedules after the tokens are cached. -/
theorem cached_apply {schedule : PlatformFeeSchedule} {token : U256} {tokenIds : List U256} :
    ∀ {schedules : Schedules},
      tokenIds.foldl (fun schedules token => Function.update schedules token (some schedule))
        schedules token = if token ∈ tokenIds then some schedule else schedules token := by
  induction tokenIds with
  | nil =>
    intro schedules
    simp
  | cons t tokenIds ih =>
    intro schedules
    rw [List.foldl_cons, ih]
    by_cases htoken : token = t
    · simp [htoken]
    · simp [htoken]

/-! ## Calls -/

section Calls

variable (readers) (schedules : Schedules) (call : FeeCall)

/-- The call is about a token that is not cached. -/
def Misses (tokenId : U256) : Prop :=
  parseTokenId readers call.tokenId = .ok tokenId ∧ schedules tokenId = none

/-- What a call does to the cache: on a miss that succeeds, the tokens of the market are cached,
    and nothing else changes; otherwise nothing changes. -/
structure Exact : Prop where
  adds : ∀ tokenId schedule, Misses readers schedules call tokenId →
    (platformFeeSchedule readers schedules call).2 = .ok schedule →
    ∃ market, marketByToken readers call.server tokenId = .ok market ∧
      (platformFeeSchedule readers schedules call).1 = fun token =>
        if token = market.primaryTokenId ∨ token = market.secondaryTokenId then some schedule
        else schedules token
  hits : (¬ ∃ tokenId, Misses readers schedules call tokenId) →
    (platformFeeSchedule readers schedules call).1 = schedules
  fails : ∀ e, (platformFeeSchedule readers schedules call).2 = .error e →
    (platformFeeSchedule readers schedules call).1 = schedules

/-- On a miss the server names two tokens in the market of the token. -/
def NamesTwo : Prop :=
  ∀ tokenId market, Misses readers schedules call tokenId →
    marketByToken readers call.server tokenId = .ok market →
    market.primaryTokenId ≠ market.secondaryTokenId

variable {readers schedules call}

/-- A miss that resolves caches its tokens. -/
theorem platformFeeSchedule_of_resolves {tokenId : U256} {market : MarketByTokenWire}
    {info : ClobMarketWire} {tokenIds : List U256} {schedule : PlatformFeeSchedule}
    (hmiss : Misses readers schedules call tokenId)
    (h : Resolves readers call.server tokenId market info tokenIds schedule) :
    (platformFeeSchedule readers schedules call).2 = .ok schedule ∧
      ∀ token, (platformFeeSchedule readers schedules call).1 token =
        if token ∈ tokenIds then some schedule else schedules token := by
  unfold platformFeeSchedule
  rw [hmiss.1]
  dsimp only
  rw [hmiss.2]
  dsimp only
  rw [resolve_eq_ok.2 ⟨market, info, h⟩]
  exact ⟨rfl, fun token => cached_apply⟩

theorem platformFeeSchedule_of_miss {tokenId : U256} (h : Misses readers schedules call tokenId) :
    (∃ e, resolve readers call.server tokenId = .error e ∧
      platformFeeSchedule readers schedules call = (schedules, .error e)) ∨
    ∃ market info tokenIds schedule,
      Resolves readers call.server tokenId market info tokenIds schedule ∧
      (platformFeeSchedule readers schedules call).2 = .ok schedule ∧
      ∀ token, (platformFeeSchedule readers schedules call).1 token =
        if token ∈ tokenIds then some schedule else schedules token := by
  cases hresolve : resolve readers call.server tokenId with
  | error e =>
    unfold platformFeeSchedule
    rw [h.1]
    dsimp only
    rw [h.2]
    dsimp only
    rw [hresolve]
    exact .inl ⟨e, rfl, rfl⟩
  | ok resolved =>
    obtain ⟨market, info, hresolves⟩ := resolve_eq_ok.1 hresolve
    exact .inr ⟨market, info, resolved.1, resolved.2, hresolves,
      platformFeeSchedule_of_resolves h hresolves⟩

theorem platformFeeSchedule_of_hit (h : ¬ ∃ tokenId, Misses readers schedules call tokenId) :
    (platformFeeSchedule readers schedules call).1 = schedules := by
  unfold platformFeeSchedule
  cases hparse : parseTokenId readers call.tokenId with
  | error e => rfl
  | ok tokenId =>
    cases hcached : schedules tokenId with
    | some schedule =>
      dsimp only
      rw [hcached]
    | none => exact absurd ⟨tokenId, hparse, hcached⟩ h

theorem exact_of_namesTwo (htwo : NamesTwo readers schedules call) :
    Exact readers schedules call where
  adds tokenId schedule hmiss hok := by
    rcases platformFeeSchedule_of_miss hmiss with
      ⟨e, -, h⟩ | ⟨market, info, tokenIds, schedule', hresolves, hresult, hcached⟩
    · rw [h] at hok
      cases hok
    · obtain rfl := Except.ok.inj (hresult.symm.trans hok)
      refine ⟨market, hresolves.answered, funext fun token => ?_⟩
      simp only [hcached,
        hresolves.mem_tokenIds (htwo tokenId market hmiss hresolves.answered)]
  hits := platformFeeSchedule_of_hit
  fails e he := by
    by_cases hmiss : ∃ tokenId, Misses readers schedules call tokenId
    · obtain ⟨tokenId, hmiss⟩ := hmiss
      rcases platformFeeSchedule_of_miss hmiss with ⟨e, -, h⟩ | ⟨_, _, _, _, -, hresult, -⟩
      · rw [h]
      · rw [hresult] at he
        cases he
    · exact platformFeeSchedule_of_hit hmiss

/-- A miss that succeeds on a market that names one token twice adds another token, unless that
    token was already cached with this schedule. -/
theorem not_exact_of_names_one {tokenId : U256} {market : MarketByTokenWire}
    {schedule : PlatformFeeSchedule} (hmiss : Misses readers schedules call tokenId)
    (hok : (platformFeeSchedule readers schedules call).2 = .ok schedule)
    (hmarket : marketByToken readers call.server tokenId = .ok market)
    (hone : market.primaryTokenId = market.secondaryTokenId)
    (hnew : ∀ token, schedules token = some schedule → token = market.primaryTokenId) :
    ¬ Exact readers schedules call := by
  intro hexact
  rcases platformFeeSchedule_of_miss hmiss with
    ⟨e, -, h⟩ | ⟨market', info, tokenIds, schedule', hresolves, hresult, hcached⟩
  · rw [h] at hok
    cases hok
  · obtain rfl := Except.ok.inj (hresult.symm.trans hok)
    obtain rfl := Except.ok.inj (hresolves.answered.symm.trans hmarket)
    obtain ⟨token, hmem, hp, hs⟩ := hresolves.exists_foreign hone
    obtain ⟨market, hanswered, hadds⟩ := hexact.adds tokenId _ hmiss hok
    obtain rfl := Except.ok.inj (hresolves.answered.symm.trans hanswered)
    have htoken := congrFun hadds token
    rw [hcached, if_pos hmem, if_neg (not_or.2 ⟨hp, hs⟩)] at htoken
    exact hp (hnew token htoken.symm)

end Calls

/-! ## Runs -/

variable (readers) in
/-- A pair of the cache comes from a call: the market that its server answers names the token, and
    the record of that market carries the schedule, which the call returned. -/
def Stems (cs : List (feeMachine readers).Call) (token : U256) (schedule : PlatformFeeSchedule) :
    Prop :=
  ∃ c ∈ cs, ∃ tokenId market info,
    marketByToken readers c.input.server tokenId = .ok market ∧
    (token = market.primaryTokenId ∨ token = market.secondaryTokenId) ∧
    clobMarket readers c.input.server market.conditionId = .ok info ∧
    info.conditionId = market.conditionId ∧ info.schedule readers = .ok schedule ∧
    c.out = .ok schedule

theorem Stems.mono {cs ds : List (feeMachine readers).Call} {token : U256}
    {schedule : PlatformFeeSchedule} (h : Stems readers cs token schedule) :
    Stems readers (cs ++ ds) token schedule := by
  obtain ⟨c, hc, hstems⟩ := h
  exact ⟨c, List.mem_append_left _ hc, hstems⟩

/-- The runs of a client whose cache is empty at first. -/
abbrev FeeRun (readers : Readers) :=
  (feeMachine readers).Run (fun _ _ => True) (fun _ => none)

/-- Where each market that is answered on a miss names two tokens: each call adds the two tokens of
    its market or nothing, and every pair of the cache comes from a market that names its token. -/
theorem schedules_of_market {cs : List (feeMachine readers).Call} {schedules : Schedules}
    (hrun : FeeRun readers cs schedules) (htwo : ∀ c ∈ cs, NamesTwo readers c.pre c.input) :
    (∀ c ∈ cs, Exact readers c.pre c.input) ∧
      ∀ token schedule, schedules token = some schedule → Stems readers cs token schedule := by
  refine ⟨fun c hc => exact_of_namesTwo (htwo c hc), ?_⟩
  induction hrun with
  | nil =>
    intro token schedule h
    cases h
  | @snoc cs schedules call _ _ ih =>
    rw [List.forall_mem_append] at htwo
    intro token schedule h
    change (platformFeeSchedule readers schedules call).1 token = some schedule at h
    by_cases hmiss : ∃ tokenId, Misses readers schedules call tokenId
    · obtain ⟨tokenId, hmiss⟩ := hmiss
      rcases platformFeeSchedule_of_miss hmiss with
        ⟨e, -, hfails⟩ | ⟨market, info, tokenIds, schedule', hresolves, hresult, hcached⟩
      · rw [hfails] at h
        exact (ih htwo.1 token schedule h).mono
      · rw [hcached] at h
        split_ifs at h with hmem
        · obtain rfl := Option.some.inj h
          have hnamed := (hresolves.mem_tokenIds
            (htwo.2 _ (List.mem_singleton_self _) tokenId market hmiss hresolves.answered)
            token).1 hmem
          exact ⟨⟨schedules, call⟩, by simp, tokenId, market, info, hresolves.answered, hnamed,
            hresolves.recorded, hresolves.condition, hresolves.charged, hresult⟩
        · exact (ih htwo.1 token schedule h).mono
    · rw [platformFeeSchedule_of_hit hmiss] at h
      exact (ih htwo.1 token schedule h).mono

/-- The readers of a server whose market names the token 7 and a second one, in a record of the
    tokens 7 and 8. -/
def feeReaders (secondaryTokenId : String) : Readers where
  marketByToken body := if body = [0] then some ⟨1, "7", secondaryTokenId⟩ else none
  clobMarket body :=
    if body = [1] then some ⟨1, [some "7", none, some "8"], "0.07", 1, true⟩ else none
  jsonString _ := none
  fromStrRadix text := if text = "7" then some 7 else if text = "8" then some 8 else none
  fromStrExact text := if text = "0.07" then some (7 / 100) else none

def feeCall : FeeCall where
  server
    | .marketsByToken _ => some ⟨true, none, [some [0]]⟩
    | .clobMarkets _ => some ⟨true, none, [some [1]]⟩
  tokenId := "7"

def feeSchedule : PlatformFeeSchedule := ⟨7 / 100, 1, true, by norm_num⟩

theorem resolves_feeCall {secondaryTokenId : String} {secondary : U256}
    (h : marketByToken (feeReaders secondaryTokenId) feeCall.server 7 = .ok ⟨1, 7, secondary⟩)
    (hmem : secondary ∈ [7, 8]) :
    Resolves (feeReaders secondaryTokenId) feeCall.server 7 ⟨1, 7, secondary⟩
      ⟨1, [some 7, none, some 8], "0.07", 1, true⟩ [7, 8] feeSchedule where
  answered := h
  asked := .inl rfl
  recorded := rfl
  condition := rfl
  listed := rfl
  pair := ⟨7, 8, rfl, by decide⟩
  primary := by simp
  secondary := hmem
  charged := by
    have hrate : parseRate (feeReaders secondaryTokenId) "0.07" = .ok (7 / 100) := rfl
    unfold ClobMarketWire.schedule
    rw [hrate]
    exact dif_neg (not_lt.2 feeSchedule.rate_nonneg)

/-- The first call of a client. -/
theorem feeRun_feeCall (secondaryTokenId : String) :
    FeeRun (feeReaders secondaryTokenId) [⟨fun _ => none, feeCall⟩]
      (platformFeeSchedule (feeReaders secondaryTokenId) (fun _ => none) feeCall).1 :=
  .snoc .nil trivial

/-- A market of two tokens: the second one is cached by the call about the first. -/
theorem schedules_of_market_two :
    Stems (feeReaders "8") [⟨fun _ => none, feeCall⟩] 8 feeSchedule := by
  refine (schedules_of_market (feeRun_feeCall "8") ?_).2 8 feeSchedule ?_
  · intro c hc tokenId market _ hmarket
    obtain rfl := List.mem_singleton.1 hc
    obtain rfl := Except.ok.inj (hmarket.symm.trans
      (rfl : marketByToken (feeReaders "8") feeCall.server tokenId = .ok ⟨1, 7, 8⟩))
    decide
  · have hresolves := @resolves_feeCall "8" 8 rfl (by simp)
    rw [(platformFeeSchedule_of_resolves ⟨rfl, rfl⟩ hresolves).2]
    simp

/-- A market that names the token 7 twice, in a record of the tokens 7 and 8: the schedule is also
    cached for the token 8, which no market names. -/
theorem schedules_not_of_market :
    ∃ (cs : List (feeMachine (feeReaders "7")).Call) (schedules : Schedules),
      FeeRun (feeReaders "7") cs schedules ∧ (¬ ∀ c ∈ cs, Exact (feeReaders "7") c.pre c.input) ∧
      ∃ token schedule, schedules token = some schedule ∧
        ¬ Stems (feeReaders "7") cs token schedule := by
  have hmarket : ∀ tokenId,
      marketByToken (feeReaders "7") feeCall.server tokenId = .ok ⟨1, 7, 7⟩ := fun _ => rfl
  have hmiss : Misses (feeReaders "7") (fun _ => none) feeCall 7 := ⟨rfl, rfl⟩
  obtain ⟨hok, hcached⟩ := platformFeeSchedule_of_resolves hmiss
    (resolves_feeCall (hmarket 7) (by simp))
  refine ⟨_, _, feeRun_feeCall "7", ?_, 8, feeSchedule, ?_, ?_⟩
  · intro hexact
    refine not_exact_of_names_one hmiss hok (hmarket 7) rfl ?_
      (hexact _ (List.mem_singleton_self _))
    intro token h
    cases h
  · rw [hcached]
    simp
  · rintro ⟨c, hc, tokenId, market, info, hanswered, hnamed, -⟩
    obtain rfl := List.mem_singleton.1 hc
    obtain rfl := Except.ok.inj ((hmarket tokenId).symm.trans hanswered)
    simp at hnamed

end FeeMetadata

end Rspm
