/-
  The submissions of a client.

  The locks, the gate, the caller's authorization and the client library are
  atomic actions; what they answer is arbitrary, but for the gate.  The POST is
  two actions: `beginPost` is the first poll under the lock of the controller,
  `awaitPost` the reply.

  `SubmissionRun` is one call among others: between two of its actions the
  other tasks move the gate in any way (`Moves`).
-/
import Rspm.Clob.Error
import Rspm.Clob.Submission

namespace Rspm

def ProtocolVersion.asU32 : ProtocolVersion → ℕ
  | .v1 => 1
  | .v2 => 2

inductive ClobSide where
  | buy | sell
deriving DecidableEq

inductive OrderType where
  | gtc | fak
deriving DecidableEq

/-- What is handed to the order builder; an order type that is not set is its default. -/
structure LimitOrder where
  tokenId : ℕ
  price : ℚ
  size : ℚ
  side : ClobSide
  orderType : Option OrderType
  postOnly : Bool
deriving DecidableEq

inductive OrderPayload where
  | v1 | v2
deriving DecidableEq

def OrderPayload.version : OrderPayload → ℕ
  | .v1 => 1
  | .v2 => 2

structure SignableOrder where
  payload : OrderPayload
deriving DecidableEq

structure SignedOrder where
  payload : OrderPayload
deriving DecidableEq

structure PreparedClobOrder where
  signed : SignedOrder
  providerOrderId : String

/-- The arguments of an order, as `parse_token_id`, `clob_price_decimal` and
    `clob_share_decimal` convert them. -/
structure OrderInput where
  tid : Option ℕ
  priceDec : Option ℚ
  sizeDec : Option ℚ

structure AuthenticatedClientState where
  protocolAuthority : Option AuthenticatedProtocolAuthority

/-- The atomic actions of a submission. -/
inductive ClobAct where
  /-- `authorize_attempt` -/
  | authorize
  | lockSubmission
  | unlockSubmission
  | readClient
  | dropClient
  | version
  | permit
  /-- `matches` -/
  | admits (permit : ProtocolSubmissionPermit)
  | quarantine (authority : AuthenticatedProtocolAuthority)
  | markIndeterminate (authority : AuthenticatedProtocolAuthority)
  | revalidate (attempt : SubmissionAttemptAuthority) (authority : AuthenticatedProtocolAuthority)
  | build (order : LimitOrder)
  | sign (signable : SignableOrder)
  /-- `poll_first_transport`, `false` when it refuses -/
  | beginPost (attempt : SubmissionAttemptAuthority) (authority : AuthenticatedProtocolAuthority)
      (signed : SignedOrder)
  | awaitPost (permit : ProtocolSubmissionPermit) (signed : SignedOrder)
  | sleep (delay : Duration)

abbrev ClobAct.Answer : ClobAct → Type
  | .authorize => Option SubmissionAttemptAuthority
  | .readClient => AuthenticatedClientState
  | .version => Except SdkError ℕ
  | .permit => Option ProtocolSubmissionPermit
  | .admits _ | .revalidate .. | .beginPost .. => Bool
  | .build _ => Except SdkError SignableOrder
  | .sign _ => Except SdkError SignedOrder
  | .awaitPost .. => PostReply
  | _ => Unit

abbrev Clob := Prog ClobAct ClobAct.Answer

namespace Clob

/-- One atomic action. -/
abbrev step (e : ClobAct) : Clob e.Answer := .perform e

/-! ## The retry envelope -/

/-- The loop of `retry_post_order`, from its attempt `attempt`. -/
def retryPostOrder {α : Type} (policy : RetryPolicy) (retryAuthorityActive : Clob Bool)
    (attemptFn : SubmissionAttemptAuthority → Clob (Submitted α)) (attempt : ℕ) :
    Clob (Submitted α) := do
  match ← step .authorize with
  | none => return .error .submissionRevoked
  | some permit =>
    match ← attemptFn permit with
    | .error (.rateLimited retryAfter) =>
      if ← retryAuthorityActive then
        if _h : policy.shouldRetry attempt then
          step (.sleep (policy.backoffFor attempt retryAfter))
          retryPostOrder policy retryAuthorityActive attemptFn (attempt + 1)
        else return .error (.rateLimited retryAfter)
      else return .error .submissionRevoked
    | result => return result
termination_by policy.maxAttempts - attempt
decreasing_by
  have h := of_decide_eq_true _h
  omega

/-! ## One attempt -/

/-- The generation is quarantined, and the attempt fails. -/
def refuse {α : Type} (authority : AuthenticatedProtocolAuthority) (error : ClobOperationError) :
    Clob (Submitted α) := do
  step (.quarantine authority)
  return .error error

/-- The checks of `submission_client` under the read guard. -/
def checkClient (guard : AuthenticatedClientState) (permit : ProtocolSubmissionPermit) :
    Clob (Submitted Unit) := do
  match guard.protocolAuthority with
  | none => return .error .protocolAuthorityRevoked
  | some authority =>
    match ← step .version with
    | .error error => return .error (classifyOperationError error)
    | .ok sdkVersion =>
      if authority ≠ permit.authority ∨ sdkVersion ≠ authority.version.asU32 then
        refuse permit.authority .protocolAuthorityRevoked
      else if ← step (.admits permit) then return .ok ()
      else refuse permit.authority .protocolAuthorityRevoked

def submissionClient : Clob (Submitted (AuthenticatedClientState × ProtocolSubmissionPermit)) := do
  match ← step .permit with
  | none => return .error .protocolAuthorityRevoked
  | some permit =>
    let guard ← step .readClient
    match ← checkClient guard permit with
    | .error error =>
      step .dropClient
      return .error error
    | .ok () => return .ok (guard, permit)

/-- The checks before a POST, with the version that they looked up. -/
def checkAuthority (guard : AuthenticatedClientState) (permit : ProtocolSubmissionPermit)
    (attempt : SubmissionAttemptAuthority) (orderVersion : ℕ) : Clob (Submitted ℕ) := do
  match guard.protocolAuthority with
  | none => return .error .protocolAuthorityRevoked
  | some authority =>
    match ← step .version with
    | .error error => return .error (classifyOperationError error)
    | .ok beforeVersion =>
      if authority ≠ permit.authority ∨ orderVersion ≠ beforeVersion ∨
          beforeVersion ≠ authority.version.asU32 then
        refuse permit.authority .protocolAuthorityRevoked
      else if ← step (.admits permit) then
        if ← step (.revalidate attempt permit.authority) then return .ok beforeVersion
        else refuse permit.authority .protocolAuthorityRevoked
      else refuse permit.authority .protocolAuthorityRevoked

/-- The checks after a trusted response, which stays authoritative. -/
def settle (permit : ProtocolSubmissionPermit) (beforeVersion : ℕ)
    (response : Submitted PostOrderOutcome) : Clob (Submitted PostOrderOutcome) := do
  let afterVersion ← step .version
  let permitStillMatches ← step (.admits permit)
  if response = .error .protocolAuthorityRevoked ∨ afterVersion ≠ .ok beforeVersion ∨
      permitStillMatches = false then
    step (.quarantine permit.authority)
    return response
  else return response

def indeterminate (permit : ProtocolSubmissionPermit) : Clob (Submitted PostOrderOutcome) := do
  step (.markIndeterminate permit.authority)
  return .error .postSendIndeterminate

/-- What is made of the reply to a POST. -/
def sortReply (permit : ProtocolSubmissionPermit) (beforeVersion : ℕ) (reply : PostReply) :
    Clob (Submitted PostOrderOutcome) :=
  match reply.postOrderInitial with
  | .ok response =>
    match classifyPostOrderResponse response with
    | some outcome => settle permit beforeVersion (.ok outcome)
    | none => indeterminate permit
  | .error error =>
    if postResponseIsAmbiguous error then indeterminate permit
    else settle permit beforeVersion (.error (classifyOperationError error))

/-- The result of the reply is settled, unless it is indeterminate. -/
theorem sortReply_eq (permit : ProtocolSubmissionPermit) (beforeVersion : ℕ) (reply : PostReply) :
    sortReply permit beforeVersion reply =
      if reply.result = .error .postSendIndeterminate then indeterminate permit
      else settle permit beforeVersion reply.result := by
  unfold sortReply PostReply.result
  cases reply.postOrderInitial with
  | ok response => cases h : classifyPostOrderResponse response <;> simp [h]
  | error error => cases h : postResponseIsAmbiguous error <;> simp [h, classifyOperationError_ne]

/-- The POST of a signed order. -/
def postSigned (permit : ProtocolSubmissionPermit) (attempt : SubmissionAttemptAuthority)
    (signed : SignedOrder) (beforeVersion : ℕ) : Clob (Submitted PostOrderOutcome) := do
  if ← step (.beginPost attempt permit.authority signed) then
    let reply ← step (.awaitPost permit signed)
    sortReply permit beforeVersion reply
  else refuse permit.authority .submissionRevoked

def postPreparedSdk (signed : SignedOrder) (guard : AuthenticatedClientState)
    (permit : ProtocolSubmissionPermit) (attempt : SubmissionAttemptAuthority) :
    Clob (Submitted PostOrderOutcome) := do
  match ← checkAuthority guard permit attempt signed.payload.version with
  | .error error => return .error error
  | .ok beforeVersion => postSigned permit attempt signed beforeVersion

def signAndPostSdk (signable : SignableOrder) (guard : AuthenticatedClientState)
    (permit : ProtocolSubmissionPermit) (attempt : SubmissionAttemptAuthority) :
    Clob (Submitted PostOrderOutcome) := do
  match ← checkAuthority guard permit attempt signable.payload.version with
  | .error error => return .error error
  | .ok beforeVersion =>
    match ← step (.sign signable) with
    | .error error => return .error (classifyOperationError error)
    | .ok signed =>
      if ← step (.admits permit) then postSigned permit attempt signed beforeVersion
      else refuse permit.authority .protocolAuthorityRevoked

/-- What an attempt does under its permit. -/
abbrev Post := AuthenticatedClientState → ProtocolSubmissionPermit → SubmissionAttemptAuthority →
  Clob (Submitted PostOrderOutcome)

/-- The order is built anew for each attempt. -/
def buildAndPost (order : LimitOrder) : Post := fun guard permit attempt => do
  match ← step (.build order) with
  | .error error => return .error (classifyOperationError error)
  | .ok signable => signAndPostSdk signable guard permit attempt

/-- An accepted order must have the identifier that was prepared. -/
def matchOrderId (order : PreparedClobOrder) :
    Submitted PostOrderOutcome → Submitted PostOrderOutcome
  | .ok (.accepted orderId) =>
    if orderId = order.providerOrderId then .ok (.accepted orderId)
    else .error .preparedOrderMismatch
  | outcome => outcome

theorem isRateLimited_matchOrderId {order : PreparedClobOrder}
    {result : Submitted PostOrderOutcome} (h : result.isRateLimited = false) :
    (matchOrderId order result).isRateLimited = false := by
  unfold matchOrderId
  split
  · split_ifs <;> rfl
  · exact h

def postAndMatch (order : PreparedClobOrder) : Post := fun guard permit attempt => do
  return matchOrderId order (← postPreparedSdk order.signed guard permit attempt)

def revalidateAndPost (post : Post) : Post := fun guard permit attempt => do
  if ← step (.revalidate attempt permit.authority) then post guard permit attempt
  else refuse permit.authority .submissionRevoked

def underGuard (post : Post) (attempt : SubmissionAttemptAuthority) :
    Clob (Submitted PostOrderOutcome) := do
  match ← submissionClient with
  | .error error => return .error error
  | .ok (guard, permit) =>
    let result ← revalidateAndPost post guard permit attempt
    step .dropClient
    return result

/-- The closure that every submission hands to `retry_post_order`. -/
def attemptFn (post : Post) (attempt : SubmissionAttemptAuthority) :
    Clob (Submitted PostOrderOutcome) := do
  step .lockSubmission
  let result ← underGuard post attempt
  step .unlockSubmission
  return result

/-! ## The submissions -/

def retryAuthorityActive : Clob Bool := do
  return (← step .permit).isSome

/-- The identifier of the venue. -/
def orderId : Submitted PostOrderOutcome → Submitted (Option String)
  | .ok (.accepted orderId) => .ok (some orderId)
  | .ok .notAccepted => .ok none
  | .error error => .error error

/-- The same, where `NoMatch` is no error. -/
def orderIdUnlessNoMatch : Submitted PostOrderOutcome → Submitted (Option String)
  | .error .noMatch => .ok none
  | response => orderId response

def submitPrepared (policy : RetryPolicy) (order : PreparedClobOrder) :
    Clob (Submitted (Option String)) := do
  let response ← retryPostOrder policy retryAuthorityActive (attemptFn (postAndMatch order)) 1
  return orderIdUnlessNoMatch response

/-- The submissions that build their order: they convert its arguments first. -/
def submitLimit (policy : RetryPolicy) (input : OrderInput) (side : ClobSide)
    (orderType : Option OrderType) (postOnly : Bool) : Clob (Submitted PostOrderOutcome) :=
  match input.tid, input.priceDec, input.sizeDec with
  | some tokenId, some price, some size =>
    retryPostOrder policy retryAuthorityActive
      (attemptFn (buildAndPost ⟨tokenId, price, size, side, orderType, postOnly⟩)) 1
  | _, _, _ => return .error .invalidRequest

def submitFak (policy : RetryPolicy) (input : OrderInput) (side : ClobSide) :
    Clob (Submitted (Option String)) := do
  return orderIdUnlessNoMatch (← submitLimit policy input side (some .fak) false)

def submitGtcSell (policy : RetryPolicy) (input : OrderInput) :
    Clob (Submitted (Option String)) := do
  return orderId (← submitLimit policy input .sell none true)

def submitGtcBuy (policy : RetryPolicy) (input : OrderInput) :
    Clob (Submitted (Option String)) := do
  return orderId (← submitLimit policy input .buy (some .gtc) true)

end Clob

inductive SubmitCall where
  | fak (input : OrderInput) (side : ClobSide)
  | gtcSell (input : OrderInput)
  | gtcBuy (input : OrderInput)
  | prepared (order : PreparedClobOrder)

namespace SubmitCall

/-- The call; the source passes `RetryPolicy.default`. -/
def body (policy : RetryPolicy) : SubmitCall → Clob (Submitted (Option String))
  | .fak input side => Clob.submitFak policy input side
  | .gtcSell input => Clob.submitGtcSell policy input
  | .gtcBuy input => Clob.submitGtcBuy policy input
  | .prepared order => Clob.submitPrepared policy order

/-- The identifier that the venue has to answer with, for a prepared order. -/
def expectedOrderId : SubmitCall → Option String
  | .prepared order => some order.providerOrderId
  | _ => none

end SubmitCall

/-! ## One call among others -/

/-- What another task does to the gate in one step. -/
inductive ProtocolSubmissionGate.Moves (gate : ProtocolSubmissionGate) :
    ProtocolSubmissionGate → Prop
  | close : gate.Moves gate.close
  | quarantine (authority : AuthenticatedProtocolAuthority) : gate.Moves (gate.quarantine authority)
  | markIndeterminate (authority : AuthenticatedProtocolAuthority) :
      gate.Moves (gate.markIndeterminate authority)
  | activate (authority : AuthenticatedProtocolAuthority) (h : gate.canActivate authority) :
      gate.Moves (gate.activate authority)

/-- What an action of a submission does to the gate. -/
def ProtocolSubmissionGate.does (gate : ProtocolSubmissionGate) :
    (e : ClobAct) → e.Answer → ProtocolSubmissionGate → Prop
  | .permit, r, gate' => r = gate.permit ∧ gate' = gate
  | .admits permit, r, gate' => r = decide (gate.admits permit) ∧ gate' = gate
  | .quarantine authority, _, gate' => gate' = gate.quarantine authority
  | .markIndeterminate authority, _, gate' => gate' = gate.markIndeterminate authority
  | _, _, gate' => gate' = gate

/-- What happens during a call: its own actions with their answers, and the gates that the
    others leave. -/
inductive ClobEvent where
  | own (e : ClobAct) (r : e.Answer)
  | other (gate : ProtocolSubmissionGate)

structure ClobState where
  gate : ProtocolSubmissionGate
  log : List ClobEvent := []

namespace ClobState

def does (e : ClobAct) (s : ClobState) (r : e.Answer) (s' : ClobState) : Prop :=
  s.gate.does e r s'.gate ∧ s'.log = s.log ++ [.own e r]

/-- A step of another task. -/
def Others (s s' : ClobState) : Prop := s.gate.Moves s'.gate ∧ s'.log = s.log ++ [.other s'.gate]

end ClobState

/-- One call; the other tasks are `Others`. -/
def clobWorld : World ClobAct ClobAct.Answer ClobState Unit where
  does _ := ClobState.does
  crash _ _ _ := False

/-- A run of a program from a gate, as far as it came. -/
def SubmissionRun {α : Type} (p : Clob α) (gate : ProtocolSubmissionGate) (q : Clob α)
    (s : ClobState) : Prop :=
  clobWorld.Run () ClobState.Others (p, { gate }) (q, s)

/-! ## A sample attempt -/

theorem solo_own {α : Type} {e : ClobAct} {r : e.Answer} {k : e.Answer → Clob α}
    {gate gate' : ProtocolSubmissionGate} {log : List ClobEvent} {a : α} {s' : ClobState}
    (hd : gate.does e r gate') (h : clobWorld.Solo () (k r) ⟨gate', log ++ [.own e r]⟩ a s') :
    clobWorld.Solo () (.act e k) ⟨gate, log⟩ a s' :=
  .act ⟨hd, rfl⟩ h

def sampleGate : ProtocolSubmissionGate := ⟨.active sampleProtocolAuthority, 0⟩

def samplePermit : ProtocolSubmissionPermit := ⟨sampleProtocolAuthority⟩

def sampleOrder : PreparedClobOrder := ⟨⟨.v2⟩, "0xA"⟩

/-- An attempt of `sampleOrder` up to its POST. -/
def sampleStart : List ClobEvent :=
  [.own .authorize (some sampleAttempt), .own .lockSubmission (),
    .own .permit (some samplePermit), .own .readClient ⟨some sampleProtocolAuthority⟩,
    .own .version (.ok 2), .own (.admits samplePermit) true,
    .own (.revalidate sampleAttempt sampleProtocolAuthority) true, .own .version (.ok 2),
    .own (.admits samplePermit) true,
    .own (.revalidate sampleAttempt sampleProtocolAuthority) true,
    .own (.beginPost sampleAttempt sampleProtocolAuthority sampleOrder.signed) true]

/-- The rest of it, when the reply is settled and the gate still matches. -/
def sampleEnd : List ClobEvent :=
  [.own .version (.ok 2), .own (.admits samplePermit) true, .own .dropClient (),
    .own .unlockSubmission ()]

/-- The events of an attempt of `sampleOrder` that was answered with `reply`. -/
def sampleEvents (reply : PostReply) : List ClobEvent :=
  sampleStart ++ .own (.awaitPost samplePermit sampleOrder.signed) reply :: sampleEnd

def sampleAccepted (orderId : String) : PostReply := .answered 200 "" (some (some ⟨orderId, true⟩))

theorem sampleAccepted_result (orderId : String) (h : venueIdentifierIsValid orderId = true) :
    (sampleAccepted orderId).result = .ok (.accepted orderId) := by
  simp [sampleAccepted, PostReply.result, PostReply.postOrderInitial, isSuccess,
    classifyPostOrderResponse, h]

namespace Clob

/-- The attempt whose reply is settled, among no others. -/
theorem solo_attemptFn (reply : PostReply) (log : List ClobEvent)
    (hsent : reply.result ≠ .error .postSendIndeterminate)
    (hrevoked : reply.result ≠ .error .protocolAuthorityRevoked) :
    clobWorld.Solo () (attemptFn (postAndMatch sampleOrder) sampleAttempt)
      ⟨sampleGate, log ++ [.own .authorize (some sampleAttempt)]⟩
      (matchOrderId sampleOrder reply.result) ⟨sampleGate, log ++ sampleEvents reply⟩ := by
  refine solo_own (e := .lockSubmission) (r := ()) rfl ?_
  refine solo_own (e := .permit) (r := some samplePermit) ⟨rfl, rfl⟩ ?_
  refine solo_own (e := .readClient) (r := ⟨some sampleProtocolAuthority⟩) rfl ?_
  refine solo_own (e := .version) (r := .ok 2) rfl ?_
  refine solo_own (e := .admits samplePermit) (r := true) ⟨by decide, rfl⟩ ?_
  refine solo_own (e := .revalidate _ _) (r := true) rfl ?_
  refine solo_own (e := .version) (r := .ok 2) rfl ?_
  refine solo_own (e := .admits samplePermit) (r := true) ⟨by decide, rfl⟩ ?_
  refine solo_own (e := .revalidate _ _) (r := true) rfl ?_
  refine solo_own (e := .beginPost _ _ _) (r := true) rfl ?_
  refine solo_own (e := .awaitPost _ _) (r := reply) rfl ?_
  simp only [Prog.bind, sortReply_eq, if_neg hsent]
  refine solo_own (e := .version) (r := .ok 2) rfl ?_
  refine solo_own (e := .admits samplePermit) (r := true) ⟨by decide, rfl⟩ ?_
  simp only [Prog.bind, hrevoked, ne_eq, not_true_eq_false, Bool.true_eq_false, or_self, if_false]
  refine solo_own (e := .dropClient) (r := ()) rfl ?_
  refine solo_own (e := .unlockSubmission) (r := ()) rfl ?_
  exact World.solo_ret.2 ⟨rfl, by simp [sampleEvents, sampleStart, sampleEnd, samplePermit]⟩

/-- The last attempt of a submission. -/
theorem solo_retryPostOrder {policy : RetryPolicy} {post : Post} {attempt : ℕ}
    {a : SubmissionAttemptAuthority} {gate : ProtocolSubmissionGate} {log : List ClobEvent}
    {result : Submitted PostOrderOutcome} {s' : ClobState} (hr : result.isRateLimited = false)
    (h : clobWorld.Solo () (attemptFn post a) ⟨gate, log ++ [.own .authorize (some a)]⟩ result s') :
    clobWorld.Solo () (retryPostOrder policy retryAuthorityActive (attemptFn post) attempt)
      ⟨gate, log⟩ result s' := by
  rw [retryPostOrder]
  refine solo_own (e := .authorize) (r := some a) rfl ?_
  change clobWorld.Solo () (attemptFn post a >>= _) _ _ _
  refine World.solo_bind.2 ⟨result, s', h, ?_⟩
  rcases result with error | outcome
  · cases error with
    | rateLimited d => cases hr
    | _ => exact .ret _ _
  · exact .ret _ _

end Clob

end Rspm
