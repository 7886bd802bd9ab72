/-
  The error classes of a submission, and how the replies of the venue are
  sorted into them.
-/
import Rspm.Clob.Retry

namespace Rspm

inductive ClobOperationError where
  | submissionRevoked
  | protocolAuthorityRevoked
  | postSendIndeterminate
  | invalidRequest
  | authentication
  | noMatch
  | preparedOrderMismatch
  | rejected
  | rateLimited (retryAfter : Option Duration)
  | transport
deriving DecidableEq

/-- The result of a step of a submission. -/
abbrev Submitted (α : Type) := Except ClobOperationError α

def ClobOperationError.isRateLimited : ClobOperationError → Bool
  | .rateLimited _ => true
  | _ => false

def Submitted.isRateLimited {α : Type} : Submitted α → Bool
  | .error error => error.isRateLimited
  | .ok _ => false

def protocolAuthorityRevokedReason := "authenticated protocol authority is revoked"
def protocolAuthorityUnavailableReason := "authenticated protocol authority is unavailable"
def protocolAuthorityChangedReason := "authenticated protocol authority changed"

def statusRevokesProtocolAuthority (status : Status) : Bool :=
  status.message = "order_version_mismatch" || status.message = "balance_allowance_authority"

/-- The part of `classify_operation_error` for an error of the kind `Status`. -/
def classifyStatusError (error : SdkError) : ClobOperationError :=
  match error.statusSource with
  | none => .rejected
  | some status =>
    let message := asciiLowercase status.message
    if status.statusCode = 401 ∨ status.statusCode = 403 then .authentication
    else if statusRevokesProtocolAuthority status then .protocolAuthorityRevoked
    else if message = "no_match" ∨ containsText message "no orders" ∨
        containsText message "fak" ∧ containsText message "match" then .noMatch
    else if isServerError status.statusCode then .transport
    else .rejected

/-- The part of `classify_operation_error` for errors that are no rate limit. -/
def classifyOtherError (error : SdkError) : ClobOperationError :=
  if error.validationReason = some protocolAuthorityRevokedReason ∨
      error.validationReason = some protocolAuthorityUnavailableReason ∨
      error.validationReason = some protocolAuthorityChangedReason then .protocolAuthorityRevoked
  else
    match error.kind with
    | .validation => .invalidRequest
    | .status => classifyStatusError error
    | .geoblock => .rejected
    | .synchronization | .internal | .webSocket => .transport

def classifyOperationError (error : SdkError) : ClobOperationError :=
  match classifyClobError error with
  | .rateLimited retryAfter => .rateLimited retryAfter
  | .notRateLimited => classifyOtherError error

/-- No error of the client library is classified as indeterminate. -/
theorem classifyOperationError_ne (error : SdkError) :
    classifyOperationError error ≠ .postSendIndeterminate := by
  unfold classifyOperationError classifyOtherError classifyStatusError
  split
  · nofun
  · split_ifs
    · nofun
    · split
      · nofun
      · split
        · nofun
        · simp only
          split_ifs <;> nofun
      all_goals nofun

def postResponseIsAmbiguous (error : SdkError) : Bool :=
  match error.kind with
  | .status =>
    match error.statusSource with
    | none => true
    | some status => isServerError status.statusCode
  | .internal | .synchronization | .webSocket => true
  | .validation | .geoblock => false

/-! ## The response to an order -/

def maxVenueIdentifierBytes : ℕ := 512

def venueIdentifierIsValid (value : String) : Bool :=
  !value.isEmpty && value.utf8ByteSize ≤ maxVenueIdentifierBytes &&
    value.toList.all fun byte => byte.isAlphanum || byte = '-' || byte = '_'

inductive PostOrderOutcome where
  | accepted (orderId : String)
  | notAccepted
deriving DecidableEq

/-- `none` is a contradictory response. -/
def classifyPostOrderResponse (response : PostOrderResponse) : Option PostOrderOutcome :=
  if response.success then
    if venueIdentifierIsValid response.orderId then some (.accepted response.orderId) else none
  else if response.orderId.isEmpty then some .notAccepted
  else none

/-! ## What a reply says about the order -/

namespace PostReply

/-- The order was accepted under this identifier. -/
def accepts : PostReply → Option String
  | .answered statusCode _ (some (some response)) =>
    if isSuccess statusCode ∧ response.success ∧ venueIdentifierIsValid response.orderId
    then some response.orderId else none
  | _ => none

/-- A success reply without a response. -/
def IsNull : PostReply → Prop
  | .answered statusCode _ (some none) => isSuccess statusCode
  | _ => False

/-- The order may have been accepted: no reply was read, the server failed, or the reply is a
    success without a response, with an unreadable one or with a contradictory one. -/
def Unknown : PostReply → Prop
  | .unsent _ => False
  | .transport => True
  | .answered statusCode _ body => isServerError statusCode ∨ isSuccess statusCode ∧
    match body with
    | some (some response) => classifyPostOrderResponse response = none
    | _ => True

/-- The reply leaves no order behind. -/
def Harmless (reply : PostReply) : Prop := reply.accepts = none ∧ ¬ reply.Unknown

/-- The result of a POST that was answered so. -/
def result (reply : PostReply) : Submitted PostOrderOutcome :=
  match reply.postOrderInitial with
  | .ok response =>
    match classifyPostOrderResponse response with
    | some outcome => .ok outcome
    | none => .error .postSendIndeterminate
  | .error error =>
    if postResponseIsAmbiguous error then .error .postSendIndeterminate
    else .error (classifyOperationError error)

/-- The result is classified as a rate limit. -/
def RateLimited (reply : PostReply) : Prop := reply.result.isRateLimited = true

instance (reply : PostReply) : Decidable reply.RateLimited := inferInstanceAs (Decidable (_ = true))

/-- The identifier of the venue is the one in the result. -/
theorem result_of_accepts {reply : PostReply} {orderId : String}
    (h : reply.accepts = some orderId) : reply.result = .ok (.accepted orderId) := by
  unfold accepts at h
  split at h
  · rename_i statusCode text response
    split_ifs at h with hr
    obtain ⟨hs, hsucc, hvalid⟩ := hr
    obtain rfl := Option.some.inj h
    simp [result, postOrderInitial, classifyPostOrderResponse, hs, hsucc, hvalid]
  · cases h

/-- A success reply without a response is taken for a rejection. -/
theorem result_of_isNull {reply : PostReply} (h : reply.IsNull) :
    reply.result = .error .rejected := by
  have hstatus : classifyOperationError (.status 404 "Unable to find requested resource") =
      .rejected := by decide +kernel
  have hambiguous : postResponseIsAmbiguous (.status 404 "Unable to find requested resource") =
      false := by decide +kernel
  unfold IsNull at h
  split at h
  · simp [result, postOrderInitial, h, hstatus, hambiguous]
  · exact h.elim

/-- Every other unknown acceptance is indeterminate. -/
theorem result_of_unknown {reply : PostReply} (h : reply.Unknown) (hn : ¬ reply.IsNull) :
    reply.result = .error .postSendIndeterminate := by
  cases reply with
  | unsent error => exact h.elim
  | transport => rfl
  | answered statusCode text body =>
    rcases h with h | ⟨hs, h⟩
    · have hs : isSuccess statusCode = false := by
        simp only [isServerError, isSuccess, Bool.and_eq_true, decide_eq_true_eq,
          Bool.and_eq_false_iff, decide_eq_false_iff_not] at h ⊢
        omega
      simp [result, postOrderInitial, hs, postResponseIsAmbiguous, SdkError.status,
        SdkError.statusSource, h]
    · cases body with
      | none => simp [result, postOrderInitial, hs, postResponseIsAmbiguous, SdkError.internal]
      | some response =>
        cases response with
        | none => exact absurd hs hn
        | some response => simp [result, postOrderInitial, hs, h]

/-- The replies that leave an order behind, with their results. -/
theorem result_cases {reply : PostReply} (h : ¬ reply.Harmless) :
    (∃ orderId, reply.accepts = some orderId ∧ reply.result = .ok (.accepted orderId)) ∨
    reply.IsNull ∧ reply.result = .error .rejected ∨
    reply.Unknown ∧ ¬ reply.IsNull ∧ reply.result = .error .postSendIndeterminate := by
  have hcases : (∃ orderId, reply.accepts = some orderId) ∨ reply.Unknown := by
    by_contra hc
    rw [not_or, not_exists] at hc
    exact h ⟨Option.eq_none_iff_forall_ne_some.2 hc.1, hc.2⟩
  rcases hcases with ⟨orderId, h⟩ | h
  · exact .inl ⟨orderId, h, result_of_accepts h⟩
  · by_cases hn : reply.IsNull
    · exact .inr (.inl ⟨hn, result_of_isNull hn⟩)
    · exact .inr (.inr ⟨h, hn, result_of_unknown h hn⟩)

/-- An order that is or may be accepted is no rate limit. -/
theorem not_rateLimited {reply : PostReply} (h : ¬ reply.Harmless) : ¬ reply.RateLimited := by
  unfold RateLimited
  rcases result_cases h with ⟨orderId, -, h⟩ | ⟨-, h⟩ | ⟨-, -, h⟩
  all_goals rw [h]; exact Bool.false_ne_true

end PostReply

end Rspm
