/-
  Soundness of the result of a submission.

  `Standing` is what the SDK calls of the last attempt left: a failure before
  its POST, or the reply to it.  The result of a call is read off it
  (`Explained`).  A failure that is no answer of the venue is taken for a
  `NoMatch` like an answered one, and two of the submissions return `Ok(None)`
  for it.
-/
import Rspm.Clob.Indeterminate

namespace Rspm

/-! ## What the last attempt left -/

inductive Standing where
  | nothing
  | failed (error : SdkError)
  | posted (reply : PostReply)

/-- The authorization starts an attempt; once its POST is answered, the version decides nothing. -/
def Standing.next (standing : Standing) : ClobEvent → Standing
  | .own .authorize _ => .nothing
  | .own .version (.error error) =>
    match standing with
    | .posted reply => .posted reply
    | .nothing | .failed _ => .failed error
  | .own (.build _) (.error error) | .own (.sign _) (.error error) => .failed error
  | .own (.awaitPost _ _) reply => .posted reply
  | _ => standing

def ClobState.standing (s : ClobState) : Standing := s.log.foldl Standing.next .nothing

namespace ClobState

variable {s s' : ClobState}

theorem standing_does {e : ClobAct} {r : e.Answer} (h : s.does e r s') :
    s'.standing = s.standing.next (.own e r) := by
  rw [standing, h.2, List.foldl_append]
  rfl

/-- The other tasks are not heard of. -/
theorem standing_others (h : Relation.ReflTransGen Others s s') : s'.standing = s.standing := by
  induction h with
  | refl => rfl
  | tail _ hstep ih =>
    rw [standing, hstep.2, List.foldl_append, ← ih]
    rfl

end ClobState

/-- The reply that stands is the last one of the log. -/
theorem standing_posted {log : List ClobEvent} {reply : PostReply}
    (h : log.foldl Standing.next .nothing = .posted reply) :
    ∃ before permit signed after, log = before ++ .own (.awaitPost permit signed) reply :: after ∧
      ∀ permit' signed' reply', .own (.awaitPost permit' signed') reply' ∉ after := by
  induction log using List.reverseRecOn with
  | nil => cases h
  | append_singleton log e ih =>
    rw [List.foldl_append, List.foldl_cons, List.foldl_nil] at h
    have hkept : log.foldl Standing.next .nothing = .posted reply →
        (∀ permit signed reply', e ≠ .own (.awaitPost permit signed) reply') →
        ∃ before permit signed after,
          log ++ [e] = before ++ .own (.awaitPost permit signed) reply :: after ∧
          ∀ permit' signed' reply', .own (.awaitPost permit' signed') reply' ∉ after := by
      intro hlog he
      obtain ⟨before, permit, signed, after, rfl, hafter⟩ := ih hlog
      refine ⟨before, permit, signed, after ++ [e], by simp, fun permit' signed' reply' hm => ?_⟩
      rcases List.mem_append.1 hm with hm | hm
      · exact hafter permit' signed' reply' hm
      · exact he permit' signed' reply' (List.mem_singleton.1 hm).symm
    cases e with
    | other gate => exact hkept h (by simp)
    | own e r =>
      cases e with
      | authorize => cases h
      | version =>
        cases r with
        | ok => exact hkept h (by simp)
        | error error =>
          refine hkept ?_ (by simp)
          simp only [Standing.next] at h
          split at h
          · rename_i hs
            rw [hs, h]
          · cases h
          · cases h
      | build order => cases r with
        | ok => exact hkept h (by simp)
        | error error => cases h
      | sign signable => cases r with
        | ok => exact hkept h (by simp)
        | error error => cases h
      | awaitPost permit signed =>
        obtain rfl := Standing.posted.inj h
        exact ⟨log, permit, signed, [], rfl, by simp⟩
      | _ => exact hkept h (by simp)

/-! ## How an attempt ends -/

/-- Before the POST: the step is done, the client refuses it, or an SDK call fails. -/
def Prepared {α : Type} (result : Submitted α) (s : ClobState) : Prop :=
  match result with
  | .ok _ => s.standing = .nothing
  | .error error => s.standing = .nothing ∧ error ≠ .noMatch ∨
    ∃ cause, s.standing = .failed cause ∧ error = classifyOperationError cause

/-- The result is that of the SDK call that ended the attempt, or the client refuses it. -/
def EndedBy (f : Submitted PostOrderOutcome → Submitted PostOrderOutcome)
    (result : Submitted PostOrderOutcome) (s : ClobState) : Prop :=
  match s.standing with
  | .nothing => ∃ error, result = .error error ∧ error ≠ .noMatch
  | .failed cause => result = .error (classifyOperationError cause)
  | .posted reply => result = f reply.result

theorem Prepared.ended {α : Type} {f : Submitted PostOrderOutcome → Submitted PostOrderOutcome}
    {error : ClobOperationError} {s : ClobState}
    (h : Prepared (.error error : Submitted α) s) : EndedBy f (.error error) s := by
  unfold EndedBy
  rcases h with ⟨hs, hne⟩ | ⟨cause, hs, rfl⟩
  · rw [hs]
    exact ⟨error, rfl, hne⟩
  · rw [hs]

theorem EndedBy.of_posted {f : Submitted PostOrderOutcome → Submitted PostOrderOutcome}
    {reply : PostReply} {s : ClobState} (h : s.standing = .posted reply) :
    EndedBy f (f reply.result) s := by
  unfold EndedBy
  rw [h]

namespace Clob

open ClobState

variable {α : Type} {s : ClobState} {Q : α → ClobState → Prop} {a : SubmissionAttemptAuthority}
  {permit : ProtocolSubmissionPermit} {standing : Standing}

theorem safe_next {e : ClobAct} {k : e.Answer → Clob α} (h : s.standing = standing)
    (hk : ∀ r s', s'.standing = standing.next (.own e r) → outcomeLogic.Safe () Q (k r) s') :
    outcomeLogic.Safe () Q (.act e k) s := by
  refine safe_own fun s₁ r s₂ ho hd => hk r s₂ ?_
  rw [standing_does hd, standing_others ho, h]

theorem prepared_refuse {authority : AuthenticatedProtocolAuthority} {error : ClobOperationError}
    (h : s.standing = .nothing) (he : error ≠ .noMatch) :
    outcomeLogic.Safe () (fun (result : Submitted α) s => Prepared result s)
      (refuse authority error) s :=
  safe_next h fun _ _ h => .inl ⟨h, he⟩

theorem ended_refuse {f : Submitted PostOrderOutcome → Submitted PostOrderOutcome}
    {authority : AuthenticatedProtocolAuthority} {error : ClobOperationError}
    (h : s.standing = .nothing) (he : error ≠ .noMatch) :
    outcomeLogic.Safe () (EndedBy f) (refuse authority error) s :=
  safe_next h fun _ _ h => Prepared.ended (α := Unit) (.inl ⟨h, he⟩)

theorem prepared_checkClient {guard : AuthenticatedClientState} (h : s.standing = .nothing) :
    outcomeLogic.Safe () Prepared (checkClient guard permit) s := by
  unfold checkClient
  cases guard.protocolAuthority with
  | none => exact .inl ⟨h, by simp⟩
  | some authority =>
    refine safe_next h fun version s h => ?_
    cases version with
    | error error => exact .inr ⟨error, h, rfl⟩
    | ok sdkVersion =>
      dsimp only [Prog.bind]
      split_ifs
      · exact prepared_refuse h (by simp)
      · refine safe_next h fun ok s h => ?_
        cases ok with
        | false => exact prepared_refuse h (by simp)
        | true => exact h

theorem prepared_submissionClient (h : s.standing = .nothing) :
    outcomeLogic.Safe () Prepared submissionClient s := by
  refine safe_next h fun permit s h => ?_
  cases permit with
  | none => exact .inl ⟨h, by simp⟩
  | some permit =>
    refine safe_next h fun guard s h => ?_
    refine (prepared_checkClient h).bind fun result s h => ?_
    cases result with
    | ok _ => exact h
    | error error =>
      rcases h with ⟨hs, hne⟩ | ⟨cause, hs, he⟩
      · exact safe_next hs fun _ _ hs => .inl ⟨hs, hne⟩
      · exact safe_next hs fun _ _ hs => .inr ⟨cause, hs, he⟩

theorem prepared_checkAuthority {guard : AuthenticatedClientState} {orderVersion : ℕ}
    (h : s.standing = .nothing) :
    outcomeLogic.Safe () Prepared (checkAuthority guard permit a orderVersion) s := by
  unfold checkAuthority
  cases guard.protocolAuthority with
  | none => exact .inl ⟨h, by simp⟩
  | some authority =>
    refine safe_next h fun version s h => ?_
    cases version with
    | error error => exact .inr ⟨error, h, rfl⟩
    | ok beforeVersion =>
      dsimp only [Prog.bind]
      split_ifs
      · exact prepared_refuse h (by simp)
      · refine safe_next h fun ok s h => ?_
        cases ok with
        | false => exact prepared_refuse h (by simp)
        | true =>
          refine safe_next h fun ok s h => ?_
          cases ok with
          | false => exact prepared_refuse h (by simp)
          | true => exact h

/-- The checks after the reply leave the result of the reply. -/
theorem ended_settle {reply : PostReply} {beforeVersion : ℕ} (h : s.standing = .posted reply) :
    outcomeLogic.Safe () (EndedBy id) (settle permit beforeVersion reply.result) s := by
  refine safe_next h fun version s h => ?_
  have h : s.standing = .posted reply := by
    rw [h]
    cases version <;> rfl
  refine safe_next h fun matched s h => ?_
  dsimp only [Prog.bind]
  split_ifs
  · exact safe_next h fun _ _ h => EndedBy.of_posted (f := id) h
  · exact EndedBy.of_posted (f := id) h

theorem ended_postSigned {signed : SignedOrder} {beforeVersion : ℕ} (h : s.standing = .nothing) :
    outcomeLogic.Safe () (EndedBy id) (postSigned permit a signed beforeVersion) s := by
  refine safe_next h fun ok s h => ?_
  cases ok with
  | false => exact ended_refuse h (by simp)
  | true =>
    refine safe_next h fun reply s h => ?_
    have h : s.standing = .posted reply := h
    change outcomeLogic.Safe () (EndedBy id) (sortReply permit beforeVersion reply) s
    rw [sortReply_eq]
    split_ifs with hsent
    · refine safe_next h fun _ s h => ?_
      show EndedBy id (.error .postSendIndeterminate) s
      rw [← hsent]
      exact EndedBy.of_posted (f := id) h
    · exact ended_settle h

theorem ended_postPreparedSdk {guard : AuthenticatedClientState} {signed : SignedOrder}
    (h : s.standing = .nothing) :
    outcomeLogic.Safe () (EndedBy id) (postPreparedSdk signed guard permit a) s := by
  refine (prepared_checkAuthority h).bind fun result s h => ?_
  cases result with
  | error error => exact h.ended
  | ok beforeVersion => exact ended_postSigned h

theorem ended_signAndPostSdk {guard : AuthenticatedClientState} {signable : SignableOrder}
    (h : s.standing = .nothing) :
    outcomeLogic.Safe () (EndedBy id) (signAndPostSdk signable guard permit a) s := by
  refine (prepared_checkAuthority h).bind fun result s h => ?_
  cases result with
  | error error => exact h.ended
  | ok beforeVersion =>
    refine safe_next h fun signed s h => ?_
    cases signed with
    | error error => exact Prepared.ended (α := Unit) (.inr ⟨error, h, rfl⟩)
    | ok signed =>
      refine safe_next h fun ok s h => ?_
      cases ok with
      | false => exact ended_refuse h (by simp)
      | true => exact ended_postSigned h

/-- A submission keeps the errors, and `f` is what it makes of the result of its POST. -/
structure PostEnds (f : Submitted PostOrderOutcome → Submitted PostOrderOutcome) (post : Post) :
    Prop where
  error : ∀ error, f (.error error) = .error error
  ends : ∀ {guard permit a s}, s.standing = .nothing →
    outcomeLogic.Safe () (EndedBy f) (post guard permit a) s

theorem ends_buildAndPost {order : LimitOrder} : PostEnds id (buildAndPost order) := by
  refine ⟨fun _ => rfl, fun {guard permit a s} h => ?_⟩
  refine safe_next h fun signable s h => ?_
  cases signable with
  | error error => exact Prepared.ended (α := Unit) (.inr ⟨error, h, rfl⟩)
  | ok signable => exact ended_signAndPostSdk h

theorem ends_postAndMatch {order : PreparedClobOrder} :
    PostEnds (matchOrderId order) (postAndMatch order) := by
  refine ⟨fun _ => rfl, fun {guard permit a s} h => ?_⟩
  refine (ended_postPreparedSdk h).bind fun result s h => ?_
  show EndedBy (matchOrderId order) (matchOrderId order result) s
  unfold EndedBy at h ⊢
  split at h
  · obtain ⟨error, rfl, hne⟩ := h
    exact ⟨error, rfl, hne⟩
  · rw [h]
    rfl
  · rw [h]
    rfl

variable {f : Submitted PostOrderOutcome → Submitted PostOrderOutcome} {post : Post}

/-- An action that leaves the standing alone. -/
theorem ended_release {e : ClobAct} (he : ∀ (r : e.Answer) st, Standing.next st (.own e r) = st)
    {result : Submitted PostOrderOutcome} (h : EndedBy f result s) :
    outcomeLogic.Safe () (EndedBy f) (.act e fun _ => .ret result) s := by
  refine safe_next rfl fun r s' hs => ?_
  show EndedBy f result s'
  unfold EndedBy at h ⊢
  rwa [hs, he]

theorem ended_attemptFn (hpost : PostEnds f post) (h : s.standing = .nothing) :
    outcomeLogic.Safe () (EndedBy f) (attemptFn post a) s := by
  refine safe_next h fun _ s h => ?_
  have hguard : outcomeLogic.Safe () (EndedBy f) (underGuard post a) s := by
    refine (prepared_submissionClient h).bind fun result s h => ?_
    rcases result with error | ⟨guard, permit⟩
    · exact h.ended
    · have hattempt :
          outcomeLogic.Safe () (EndedBy f) (revalidateAndPost post guard permit a) s := by
        refine safe_next h fun ok s h => ?_
        cases ok with
        | false => exact ended_refuse h (by simp)
        | true => exact hpost.ends h
      refine hattempt.bind fun result s h => ?_
      exact ended_release (fun _ _ => rfl) h
  refine hguard.bind fun result s h => ?_
  exact ended_release (fun _ _ => rfl) h

end Clob

/-! ## How a call ends -/

/-- The last attempt explains the result; after a rate limit the call may be refused instead. -/
def Explained (f : Submitted PostOrderOutcome → Submitted PostOrderOutcome)
    (result : Submitted PostOrderOutcome) (s : ClobState) : Prop :=
  EndedBy f result s ∨ result = .error .submissionRevoked ∧
    ∃ limited, EndedBy f (.error (.rateLimited limited)) s

namespace Clob

open ClobState

variable {s : ClobState} {f : Submitted PostOrderOutcome → Submitted PostOrderOutcome} {post : Post}

theorem explained_retryPostOrder {policy : RetryPolicy} (hpost : PostEnds f post) (attempt : ℕ) :
    ∀ s : ClobState, outcomeLogic.Safe () (Explained f)
      (retryPostOrder policy retryAuthorityActive (attemptFn post) attempt) s := by
  induction hm : policy.maxAttempts - attempt using Nat.strong_induction_on
    generalizing attempt with
  | _ m ih =>
    intro s
    rw [retryPostOrder]
    refine safe_next rfl fun a s h => ?_
    have h : s.standing = .nothing := h
    cases a with
    | none => exact .inl (Prepared.ended (α := Unit) (.inl ⟨h, by simp⟩))
    | some a =>
      refine (ended_attemptFn hpost h).bind fun result s h => ?_
      rcases result with error | outcome
      · cases error with
        | rateLimited limited =>
          have hkept : ∀ {s' : ClobState}, s'.standing = s.standing →
              EndedBy f (.error (.rateLimited limited)) s' := by
            intro s' hs
            unfold EndedBy at h ⊢
            rwa [hs]
          refine safe_next rfl fun permit s' hs => ?_
          cases permit with
          | none => exact .inr ⟨rfl, limited, hkept hs⟩
          | some permit =>
            dsimp only [Prog.bind, Option.isSome]
            split_ifs with hretry
            · refine safe_next rfl fun _ s' _ => ?_
              have hlt : attempt < policy.maxAttempts := of_decide_eq_true hretry
              exact ih _ (by omega) (attempt + 1) rfl s'
            · exact .inl (hkept hs)
        | _ => exact .inl h
      · exact .inl h

end Clob

/-! ## Replies that decline -/

namespace PostReply

/-- The venue was reached, and it definitely did not accept the order. -/
def Declined : PostReply → Prop
  | .answered statusCode text body => (answered statusCode text body).Harmless
  | .unsent _ | .transport => False

theorem accepts_of_result {reply : PostReply} {orderId : String}
    (h : reply.result = .ok (.accepted orderId)) : reply.accepts = some orderId := by
  by_cases hr : reply.Harmless
  · cases reply with
    | unsent error =>
      unfold result at h
      dsimp only [postOrderInitial] at h
      split_ifs at h
    | transport => cases h
    | answered statusCode text body =>
      simp only [result, postOrderInitial] at h
      split at h
      · rename_i response hresponse
        split_ifs at hresponse with hs
        split at hresponse <;> try cases hresponse
        unfold classifyPostOrderResponse at h
        split_ifs at h with hsucc hvalid
        · simp only [Except.ok.injEq, PostOrderOutcome.accepted.injEq] at h
          subst h
          simp [accepts, hs, hsucc, hvalid]
        · cases h
      · split_ifs at h
  · rcases result_cases hr with ⟨orderId', ha, hresult⟩ | ⟨-, hresult⟩ | ⟨-, -, hresult⟩
    all_goals rw [hresult] at h; cases h
    exact ha

theorem accepts_valid {reply : PostReply} {orderId : String} (h : reply.accepts = some orderId) :
    venueIdentifierIsValid orderId = true := by
  unfold accepts at h
  split at h
  · split_ifs at h with hr
    obtain rfl := Option.some.inj h
    exact hr.2.2
  · cases h

/-- A reply with another result than these is harmless. -/
theorem harmless_of_result {reply : PostReply} (ha : ∀ id, reply.result ≠ .ok (.accepted id))
    (hr : reply.result ≠ .error .rejected) (hs : reply.result ≠ .error .postSendIndeterminate) :
    reply.Harmless := by
  by_contra h
  rcases result_cases h with ⟨id, -, h⟩ | ⟨-, h⟩ | ⟨-, -, h⟩
  · exact ha id h
  · exact hr h
  · exact hs h

theorem declined_of_notAccepted {reply : PostReply} (h : reply.result = .ok .notAccepted) :
    reply.Declined := by
  have hharmless : reply.Harmless := harmless_of_result (by simp [h]) (by simp [h]) (by simp [h])
  cases reply with
  | unsent error =>
    unfold result at h
    dsimp only [postOrderInitial] at h
    split_ifs at h
  | transport => cases h
  | answered => exact hharmless

/-- A `NoMatch` was answered so, or no POST was sent. -/
theorem declined_of_noMatch {reply : PostReply} (h : reply.result = .error .noMatch) :
    reply.Declined ∨ ∃ error, reply = .unsent error := by
  have hharmless : reply.Harmless := harmless_of_result (by simp [h]) (by simp [h]) (by simp [h])
  cases reply with
  | unsent error => exact .inr ⟨error, rfl⟩
  | transport => cases h
  | answered => exact .inl hharmless

end PostReply

/-! ## The law, and when it holds -/

/-- The last attempt failed without an answer of the venue, and the failure is taken for a
    `NoMatch`. -/
def Standing.Misread : Standing → Prop
  | .failed error => classifyOperationError error = .noMatch
  | .posted (.unsent error) => (PostReply.unsent error).result = .error .noMatch
  | .nothing | .posted _ => False

namespace SubmitCall

/-- The submissions that return `Ok(None)` for a `NoMatch`. -/
def TakesNoMatch : SubmitCall → Prop
  | .fak .. | .prepared _ => True
  | .gtcSell _ | .gtcBuy _ => False

/-- What the call makes of the result of a POST. -/
def post : SubmitCall → Submitted PostOrderOutcome → Submitted PostOrderOutcome
  | .prepared order => Clob.matchOrderId order
  | _ => id

/-- What the call makes of the result of its attempts. -/
def final : SubmitCall → Submitted PostOrderOutcome → Submitted (Option String)
  | .fak .. | .prepared _ => Clob.orderIdUnlessNoMatch
  | .gtcSell _ | .gtcBuy _ => Clob.orderId

end SubmitCall

/-- Some POST of the call was answered with a definite non-acceptance. -/
def ClobState.Declined (s : ClobState) : Prop :=
  ∃ permit signed reply, .own (.awaitPost permit signed) reply ∈ s.log ∧ reply.Declined

/-- An identifier is that of the order which the last POST was answered to have accepted, and
    `Ok(None)` follows an answer that declines. -/
structure SubmitSound (call : SubmitCall) (result : Submitted (Option String)) (s : ClobState) :
    Prop where
  accepted : ∀ orderId, result = .ok (some orderId) → ∃ before permit signed reply after,
    s.log = before ++ .own (.awaitPost permit signed) reply :: after ∧
    (∀ permit' signed' reply', .own (.awaitPost permit' signed') reply' ∉ after) ∧
    reply.accepts = some orderId ∧ venueIdentifierIsValid orderId = true ∧
    ∀ expected, call.expectedOrderId = some expected → orderId = expected
  declined : result = .ok none → s.Declined

namespace SubmitCall

variable {call : SubmitCall} {result : Submitted PostOrderOutcome}

theorem final_some {orderId : String} (h : call.final result = .ok (some orderId)) :
    result = .ok (.accepted orderId) := by
  rcases result with error | outcome
  · cases call <;> cases error <;> cases h
  · cases outcome <;> cases call <;> cases h <;> rfl

theorem final_none (h : call.final result = .ok none) :
    result = .ok .notAccepted ∨ result = .error .noMatch ∧ call.TakesNoMatch := by
  rcases result with error | outcome
  · cases call <;> cases error <;> first | exact .inr ⟨rfl, trivial⟩ | cases h
  · cases outcome <;> cases call <;> first | exact .inl rfl | cases h

theorem final_noMatch (h : call.TakesNoMatch) : call.final (.error .noMatch) = .ok none := by
  cases call with
  | fak | prepared => rfl
  | gtcSell | gtcBuy => exact h.elim

theorem post_error (error : ClobOperationError) : call.post (.error error) = .error error := by
  cases call <;> rfl

theorem post_accepted {orderId : String} (h : call.post result = .ok (.accepted orderId)) :
    result = .ok (.accepted orderId) ∧
      ∀ expected, call.expectedOrderId = some expected → orderId = expected := by
  cases call with
  | fak | gtcSell | gtcBuy => exact ⟨h, nofun⟩
  | prepared order =>
    simp only [post, Clob.matchOrderId] at h
    split at h
    · split_ifs at h with heq
      simp only [Except.ok.injEq, PostOrderOutcome.accepted.injEq] at h
      subst h
      exact ⟨rfl, fun expected he => heq.trans (Option.some.inj he)⟩
    · rename_i hother
      exact absurd h (hother orderId)

/-- The other results are those of the POST. -/
theorem post_eq {r : Submitted PostOrderOutcome} (h : call.post result = r)
    (ha : ∀ orderId, r ≠ .ok (.accepted orderId)) (hm : r ≠ .error .preparedOrderMismatch) :
    result = r := by
  cases call with
  | fak | gtcSell | gtcBuy => exact h
  | prepared order =>
    simp only [post, Clob.matchOrderId] at h
    split at h
    · split_ifs at h
      · exact absurd h.symm (ha _)
      · exact absurd h.symm hm
    · exact h

end SubmitCall

/-! ## The result of a call -/

namespace Clob

/-- The result is what the call makes of a result that its last attempt explains. -/
def Returned (call : SubmitCall) (result : Submitted (Option String)) (s : ClobState) : Prop :=
  ∃ r, result = call.final r ∧ Explained call.post r s

theorem explained_submitLimit {policy : RetryPolicy} {input : OrderInput} {side : ClobSide}
    {orderType : Option OrderType} {postOnly : Bool} {s : ClobState} (h : s.standing = .nothing) :
    outcomeLogic.Safe () (Explained id) (submitLimit policy input side orderType postOnly) s := by
  unfold submitLimit
  split
  · exact explained_retryPostOrder ends_buildAndPost 1 s
  · exact .inl (Prepared.ended (α := Unit) (.inl ⟨h, by simp⟩))

theorem returned_body (policy : RetryPolicy) (call : SubmitCall) {s : ClobState}
    (h : s.standing = .nothing) :
    outcomeLogic.Safe () (Returned call) (call.body policy) s := by
  cases call with
  | fak | gtcSell | gtcBuy =>
    refine (explained_submitLimit h).bind ?_
    exact fun r _ h => ⟨r, rfl, h⟩
  | prepared order =>
    refine (explained_retryPostOrder ends_postAndMatch 1 s).bind ?_
    exact fun r _ h => ⟨r, rfl, h⟩

theorem Returned.others {call : SubmitCall} {result : Submitted (Option String)} {s s' : ClobState}
    (h : Returned call result s) (ho : Relation.ReflTransGen ClobState.Others s s') :
    Returned call result s' := by
  have hs := ClobState.standing_others ho
  obtain ⟨r, rfl, h⟩ := h
  refine ⟨r, rfl, ?_⟩
  unfold Explained EndedBy at h ⊢
  rwa [hs]

end Clob

theorem SubmissionRun.returned {policy : RetryPolicy} {call : SubmitCall}
    {gate : ProtocolSubmissionGate} {result : Submitted (Option String)} {s : ClobState}
    (h : SubmissionRun (call.body policy) gate (.ret result) s) :
    Clob.Returned call result s := by
  have hsafe := Clob.returned_body policy call (s := { gate }) rfl
  have hrun := World.Logic.Safe.run (L := outcomeLogic)
    (fun s s' _ ho => ⟨trivial, Relation.ReflTransGen.single ho⟩) (fun _ _ _ h ho => h.others ho)
    h trivial hsafe
  exact hrun.2

namespace Clob

variable {call : SubmitCall} {result : Submitted (Option String)} {s : ClobState}

/-- An identifier comes from the reply that stands. -/
theorem Returned.accepted {orderId : String} (h : Returned call (.ok (some orderId)) s) :
    ∃ reply, s.standing = .posted reply ∧ reply.accepts = some orderId ∧
      ∀ expected, call.expectedOrderId = some expected → orderId = expected := by
  obtain ⟨r, hr, h⟩ := h
  obtain rfl := SubmitCall.final_some hr.symm
  rcases h with h | ⟨hrevoked, -⟩
  · unfold EndedBy at h
    split at h
    · obtain ⟨error, he, -⟩ := h
      cases he
    · cases h
    · rename_i reply hs
      obtain ⟨hresult, hexpected⟩ := SubmitCall.post_accepted h.symm
      exact ⟨reply, hs, PostReply.accepts_of_result hresult, hexpected⟩
  · cases hrevoked

/-- `Ok(None)` comes from an answer that declines, or from a failure that is misread. -/
theorem Returned.declined (h : Returned call (.ok none) s) :
    (∃ reply, s.standing = .posted reply ∧ reply.Declined) ∨
      call.TakesNoMatch ∧ s.standing.Misread := by
  obtain ⟨r, hr, h⟩ := h
  rcases h with h | ⟨rfl, -⟩
  swap
  · rcases SubmitCall.final_none hr.symm with hr | ⟨hr, -⟩ <;> cases hr
  unfold EndedBy at h
  split at h
  · obtain ⟨error, rfl, hne⟩ := h
    rcases SubmitCall.final_none hr.symm with hr | ⟨hr, -⟩
    · cases hr
    · cases hr
      exact absurd rfl hne
  · rename_i cause hs
    rcases SubmitCall.final_none hr.symm with hr | ⟨hr, htakes⟩
    · rw [h] at hr
      cases hr
    · rw [h] at hr
      refine .inr ⟨htakes, ?_⟩
      rw [hs]
      exact Except.error.inj hr
  · rename_i reply hs
    rcases SubmitCall.final_none hr.symm with hr | ⟨hr, htakes⟩
    · rw [h] at hr
      have hresult := SubmitCall.post_eq hr (by simp) (by simp)
      exact .inl ⟨reply, hs, PostReply.declined_of_notAccepted hresult⟩
    · rw [h] at hr
      have hresult := SubmitCall.post_eq hr (by simp) (by simp)
      rcases PostReply.declined_of_noMatch hresult with hd | ⟨error, rfl⟩
      · exact .inl ⟨reply, hs, hd⟩
      · refine .inr ⟨htakes, ?_⟩
        rw [hs]
        exact hresult

/-- A misread failure is reported as `Ok(None)`. -/
theorem Returned.of_misread (h : Returned call result s) (htakes : call.TakesNoMatch)
    (hm : s.standing.Misread) : result = .ok none := by
  obtain ⟨r, rfl, h⟩ := h
  have hended : ∀ {r}, EndedBy call.post r s → r = .error .noMatch := by
    intro r h
    unfold EndedBy at h
    split at h
    · rename_i hs
      rw [hs] at hm
      exact hm.elim
    · rename_i cause hs
      rw [hs] at hm
      rw [h, show classifyOperationError cause = .noMatch from hm]
    · rename_i reply hs
      rw [hs] at hm
      cases reply with
      | unsent error =>
        rw [h, show (PostReply.unsent error).result = .error .noMatch from hm]
        exact SubmitCall.post_error _
      | transport | answered => exact hm.elim
  rcases h with h | ⟨-, limited, h⟩
  · rw [hended h]
    exact SubmitCall.final_noMatch htakes
  · cases hended h

end Clob

/-- A submission that returns an identifier, or `Ok(None)`, says what the venue answered, if and
    only if its last attempt did not fail with a misread `NoMatch`, or an earlier POST was answered
    with a definite non-acceptance, or the submission keeps a `NoMatch` as an error. -/
theorem submit_sound_iff {policy : RetryPolicy} {call : SubmitCall}
    {gate : ProtocolSubmissionGate} {result : Submitted (Option String)} {s : ClobState}
    (h : SubmissionRun (call.body policy) gate (.ret result) s) :
    SubmitSound call result s ↔ (call.TakesNoMatch → s.standing.Misread → s.Declined) := by
  have hreturned := h.returned
  constructor
  · intro hsound htakes hm
    exact hsound.declined (hreturned.of_misread htakes hm)
  · intro hcondition
    refine ⟨?_, ?_⟩
    · rintro orderId rfl
      obtain ⟨reply, hs, haccepts, hexpected⟩ := hreturned.accepted
      obtain ⟨before, permit, signed, after, hlog, hlast⟩ := standing_posted hs
      exact ⟨before, permit, signed, reply, after, hlog, hlast, haccepts,
        PostReply.accepts_valid haccepts, hexpected⟩
    · rintro rfl
      rcases hreturned.declined with ⟨reply, hs, hd⟩ | ⟨htakes, hm⟩
      · obtain ⟨before, permit, signed, after, hlog, -⟩ := standing_posted hs
        exact ⟨permit, signed, reply, by rw [hlog]; simp, hd⟩
      · exact hcondition htakes hm

/-! ## A metadata read that is taken for a `NoMatch` -/

/-- The sample order is accepted, and its identifier returned. -/
theorem submit_sound_iff_accepted : ∃ s : ClobState,
    SubmitSound (.prepared sampleOrder) (.ok (some "0xA")) s := by
  have haccepted := sampleAccepted_result "0xA" (by decide)
  have hattempt := Clob.solo_attemptFn (sampleAccepted "0xA") []
    (by rw [haccepted]; simp) (by rw [haccepted]; simp)
  rw [haccepted] at hattempt
  have hrun : SubmissionRun (SubmitCall.body .default (.prepared sampleOrder)) sampleGate
      (.ret (.ok (some "0xA"))) ⟨sampleGate, sampleEvents (sampleAccepted "0xA")⟩ :=
    World.Solo.run (World.solo_bind.2 ⟨.ok (.accepted "0xA"), _,
      Clob.solo_retryPostOrder rfl hattempt, .ret _ _⟩)
  exact ⟨_, (submit_sound_iff hrun).2 fun _ hm => hm.elim⟩

def sampleInput : OrderInput := ⟨some 1, some (1 / 2), some 10⟩

/-- The server answers a metadata read of the build with an error whose text stands for a
    `NoMatch`. -/
def sampleMisread : SdkError := .status 404 "no orders found to match with FAK order"

/-- What `submit_fak` builds of the sample input. -/
def sampleLimit : LimitOrder := ⟨1, 1 / 2, 10, .buy, some .fak, false⟩

/-- An attempt that ends where it builds its order. -/
def misreadEvents : List ClobEvent :=
  [.own .authorize (some sampleAttempt), .own .lockSubmission (),
    .own .permit (some samplePermit), .own .readClient ⟨some sampleProtocolAuthority⟩,
    .own .version (.ok 2), .own (.admits samplePermit) true,
    .own (.revalidate sampleAttempt sampleProtocolAuthority) true,
    .own (.build sampleLimit) (.error sampleMisread), .own .dropClient (),
    .own .unlockSubmission ()]

theorem solo_misread : SubmissionRun (SubmitCall.body .default (.fak sampleInput .buy)) sampleGate
    (.ret (.ok none)) ⟨sampleGate, misreadEvents⟩ := by
  have hmisread : classifyOperationError sampleMisread = .noMatch := by decide +kernel
  refine World.Solo.run (World.solo_bind.2 ⟨.error .noMatch, ⟨sampleGate, misreadEvents⟩, ?_,
    .ret _ _⟩)
  refine Clob.solo_retryPostOrder (a := sampleAttempt) rfl ?_
  refine solo_own (e := .lockSubmission) (r := ()) rfl ?_
  refine solo_own (e := .permit) (r := some samplePermit) ⟨rfl, rfl⟩ ?_
  refine solo_own (e := .readClient) (r := ⟨some sampleProtocolAuthority⟩) rfl ?_
  refine solo_own (e := .version) (r := .ok 2) rfl ?_
  refine solo_own (e := .admits samplePermit) (r := true) ⟨by decide, rfl⟩ ?_
  refine solo_own (e := .revalidate _ _) (r := true) rfl ?_
  refine solo_own (e := .build sampleLimit) (r := .error sampleMisread) rfl ?_
  simp only [Prog.bind, hmisread]
  refine solo_own (e := .dropClient) (r := ()) rfl ?_
  refine solo_own (e := .unlockSubmission) (r := ()) rfl ?_
  exact .ret _ _

theorem submit_sound_not : ∃ s : ClobState,
    SubmissionRun (SubmitCall.body .default (.fak sampleInput .buy)) sampleGate
      (.ret (.ok none)) s ∧
    (∀ permit signed reply, .own (.awaitPost permit signed) reply ∉ s.log) ∧
    ¬ SubmitSound (.fak sampleInput .buy) (.ok none) s := by
  have hnone : ∀ permit signed reply, .own (.awaitPost permit signed) reply ∉ misreadEvents := by
    simp [misreadEvents]
  refine ⟨_, solo_misread, hnone, fun hsound => ?_⟩
  obtain ⟨permit, signed, reply, hm, -⟩ := hsound.declined rfl
  exact hnone permit signed reply hm

end Rspm
