/-
  At most one order per submission.

  A monitor (`watch`) reads the actions of one call: it follows the call from
  phase to phase, counts the authorizations, and notes whether the call closed
  the gate.  Every run of every call obeys it (`SubmitCall.watched`), whatever
  the venue, the caller and the other tasks do; what a run may not do is then
  read off the monitor.
-/
import Rspm.Clob.Client
import Rspm.Lib.Monitor

namespace Rspm

/-! ## The monitor -/

/-- How far a call is. -/
inductive Phase where
  /-- it asks for an authorization next -/
  | ready
  | granted (attempt : SubmissionAttemptAuthority)
  /-- an attempt is under way, its POST has not begun -/
  | trying (attempt : SubmissionAttemptAuthority)
  /-- the POST of the attempt has begun -/
  | sent
  /-- the POST was answered with a rate limit; `stale` when the permit was found not to match -/
  | limited (stale : Bool)
  /-- after the rate limit the gate was found active -/
  | retrying
  /-- there is no further attempt -/
  | over
deriving DecidableEq

/-- The phase after an action, `none` where the action may not happen. -/
def Phase.next : Phase → (e : ClobAct) → e.Answer → Option Phase
  | .ready, .authorize, some attempt => some (.granted attempt)
  | .ready, .authorize, none => some .over
  | .granted attempt, .lockSubmission, _ => some (.trying attempt)
  | .trying attempt, .permit, some _ => some (.trying attempt)
  | .trying _, .permit, none => some .over
  | .trying attempt, .admits _, true => some (.trying attempt)
  | .trying _, .admits _, false => some .over
  | .trying attempt, .revalidate attempt' _, ok =>
    if attempt' = attempt then some (if ok then .trying attempt else .over) else none
  | .trying attempt, .beginPost attempt' _ _, ok =>
    if attempt' = attempt then some (if ok then .sent else .over) else none
  | .trying _, .quarantine _, _ => some .over
  | .trying _, .sleep _, _ => some .ready
  | .trying attempt, .readClient, _ => some (.trying attempt)
  | .trying attempt, .dropClient, _ => some (.trying attempt)
  | .trying attempt, .unlockSubmission, _ => some (.trying attempt)
  | .trying attempt, .version, _ => some (.trying attempt)
  | .trying attempt, .build _, _ => some (.trying attempt)
  | .trying attempt, .sign _, _ => some (.trying attempt)
  | .sent, .awaitPost _ _, reply => some (if reply.RateLimited then .limited false else .over)
  | .limited false, .version, _ => some (.limited false)
  | .limited false, .admits _, ok => some (.limited (!ok))
  | .limited _, .quarantine _, _ => some (.limited false)
  | .limited false, .dropClient, _ => some (.limited false)
  | .limited false, .unlockSubmission, _ => some (.limited false)
  | .limited false, .permit, some _ => some .retrying
  | .limited false, .permit, none => some .over
  | .retrying, .sleep _, _ => some .ready
  | .over, .version, _ => some .over
  | .over, .admits _, _ => some .over
  | .over, .quarantine _, _ => some .over
  | .over, .markIndeterminate _, _ => some .over
  | .over, .dropClient, _ => some .over
  | .over, .unlockSubmission, _ => some .over
  | _, _, _ => none

structure Watch where
  phase : Phase := .ready
  /-- the authorizations obtained so far -/
  used : ℕ := 0
  /-- the call closed the gate, and no other task left it active since -/
  shut : Bool := false

/-- An authorization was obtained. -/
def ClobAct.grants : (e : ClobAct) → e.Answer → Bool
  | .authorize, some _ => true
  | _, _ => false

/-- The gate was found active. -/
def ClobAct.findsActive : (e : ClobAct) → e.Answer → Bool
  | .permit, some _ => true
  | _, _ => false

def ClobAct.shuts : ClobAct → Bool
  | .quarantine _ | .markIndeterminate _ => true
  | _ => false

/-- The monitor of a call that may make `most` attempts. -/
def watch (most : ℕ) : Monitor Watch ClobEvent where
  next w
    | .other gate => some { w with shut := w.shut && gate.permit.isNone }
    | .own e r =>
      if e.grants r ∧ most ≤ w.used ∨ e.findsActive r ∧ w.shut then none
      else (w.phase.next e r).map fun phase =>
        ⟨phase, w.used + (e.grants r).toNat, w.shut || e.shuts⟩

/-! ## The calls obey the monitor -/

namespace ClobState

/-- The log is read to its end, and the gate that the call closed is not active. -/
def Watched (most : ℕ) (s : ClobState) : Prop :=
  ∃ w, (watch most).reads {} s.log = some w ∧ (w.shut = true → s.gate.permit = none)

/-- The phase of the call and its number of authorizations. -/
def progress (most : ℕ) (s : ClobState) : Option (Phase × ℕ) :=
  ((watch most).reads {} s.log).map fun w => (w.phase, w.used)

/-- Steps of the others do not move the call. -/
theorem Watched.others {most : ℕ} {s s' : ClobState} (h : Watched most s) (ho : Others s s') :
    Watched most s' ∧ s'.progress most = s.progress most := by
  obtain ⟨w, hw, -⟩ := h
  obtain ⟨-, hlog⟩ := ho
  have hw' : (watch most).reads {} s'.log =
      some { w with shut := w.shut && s'.gate.permit.isNone } := by
    rw [hlog, Monitor.reads_snoc, hw]
    rfl
  refine ⟨⟨_, hw', fun hs => ?_⟩, ?_⟩
  · rw [Bool.and_eq_true, Option.isNone_iff_eq_none] at hs
    exact hs.2
  · rw [progress, progress, hw, hw']
    rfl

end ClobState

/-- The reading of a call in terms of its progress. -/
def watchLogic (most : ℕ) : clobWorld.Logic where
  inv := ClobState.Watched most
  rely _ s s' := s'.progress most = s.progress most
  refl _ _ := rfl
  trans h h' := h'.trans h
  crash _ h := h.elim

namespace Clob

open ClobState

variable {α β : Type} {most n : ℕ} {phase : Phase} {s : ClobState} {a : SubmissionAttemptAuthority}
  {Q : α → ClobState → Prop}

/-- The call is in the phase, with `n` authorizations used. -/
def At (most : ℕ) (phase : Phase) (n : ℕ) (s : ClobState) : Prop :=
  s.progress most = some (phase, n)

theorem shut_of_does {e : ClobAct} {r : e.Answer} {gate gate' : ProtocolSubmissionGate}
    (hd : gate.does e r gate') (hs : e.shuts = true) : gate'.permit = none := by
  cases e with
  | quarantine authority =>
    obtain rfl := hd
    unfold ProtocolSubmissionGate.quarantine
    cases gate.state <;> rfl
  | markIndeterminate authority =>
    obtain rfl := hd
    rfl
  | _ => cases hs

theorem gate_of_does {e : ClobAct} {r : e.Answer} {gate gate' : ProtocolSubmissionGate}
    (hd : gate.does e r gate') (hs : e.shuts = false) : gate' = gate := by
  cases e with
  | quarantine | markIndeterminate => cases hs
  | permit | admits => exact hd.2
  | _ => exact hd

/-- One action that the phase allows. -/
theorem safe_act {e : ClobAct} {k : e.Answer → Clob α} (h : At most phase n s)
    (hk : ∀ r, (e.grants r = true → n < most) ∧ ∃ phase', phase.next e r = some phase' ∧
      ∀ s', At most phase' (n + (e.grants r).toNat) s' → (watchLogic most).Safe () Q (k r) s') :
    (watchLogic most).Safe () Q (.act e k) s := by
  rintro s₁ hr ⟨w, hw, hshut⟩ r s₂ ⟨hgate, hlog⟩
  have hat : At most phase n s₁ := Eq.trans hr h
  rw [At, progress, hw] at hat
  obtain ⟨rfl, rfl⟩ := Prod.mk.inj (Option.some.inj hat)
  obtain ⟨hn, phase', hnext, hrest⟩ := hk r
  have hguard : ¬ (e.grants r ∧ most ≤ w.used ∨ e.findsActive r ∧ w.shut) := by
    rintro (⟨hg, hle⟩ | ⟨hf, hs⟩)
    · exact absurd (hn hg) (not_lt.2 hle)
    · cases e with
      | permit =>
        obtain ⟨rfl, -⟩ := hgate
        rw [hshut hs] at hf
        cases hf
      | _ => cases hf
  have hw' : (watch most).reads {} s₂.log =
      some ⟨phase', w.used + (e.grants r).toNat, w.shut || e.shuts⟩ := by
    rw [hlog, Monitor.reads_snoc, hw]
    simp only [watch, Option.bind_some, if_neg hguard, hnext, Option.map_some]
  refine ⟨⟨⟨_, hw', fun hs => ?_⟩, fun u hu => absurd rfl hu⟩, hrest s₂ ?_⟩
  · cases hshuts : e.shuts with
    | true => exact shut_of_does hgate hshuts
    | false =>
      rw [gate_of_does hgate hshuts]
      rw [hshuts, Bool.or_false] at hs
      exact hshut hs
  · rw [At, progress, hw']
    rfl

/-- One action that obtains no authorization. -/
theorem safe_step {e : ClobAct} {k : e.Answer → Clob α} (h : At most phase n s)
    (hg : ∀ r, e.grants r = false)
    (hk : ∀ r, ∃ phase', phase.next e r = some phase' ∧
      ∀ s', At most phase' n s' → (watchLogic most).Safe () Q (k r) s') :
    (watchLogic most).Safe () Q (.act e k) s := by
  refine safe_act h fun r => ⟨fun hr => ?_, ?_⟩
  · rw [hg r] at hr
    cases hr
  · rw [hg r]
    exact hk r

/-- One action that stays in the phase. -/
theorem safe_stay {e : ClobAct} {k : e.Answer → Clob α} (h : At most phase n s)
    (hg : ∀ r, e.grants r = false) (hp : ∀ r, phase.next e r = some phase)
    (hk : ∀ r s', At most phase n s' → (watchLogic most).Safe () Q (k r) s') :
    (watchLogic most).Safe () Q (.act e k) s :=
  safe_step h hg fun r => ⟨phase, hp r, hk r⟩

/-- Before its POST an attempt goes on, or it has failed for good. -/
def Tried (most : ℕ) (a : SubmissionAttemptAuthority) (n : ℕ) (result : Submitted α)
    (s : ClobState) : Prop :=
  At most (.trying a) n s ∨
    At most .over n s ∧ ∃ error, result = .error error ∧ error.isRateLimited = false

/-- After an attempt the call is over, unless the result is a rate limit. -/
def Ended (most n : ℕ) (result : Submitted α) (s : ClobState) : Prop :=
  (∃ a, At most (.trying a) n s) ∨ At most (.limited false) n s ∨
    At most .over n s ∧ result.isRateLimited = false

theorem Tried.ended {result : Submitted α} (h : Tried most a n result s) :
    Ended most n result s := by
  rcases h with h | ⟨h, error, rfl, hr⟩
  · exact .inl ⟨a, h⟩
  · exact .inr (.inr ⟨h, hr⟩)

theorem Tried.ended_error {error : ClobOperationError}
    (h : Tried most a n (.error error : Submitted α) s) :
    Ended most n (.error error : Submitted β) s := by
  rcases h with h | ⟨h, error', he, hr⟩
  · exact .inl ⟨a, h⟩
  · obtain rfl := Except.error.inj he
    exact .inr (.inr ⟨h, hr⟩)

theorem Tried.of_ok {x : α} (h : Tried most a n (.ok x) s) : At most (.trying a) n s := by
  rcases h with h | ⟨-, error, he, -⟩
  · exact h
  · cases he

/-- A refusal ends the attempt for good. -/
theorem safe_refuse {authority : AuthenticatedProtocolAuthority} {error : ClobOperationError}
    (h : At most (.trying a) n s ∨ At most .over n s) (hr : error.isRateLimited = false) :
    (watchLogic most).Safe () (Tried most a n (α := α)) (refuse authority error) s := by
  rcases h with h | h
  · refine safe_step h (fun _ => rfl) fun _ => ⟨.over, rfl, fun s h => ?_⟩
    exact .inr ⟨h, error, rfl, hr⟩
  · refine safe_stay h (fun _ => rfl) (fun _ => rfl) fun _ s h => ?_
    exact .inr ⟨h, error, rfl, hr⟩

theorem safe_checkClient {guard : AuthenticatedClientState} {permit : ProtocolSubmissionPermit}
    (h : At most (.trying a) n s) :
    (watchLogic most).Safe () (Tried most a n) (checkClient guard permit) s := by
  unfold checkClient
  cases guard.protocolAuthority with
  | none => exact .inl h
  | some authority =>
    refine safe_stay h (fun _ => rfl) (fun _ => rfl) fun version s h => ?_
    cases version with
    | error error => exact .inl h
    | ok sdkVersion =>
      dsimp only [Prog.bind]
      split_ifs
      · exact safe_refuse (.inl h) rfl
      · refine safe_step h (fun _ => rfl) ?_
        rintro (_ | _)
        · exact ⟨.over, rfl, fun s h => safe_refuse (.inr h) rfl⟩
        · exact ⟨.trying a, rfl, fun s h => .inl h⟩

theorem safe_submissionClient (h : At most (.trying a) n s) :
    (watchLogic most).Safe () (Tried most a n) submissionClient s := by
  refine safe_step h (fun _ => rfl) ?_
  rintro (_ | permit)
  · exact ⟨.over, rfl, fun s h => .inr ⟨h, _, rfl, rfl⟩⟩
  · refine ⟨.trying a, rfl, fun s h => ?_⟩
    refine safe_stay h (fun _ => rfl) (fun _ => rfl) fun guard s h => ?_
    refine (safe_checkClient h).bind fun result s hresult => ?_
    cases result with
    | error error =>
      rcases hresult with h | ⟨h, hr⟩
      · refine safe_stay h (fun _ => rfl) (fun _ => rfl) fun _ s h => ?_
        exact .inl h
      · refine safe_stay h (fun _ => rfl) (fun _ => rfl) fun _ s h => ?_
        obtain ⟨error', he, hr⟩ := hr
        exact .inr ⟨h, error', congrArg _ (Except.error.inj he), hr⟩
    | ok _ => exact .inl hresult.of_ok

theorem safe_checkAuthority {guard : AuthenticatedClientState} {permit : ProtocolSubmissionPermit}
    {orderVersion : ℕ} (h : At most (.trying a) n s) : (watchLogic most).Safe () (Tried most a n)
      (checkAuthority guard permit a orderVersion) s := by
  unfold checkAuthority
  cases guard.protocolAuthority with
  | none => exact .inl h
  | some authority =>
    refine safe_stay h (fun _ => rfl) (fun _ => rfl) fun version s h => ?_
    cases version with
    | error error => exact .inl h
    | ok beforeVersion =>
      dsimp only [Prog.bind]
      split_ifs
      · exact safe_refuse (.inl h) rfl
      · refine safe_step h (fun _ => rfl) ?_
        rintro (_ | _)
        · exact ⟨.over, rfl, fun s h => safe_refuse (.inr h) rfl⟩
        · refine ⟨.trying a, rfl, fun s h => ?_⟩
          refine safe_step h (fun _ => rfl) ?_
          rintro (_ | _)
          · exact ⟨.over, if_pos rfl, fun s h => safe_refuse (.inr h) rfl⟩
          · exact ⟨.trying a, if_pos rfl, fun s h => .inl h⟩

/-- The checks after the response leave the call where the response left it. -/
theorem safe_settle {permit : ProtocolSubmissionPermit} {beforeVersion : ℕ}
    {response : Submitted PostOrderOutcome}
    (h : At most (.limited false) n s ∨ At most .over n s ∧ response.isRateLimited = false) :
    (watchLogic most).Safe () (Ended most n) (settle permit beforeVersion response) s := by
  rcases h with h | ⟨h, hr⟩
  · refine safe_stay h (fun _ => rfl) (fun _ => rfl) fun afterVersion s h => ?_
    refine safe_step h (fun _ => rfl) fun matched => ⟨_, rfl, fun s h => ?_⟩
    dsimp only [Prog.bind]
    split_ifs with hcheck
    · have hp : (Phase.limited !matched).next (.quarantine permit.authority) () =
          some (.limited false) := by cases matched <;> rfl
      refine safe_step h (fun _ => rfl) fun _ => ⟨.limited false, hp, fun s h => ?_⟩
      exact .inr (.inl h)
    · rw [not_or, not_or, Bool.not_eq_false] at hcheck
      rw [hcheck.2.2] at h
      exact .inr (.inl h)
  · refine safe_stay h (fun _ => rfl) (fun _ => rfl) fun afterVersion s h => ?_
    refine safe_stay h (fun _ => rfl) (fun _ => rfl) fun matched s h => ?_
    dsimp only [Prog.bind]
    split_ifs
    · exact safe_stay h (fun _ => rfl) (fun _ => rfl) fun _ s h => .inr (.inr ⟨h, hr⟩)
    · exact .inr (.inr ⟨h, hr⟩)

theorem safe_indeterminate {permit : ProtocolSubmissionPermit} (h : At most .over n s) :
    (watchLogic most).Safe () (Ended most n) (indeterminate permit) s :=
  safe_stay h (fun _ => rfl) (fun _ => rfl) fun _ _ h => .inr (.inr ⟨h, rfl⟩)

/-- What is made of the reply, when the phase is that of the reply. -/
theorem safe_sortReply {permit : ProtocolSubmissionPermit} {beforeVersion : ℕ} {reply : PostReply}
    (h : At most (if reply.RateLimited then .limited false else .over) n s) :
    (watchLogic most).Safe () (Ended most n) (sortReply permit beforeVersion reply) s := by
  rw [sortReply_eq]
  split_ifs with hresult
  · refine safe_indeterminate ?_
    rwa [if_neg] at h
    rw [PostReply.RateLimited, hresult]
    exact Bool.false_ne_true
  · refine safe_settle ?_
    split_ifs at h with hr
    · exact .inl h
    · exact .inr ⟨h, Bool.eq_false_iff.2 hr⟩

theorem safe_postSigned {permit : ProtocolSubmissionPermit} {signed : SignedOrder}
    {beforeVersion : ℕ} (h : At most (.trying a) n s) : (watchLogic most).Safe () (Ended most n)
      (postSigned permit a signed beforeVersion) s := by
  refine safe_step h (fun _ => rfl) ?_
  rintro (_ | _)
  · refine ⟨.over, if_pos rfl, fun s h => ?_⟩
    exact (safe_refuse (a := a) (.inr h) rfl).mono fun _ _ h => h.ended
  · refine ⟨.sent, if_pos rfl, fun s h => ?_⟩
    refine safe_step h (fun _ => rfl) fun reply => ⟨_, rfl, fun s h => ?_⟩
    exact safe_sortReply h

theorem safe_postPreparedSdk {guard : AuthenticatedClientState} {permit : ProtocolSubmissionPermit}
    {signed : SignedOrder} (h : At most (.trying a) n s) : (watchLogic most).Safe ()
      (Ended most n) (postPreparedSdk signed guard permit a) s := by
  refine (safe_checkAuthority h).bind fun result s hresult => ?_
  cases result with
  | error error => exact hresult.ended_error
  | ok beforeVersion => exact safe_postSigned hresult.of_ok

theorem safe_signAndPostSdk {guard : AuthenticatedClientState} {permit : ProtocolSubmissionPermit}
    {signable : SignableOrder} (h : At most (.trying a) n s) : (watchLogic most).Safe ()
      (Ended most n) (signAndPostSdk signable guard permit a) s := by
  refine (safe_checkAuthority h).bind fun result s hresult => ?_
  cases result with
  | error error => exact hresult.ended_error
  | ok beforeVersion =>
    refine safe_stay hresult.of_ok (fun _ => rfl) (fun _ => rfl) fun signed s h => ?_
    cases signed with
    | error error => exact .inl ⟨a, h⟩
    | ok signed =>
      refine safe_step h (fun _ => rfl) ?_
      rintro (_ | _)
      · refine ⟨.over, rfl, fun s h => ?_⟩
        exact (safe_refuse (a := a) (.inr h) rfl).mono fun _ _ h => h.ended
      · exact ⟨.trying a, rfl, fun s h => safe_postSigned h⟩

/-- A post that starts with its attempt ends it. -/
def PostSafe (most n : ℕ) (post : Post) : Prop :=
  ∀ {guard permit a s}, At most (.trying a) n s →
    (watchLogic most).Safe () (Ended most n) (post guard permit a) s

theorem safe_buildAndPost {order : LimitOrder} : PostSafe most n (buildAndPost order) := by
  intro guard permit a s h
  refine safe_stay h (fun _ => rfl) (fun _ => rfl) fun signable s h => ?_
  cases signable with
  | error error => exact .inl ⟨a, h⟩
  | ok signable => exact safe_signAndPostSdk h

theorem safe_postAndMatch {order : PreparedClobOrder} : PostSafe most n (postAndMatch order) := by
  intro guard permit a s h
  refine (safe_postPreparedSdk h).bind fun result s hresult => ?_
  rcases hresult with h | h | ⟨h, hr⟩
  · exact .inl h
  · exact .inr (.inl h)
  · exact .inr (.inr ⟨h, isRateLimited_matchOrderId hr⟩)

theorem safe_revalidateAndPost {post : Post} (hpost : PostSafe most n post) :
    PostSafe most n (revalidateAndPost post) := by
  intro guard permit a s h
  refine safe_step h (fun _ => rfl) ?_
  rintro (_ | _)
  · refine ⟨.over, if_pos rfl, fun s h => ?_⟩
    exact (safe_refuse (a := a) (.inr h) rfl).mono fun _ _ h => h.ended
  · exact ⟨.trying a, if_pos rfl, fun s h => hpost h⟩

/-- The guards are dropped in any phase that ends an attempt. -/
theorem safe_release {e : ClobAct} (he : e = .dropClient ∨ e = .unlockSubmission)
    {result : Submitted α} (h : Ended most n result s) :
    (watchLogic most).Safe () (Ended most n) (.act e fun _ => .ret result) s := by
  have hg : ∀ r, e.grants r = false := by rcases he with rfl | rfl <;> exact fun _ => rfl
  rcases h with ⟨a, h⟩ | h | ⟨h, hr⟩
  · refine safe_stay h hg ?_ fun _ s h => .inl ⟨a, h⟩
    rcases he with rfl | rfl <;> exact fun _ => rfl
  · refine safe_stay h hg ?_ fun _ s h => .inr (.inl h)
    rcases he with rfl | rfl <;> exact fun _ => rfl
  · refine safe_stay h hg ?_ fun _ s h => .inr (.inr ⟨h, hr⟩)
    rcases he with rfl | rfl <;> exact fun _ => rfl

theorem safe_underGuard {post : Post} (hpost : PostSafe most n post) (h : At most (.trying a) n s) :
    (watchLogic most).Safe () (Ended most n) (underGuard post a) s := by
  refine (safe_submissionClient h).bind fun result s hresult => ?_
  rcases result with error | ⟨guard, permit⟩
  · exact hresult.ended_error
  · refine (safe_revalidateAndPost hpost hresult.of_ok).bind fun result s h => ?_
    exact safe_release (.inl rfl) h

theorem safe_attemptFn {post : Post} (hpost : PostSafe most n post) (h : At most (.granted a) n s) :
    (watchLogic most).Safe () (Ended most n) (attemptFn post a) s := by
  refine safe_step h (fun _ => rfl) fun _ => ⟨.trying a, rfl, fun s h => ?_⟩
  refine (safe_underGuard hpost h).bind fun result s h => ?_
  exact safe_release (.inr rfl) h

/-- The loop from its attempt `attempt`: another attempt comes after a rate limit, while the gate
    is found active and the policy allows it. -/
theorem safe_retryPostOrder {policy : RetryPolicy} {post : Post}
    (hpost : ∀ n, PostSafe (max 1 policy.maxAttempts) n post) (attempt : ℕ) :
    ∀ s, At (max 1 policy.maxAttempts) .ready attempt s → attempt < max 1 policy.maxAttempts →
      (watchLogic (max 1 policy.maxAttempts)).Safe () (fun _ _ => True)
        (retryPostOrder policy retryAuthorityActive (attemptFn post) (attempt + 1)) s := by
  induction hm : policy.maxAttempts - attempt using Nat.strong_induction_on
    generalizing attempt with
  | _ m ih =>
    intro s h hlt
    rw [retryPostOrder]
    refine safe_act h ?_
    rintro (_ | a)
    · exact ⟨by simp [ClobAct.grants], .over, rfl, fun _ _ => trivial⟩
    · refine ⟨fun _ => hlt, .granted a, rfl, fun s h => ?_⟩
      refine (safe_attemptFn (hpost _) h).bind fun result s hresult => ?_
      rcases result with error | outcome
      · cases error with
        | rateLimited d =>
          have hsleep : ∀ {phase s}, phase.next (.sleep (policy.backoffFor (attempt + 1) d)) () =
              some .ready → At (max 1 policy.maxAttempts) phase (attempt + 1) s →
              (watchLogic (max 1 policy.maxAttempts)).Safe () (fun _ _ => True)
                (if _h : policy.shouldRetry (attempt + 1) then do
                  step (.sleep (policy.backoffFor (attempt + 1) d))
                  retryPostOrder policy retryAuthorityActive (attemptFn post) (attempt + 1 + 1)
                else return .error (.rateLimited d)) s := by
            intro phase s hp h
            split_ifs with hretry
            · refine safe_step h (fun _ => rfl) fun _ => ⟨.ready, hp, fun s h => ?_⟩
              have hlt' : attempt + 1 < policy.maxAttempts := of_decide_eq_true hretry
              exact ih _ (by omega) (attempt + 1) rfl s h (by omega)
            · trivial
          rcases hresult with ⟨a, h⟩ | h | ⟨-, hr⟩
          · refine safe_step h (fun _ => rfl) ?_
            rintro (_ | permit)
            · exact ⟨.over, rfl, fun _ _ => trivial⟩
            · exact ⟨.trying a, rfl, fun s h => hsleep rfl h⟩
          · refine safe_step h (fun _ => rfl) ?_
            rintro (_ | permit)
            · exact ⟨.over, rfl, fun _ _ => trivial⟩
            · exact ⟨.retrying, rfl, fun s h => hsleep rfl h⟩
          · cases hr
        | _ => trivial
      · trivial

theorem safe_submitLimit {policy : RetryPolicy} {input : OrderInput} {side : ClobSide}
    {orderType : Option OrderType} {postOnly : Bool}
    (h : At (max 1 policy.maxAttempts) .ready 0 s) :
    (watchLogic (max 1 policy.maxAttempts)).Safe () (fun _ _ => True)
      (submitLimit policy input side orderType postOnly) s := by
  unfold submitLimit
  split
  · exact safe_retryPostOrder (fun _ => safe_buildAndPost) 0 s h (by omega)
  · trivial

theorem safe_body (policy : RetryPolicy) (call : SubmitCall)
    (h : At (max 1 policy.maxAttempts) .ready 0 s) :
    (watchLogic (max 1 policy.maxAttempts)).Safe () (fun _ _ => True) (call.body policy) s := by
  cases call with
  | fak | gtcSell | gtcBuy =>
    refine (safe_submitLimit h).bind ?_
    exact fun _ _ _ => trivial
  | prepared order =>
    refine (safe_retryPostOrder (fun _ => safe_postAndMatch) 0 s h (by omega)).bind ?_
    exact fun _ _ _ => trivial

end Clob

/-- Every run of every call obeys the monitor. -/
theorem SubmissionRun.watched {policy : RetryPolicy} {call : SubmitCall}
    {gate : ProtocolSubmissionGate} {p : Clob (Submitted (Option String))} {s : ClobState}
    (h : SubmissionRun (call.body policy) gate p s) :
    ∃ w, (watch (max 1 policy.maxAttempts)).reads {} s.log = some w := by
  have hsafe := Clob.safe_body policy (s := { gate }) call rfl
  have h₀ : ClobState.Watched (max 1 policy.maxAttempts) { gate } := ⟨{}, rfl, nofun⟩
  have hrun := World.Logic.Safe.run (L := watchLogic (max 1 policy.maxAttempts))
    (fun _ _ h ho => ClobState.Watched.others h ho) (fun _ _ _ _ _ => trivial) h h₀ hsafe
  obtain ⟨⟨w, hw, -⟩, -⟩ := hrun
  exact ⟨w, hw⟩

/-! ## What the monitor refuses -/

/-- An authorization is asked for, an attempt or its POST begins, or the POST is answered. -/
def ClobEvent.IsAttempt : ClobEvent → Prop
  | .own .authorize _ | .own .lockSubmission _ | .own (.beginPost ..) _ | .own (.awaitPost ..) _ =>
    True
  | _ => False

/-- The event is an authorization that was obtained. -/
def ClobEvent.grants : ClobEvent → Bool
  | .own e r => e.grants r
  | .other _ => false

/-- The event asks for an authorization or begins a POST. -/
def ClobEvent.Asks : ClobEvent → Prop
  | .own .authorize _ | .own (.beginPost ..) _ => True
  | _ => False

/-- What a phase comes from. -/
def Phase.Follows (phase : Phase) (e : ClobAct) (r : e.Answer) : Phase → Prop
  | .granted a => ClobEvent.own e r = .own .authorize (some a)
  | .trying a => (phase = .granted a ∨ phase = .trying a) ∧ ¬ (ClobEvent.own e r).Asks
  | .limited _ => (∃ permit signed reply,
      ClobEvent.own e r = .own (.awaitPost permit signed) reply ∧ reply.RateLimited) ∨
        (∃ stale, phase = .limited stale) ∧ ¬ (ClobEvent.own e r).IsAttempt
  | _ => True

section
variable {phase phase' : Phase} {e : ClobAct} {r : e.Answer} {a : SubmissionAttemptAuthority}

theorem Phase.next_follows (h : phase.next e r = some phase') : phase.Follows e r phase' := by
  cases phase with
  | ready =>
    cases e with
    | authorize =>
      cases r with
      | some attempt =>
        cases h
        rfl
      | none =>
        cases h
        trivial
    | _ => cases h
  | granted attempt =>
    cases e with
    | lockSubmission =>
      cases h
      exact ⟨.inl rfl, id⟩
    | _ => cases h
  | trying attempt =>
    cases e with
    | permit | admits =>
      cases r with
      | _ =>
        cases h
        first | trivial | exact ⟨.inr rfl, id⟩
    | revalidate attempt' | beginPost attempt' =>
      obtain ⟨rfl, hnext⟩ := Option.ite_none_right_eq_some.1 h
      cases r with
      | _ =>
        cases hnext
        first | trivial | exact ⟨.inr rfl, id⟩
    | quarantine | sleep =>
      cases h
      trivial
    | readClient | dropClient | unlockSubmission | version | build | sign =>
      cases h
      exact ⟨.inr rfl, id⟩
    | _ => cases h
  | sent =>
    cases e with
    | awaitPost permit signed =>
      obtain rfl := Option.some.inj h
      by_cases hr : PostReply.RateLimited r
      · rw [if_pos hr]
        exact .inl ⟨permit, signed, r, rfl, hr⟩
      · rw [if_neg hr]
        trivial
    | _ => cases h
  | limited stale =>
    cases e with
    | permit =>
      cases stale with
      | true => cases h
      | false =>
        cases r with
        | _ =>
          cases h
          trivial
    | version | admits | dropClient | unlockSubmission =>
      cases stale with
      | true => cases h
      | false =>
        cases h
        exact .inr ⟨⟨_, rfl⟩, id⟩
    | quarantine =>
      cases stale with
      | _ =>
        cases h
        exact .inr ⟨⟨_, rfl⟩, id⟩
    | _ => cases stale <;> cases h
  | retrying =>
    cases e with
    | sleep =>
      cases h
      trivial
    | _ => cases h
  | _ =>
    cases e with
    | version | admits | quarantine | markIndeterminate | dropClient | unlockSubmission =>
      cases h
      trivial
    | _ => cases h

theorem Phase.next_over (h : Phase.over.next e r = some phase') :
    phase' = .over ∧ ¬ (ClobEvent.own e r).IsAttempt := by
  cases e with
  | version | admits | quarantine | markIndeterminate | dropClient | unlockSubmission =>
    cases h
    exact ⟨rfl, id⟩
  | _ => cases h

theorem Phase.next_sent (h : Phase.sent.next e r = some phase') : ∃ permit signed reply,
    ClobEvent.own e r = .own (.awaitPost permit signed) reply := by
  cases e with
  | awaitPost permit signed => exact ⟨permit, signed, r, rfl⟩
  | _ => cases h

theorem Phase.next_awaitPost {permit : ProtocolSubmissionPermit} {signed : SignedOrder}
    {reply : PostReply} (h : phase.next (.awaitPost permit signed) reply = some phase')
    (hr : ¬ reply.RateLimited) : phase' = .over := by
  cases phase with
  | sent =>
    obtain rfl := Option.some.inj h
    exact if_neg hr
  | limited stale => cases stale <;> cases h
  | _ => cases h

theorem Phase.next_lockSubmission (h : phase.next .lockSubmission () = some phase') :
    ∃ a, phase = .granted a := by
  cases phase with
  | granted a => exact ⟨a, rfl⟩
  | limited stale => cases stale <;> cases h
  | _ => cases h

theorem Phase.next_beginPost {authority : AuthenticatedProtocolAuthority} {signed : SignedOrder}
    {ok : Bool} (h : phase.next (.beginPost a authority signed) ok = some phase') :
    phase = .trying a ∧ (ok = true → phase' = .sent) := by
  cases phase with
  | trying a' =>
    obtain ⟨rfl, hnext⟩ := Option.ite_none_right_eq_some.1 h
    refine ⟨rfl, ?_⟩
    rintro rfl
    exact (Option.some.inj hnext).symm
  | limited stale => cases stale <;> cases h
  | _ => cases h

theorem Phase.next_unauthorized (h : phase.next .authorize none = some phase') :
    phase' = .over := by
  cases phase with
  | ready => exact (Option.some.inj h).symm
  | limited stale => cases stale <;> cases h
  | _ => cases h

theorem Phase.next_closed (h : phase.next .permit none = some phase') : phase' = .over := by
  cases phase with
  | trying a => exact (Option.some.inj h).symm
  | limited stale =>
    cases stale with
    | true => cases h
    | false => exact (Option.some.inj h).symm
  | _ => cases h

theorem Phase.next_stale {permit : ProtocolSubmissionPermit}
    (h : phase.next (.admits permit) false = some phase') :
    phase' = .over ∨ phase' = .limited true ∧ phase = .limited false := by
  cases phase with
  | limited stale =>
    cases stale with
    | true => cases h
    | false => exact .inr ⟨(Option.some.inj h).symm, rfl⟩
  | _ => first | exact .inl (Option.some.inj h).symm | cases h

end

variable {most : ℕ} {v w : Watch} {log : List ClobEvent}

theorem watch_own {e : ClobAct} {r : e.Answer} (h : (watch most).next v (.own e r) = some w) :
    v.phase.next e r = some w.phase ∧ w.used = v.used + (e.grants r).toNat ∧
      w.shut = (v.shut || e.shuts) ∧ (e.grants r = true → v.used < most) ∧
      ¬ (e.findsActive r = true ∧ v.shut = true) := by
  simp only [watch] at h
  split_ifs at h with hguard
  obtain ⟨phase, hp, rfl⟩ := Option.map_eq_some_iff.1 h
  rw [not_or] at hguard
  exact ⟨hp, rfl, rfl, fun hg => not_le.1 fun hle => hguard.1 ⟨hg, hle⟩, hguard.2⟩

theorem watch_other {gate : ProtocolSubmissionGate}
    (h : (watch most).next v (.other gate) = some w) :
    w = { v with shut := v.shut && gate.permit.isNone } :=
  (Option.some.inj h).symm

/-- A call that is over makes no further attempt. -/
theorem over_refuses (hv : v.phase = .over) (h : (watch most).reads v log = some w) :
    ∀ e ∈ log, ¬ e.IsAttempt := by
  refine Monitor.reads_refuses (P := fun v => v.phase = .over) (E := fun _ => True) ?_ hv h
    fun _ _ => trivial
  rintro v (⟨e, r⟩ | gate) v' hp - hnext
  · have hphase := (watch_own hnext).1
    rw [hp] at hphase
    exact (Phase.next_over hphase).symm
  · rw [watch_other hnext]
    exact ⟨id, hp⟩

/-- A reply that is no rate limit ends the attempts. -/
theorem over_of_reply {permit : ProtocolSubmissionPermit} {signed : SignedOrder}
    {reply : PostReply} (h : (watch most).next v (.own (.awaitPost permit signed) reply) = some w)
    (hr : ¬ reply.RateLimited) : w.phase = .over :=
  Phase.next_awaitPost (watch_own h).1 hr

/-- A POST that has begun is not followed by another one before a rate limit. -/
theorem sent_keeps (hv : v.phase = .sent) (h : (watch most).reads v log = some w)
    (hr : ∀ permit signed reply, .own (.awaitPost permit signed) reply ∈ log →
      ¬ reply.RateLimited) : w.phase = .sent ∨ w.phase = .over := by
  refine Monitor.reads_keeps (P := fun v => v.phase = .sent ∨ v.phase = .over)
    (E := fun e => ∀ permit signed reply, e = .own (.awaitPost permit signed) reply →
      ¬ reply.RateLimited) ?_ (.inl hv) h ?_
  · rintro v (⟨e, r⟩ | gate) v' hp he hnext
    · have hphase := (watch_own hnext).1
      rcases hp with hp | hp
      · rw [hp] at hphase
        obtain ⟨permit, signed, reply, hreply⟩ := Phase.next_sent hphase
        cases hreply
        exact .inr (over_of_reply hnext (he permit signed reply rfl))
      · rw [hp] at hphase
        exact .inr (Phase.next_over hphase).1
    · rw [watch_other hnext]
      exact hp
  · rintro e he permit signed reply rfl
    exact hr permit signed reply he

/-- The monitor counts the authorizations, and bounds them. -/
theorem used_eq : ∀ {w}, (watch most).reads {} log = some w →
    w.used = log.countP ClobEvent.grants ∧ w.used ≤ most := by
  induction log using List.reverseRecOn with
  | nil =>
    rintro w ⟨⟩
    simp
  | append_singleton log e ih =>
    intro w h
    rw [Monitor.reads_snoc] at h
    obtain ⟨v, hv, hnext⟩ := Option.bind_eq_some_iff.1 h
    obtain ⟨hcount, hle⟩ := ih hv
    rw [List.countP_append, List.countP_singleton, ← hcount]
    cases e with
    | own e r =>
      obtain ⟨-, hused, -, hmost, -⟩ := watch_own hnext
      rw [hused, ClobEvent.grants]
      cases hg : e.grants r with
      | true => exact ⟨rfl, hmost hg⟩
      | false => exact ⟨rfl, hle⟩
    | other gate =>
      rw [watch_other hnext]
      exact ⟨rfl, hle⟩

/-- A granted call has only just been authorized. -/
theorem granted_since {a : SubmissionAttemptAuthority}
    (h : (watch most).reads {} log = some w) (hw : w.phase = .granted a) :
    ∃ before others : List ClobEvent, log = before ++ .own .authorize (some a) :: others ∧
      ∀ e ∈ others, ∃ gate, e = .other gate := by
  have hsince := Monitor.reads_since (P := fun w => w.phase = .granted a)
    (m := (· = .own .authorize (some a))) (k := fun e => ∃ gate, e = .other gate) (by simp) ?_ h hw
  · obtain ⟨before, e, others, rfl, rfl, hothers⟩ := hsince
    exact ⟨before, others, rfl, hothers⟩
  · rintro v (⟨e, r⟩ | gate) v' hnext hv'
    · have hfollows := Phase.next_follows (watch_own hnext).1
      rw [hv'] at hfollows
      exact .inl hfollows
    · rw [watch_other hnext] at hv'
      exact .inr ⟨hv', gate, rfl⟩

/-- An attempt holds the last authorization, and has not begun a POST. -/
theorem trying_since {a : SubmissionAttemptAuthority}
    (h : (watch most).reads {} log = some w) (hw : w.phase = .trying a) :
    ∃ before since : List ClobEvent, log = before ++ .own .authorize (some a) :: since ∧
      ∀ e ∈ since, ¬ e.Asks := by
  have hsince := Monitor.reads_since (P := fun w => w.phase = .granted a ∨ w.phase = .trying a)
    (m := (· = .own .authorize (some a))) (k := fun e => ¬ e.Asks) (by simp) ?_ h (.inr hw)
  · obtain ⟨before, e, since, rfl, rfl, hsince⟩ := hsince
    exact ⟨before, since, rfl, hsince⟩
  · rintro v (⟨e, r⟩ | gate) v' hnext hv'
    · have hfollows := Phase.next_follows (watch_own hnext).1
      rcases hv' with hv' | hv'
      · rw [hv'] at hfollows
        exact .inl hfollows
      · rw [hv'] at hfollows
        exact .inr hfollows
    · rw [watch_other hnext] at hv'
      exact .inr ⟨hv', id⟩

/-- A rate limit is the last that happened to a limited attempt. -/
theorem limited_since {stale : Bool} (h : (watch most).reads {} log = some w)
    (hw : w.phase = .limited stale) : ∃ before permit signed reply since,
      log = before ++ .own (.awaitPost permit signed) reply :: since ∧ reply.RateLimited ∧
        ∀ e ∈ since, ¬ e.IsAttempt := by
  have hsince := Monitor.reads_since (P := fun w => ∃ stale, w.phase = .limited stale)
    (m := fun e => ∃ permit signed reply, e = .own (.awaitPost permit signed) reply ∧
      reply.RateLimited) (k := fun e => ¬ e.IsAttempt) (by simp) ?_ h ⟨stale, hw⟩
  · obtain ⟨before, e, since, rfl, ⟨permit, signed, reply, rfl, hr⟩, hsince⟩ := hsince
    exact ⟨before, permit, signed, reply, since, rfl, hr, hsince⟩
  · rintro v (⟨e, r⟩ | gate) v' hnext ⟨stale, hv'⟩
    · have hfollows := Phase.next_follows (watch_own hnext).1
      rwa [hv'] at hfollows
    · rw [watch_other hnext] at hv'
      exact .inr ⟨⟨stale, hv'⟩, id⟩

/-- After a rate limit the permit was found stale, or the call has closed the gate since. -/
def Watch.Stale (v : Watch) : Prop :=
  v.phase = .limited true ∨ v.shut = true ∧ (v.phase = .limited false ∨ v.phase = .over)

theorem Watch.Stale.own {e : ClobAct} {r : e.Answer} (hv : v.Stale)
    (h : (watch most).next v (.own e r) = some w) :
    ¬ (ClobEvent.own e r).IsAttempt ∧ w.Stale := by
  obtain ⟨hphase, -, hshut, -, hfinds⟩ := watch_own h
  rcases hv with hv | ⟨hs, hv⟩
  · rw [hv] at hphase
    cases e with
    | quarantine authority =>
      obtain hw := Option.some.inj hphase
      exact ⟨id, .inr ⟨by rw [hshut]; simp [ClobAct.shuts], .inl hw.symm⟩⟩
    | _ => cases hphase
  · rw [hs, Bool.true_or] at hshut
    rcases hv with hv | hv
    · rw [hv] at hphase
      cases e with
      | permit =>
        cases r with
        | some permit => exact absurd ⟨rfl, hs⟩ hfinds
        | none => exact ⟨id, .inr ⟨hshut, .inr (Option.some.inj hphase).symm⟩⟩
      | admits permit =>
        have hw := Option.some.inj hphase
        cases r with
        | true => exact ⟨id, .inr ⟨hshut, .inl hw.symm⟩⟩
        | false => exact ⟨id, .inl hw.symm⟩
      | version | quarantine | dropClient | unlockSubmission =>
        exact ⟨id, .inr ⟨hshut, .inl (Option.some.inj hphase).symm⟩⟩
      | _ => cases hphase
    · rw [hv] at hphase
      cases e with
      | version | admits | quarantine | markIndeterminate | dropClient | unlockSubmission =>
        exact ⟨id, .inr ⟨hshut, .inr (Option.some.inj hphase).symm⟩⟩
      | _ => cases hphase

/-- A call that found its permit stale after a rate limit makes no further attempt, unless another
    task leaves the gate active. -/
theorem stale_refuses (hv : v.phase = .limited true) (h : (watch most).reads v log = some w)
    (hg : ∀ gate, .other gate ∈ log → gate.permit = none) : ∀ e ∈ log, ¬ e.IsAttempt := by
  refine Monitor.reads_refuses (P := Watch.Stale)
    (E := fun e => ∀ gate, e = .other gate → gate.permit = none) ?_ (.inl hv) h ?_
  · rintro v (⟨e, r⟩ | gate) v' hp he hnext
    · exact hp.own hnext
    · refine ⟨id, ?_⟩
      rw [watch_other hnext, he gate rfl, Option.isNone_none, Bool.and_true]
      exact hp
  · rintro e he gate rfl
    exact hg gate he

/-! ## At most one order -/

/-- What the events of one call obey. -/
structure AtMostOnce (policy : RetryPolicy) (log : List ClobEvent) : Prop where
  /-- a POST that was accepted or may have been is the last one, and the only one -/
  last : ∀ before permit signed reply after,
    log = before ++ .own (.awaitPost permit signed) reply :: after → ¬ reply.Harmless →
      (∀ e ∈ after, ¬ e.IsAttempt) ∧ ∀ permit' signed' reply',
        .own (.awaitPost permit' signed') reply' ∈ before → reply'.Harmless ∧ reply'.RateLimited
  /-- another POST begins only after a rate limit -/
  retried : ∀ before a authority signed mid a' authority' signed' ok after,
    log = before ++ .own (.beginPost a authority signed) true ::
      (mid ++ .own (.beginPost a' authority' signed') ok :: after) →
        ∃ permit signed reply, .own (.awaitPost permit signed) reply ∈ mid ∧ reply.RateLimited
  attempts : log.countP ClobEvent.grants ≤ max 1 policy.maxAttempts
  /-- an attempt starts right after its authorization -/
  fresh : ∀ before after, log = before ++ .own .lockSubmission () :: after →
    ∃ earlier a others, before = earlier ++ .own .authorize (some a) :: others ∧
      ∀ e ∈ others, ∃ gate, e = .other gate
  /-- a POST begins under the last authorization, for the first time -/
  authorized : ∀ before a authority signed ok after,
    log = before ++ .own (.beginPost a authority signed) ok :: after →
      ∃ earlier since, before = earlier ++ .own .authorize (some a) :: since ∧
        ∀ e ∈ since, ¬ e.Asks
  unauthorized : ∀ before after, log = before ++ .own .authorize none :: after →
    ∀ e ∈ after, ¬ e.IsAttempt
  closed : ∀ before after, log = before ++ .own .permit none :: after →
    ∀ e ∈ after, ¬ e.IsAttempt
  /-- a permit that does not match ends the attempts, but for one case: it was found after a rate
      limit, and another task has left the gate active since -/
  stale : ∀ before permit after e, log = before ++ .own (.admits permit) false :: after →
    e ∈ after → e.IsAttempt →
      (∃ gate, .other gate ∈ after ∧ gate.permit ≠ none) ∧
        ∃ earlier permit signed reply since,
          before = earlier ++ .own (.awaitPost permit signed) reply :: since ∧
            reply.RateLimited ∧ ∀ e ∈ since, ¬ e.IsAttempt

/-- One call of `submit_fak`, `submit_gtc_buy`, `submit_gtc_sell` or `submit_prepared` has at most
    one POST that is accepted or whose acceptance is unknown, and makes no attempt after it, after
    a refused authorization or after it found the gate closed. -/
theorem at_most_once {policy : RetryPolicy} {call : SubmitCall} {gate : ProtocolSubmissionGate}
    {p : Clob (Submitted (Option String))} {s : ClobState}
    (h : SubmissionRun (call.body policy) gate p s) : AtMostOnce policy s.log := by
  obtain ⟨w, hw⟩ := h.watched
  generalize s.log = log at hw
  constructor
  case last =>
    rintro before permit signed reply after rfl hr
    obtain ⟨v, v', hv, hnext, hafter⟩ := Monitor.reads_split hw
    refine ⟨over_refuses (over_of_reply hnext (PostReply.not_rateLimited hr)) hafter, ?_⟩
    intro permit' signed' reply' hmem
    have hlimited : reply'.RateLimited := by
      by_contra hr'
      obtain ⟨b, c, rfl⟩ := List.append_of_mem hmem
      rw [List.append_assoc] at hw
      obtain ⟨u, u', -, hnext', hrest⟩ := Monitor.reads_split hw
      exact over_refuses (over_of_reply hnext' hr') hrest _
        (List.mem_append_right _ List.mem_cons_self) trivial
    exact ⟨by_contra fun hh => PostReply.not_rateLimited hh hlimited, hlimited⟩
  case retried =>
    rintro before a authority signed mid a' authority' signed' ok after rfl
    obtain ⟨v, v', -, hbegin, hrest⟩ := Monitor.reads_split hw
    obtain ⟨u, u', hmid, hbegin', -⟩ := Monitor.reads_split hrest
    have hsent : v'.phase = .sent := (Phase.next_beginPost (watch_own hbegin).1).2 rfl
    by_contra hnone
    have hu := sent_keeps hsent hmid fun permit signed reply hm hr =>
      hnone ⟨permit, signed, reply, hm, hr⟩
    have htrying := (Phase.next_beginPost (watch_own hbegin').1).1
    rcases hu with hu | hu
    · rw [hu] at htrying
      cases htrying
    · rw [hu] at htrying
      cases htrying
  case attempts =>
    obtain ⟨hcount, hle⟩ := used_eq hw
    exact hcount ▸ hle
  case fresh =>
    rintro before after rfl
    obtain ⟨v, v', hv, hnext, -⟩ := Monitor.reads_split hw
    obtain ⟨a, ha⟩ := Phase.next_lockSubmission (watch_own hnext).1
    obtain ⟨earlier, others, hbefore, hothers⟩ := granted_since hv ha
    exact ⟨earlier, a, others, hbefore, hothers⟩
  case authorized =>
    rintro before a authority signed ok after rfl
    obtain ⟨v, v', hv, hnext, -⟩ := Monitor.reads_split hw
    exact trying_since hv (Phase.next_beginPost (watch_own hnext).1).1
  case unauthorized =>
    rintro before after rfl
    obtain ⟨v, v', -, hnext, hafter⟩ := Monitor.reads_split hw
    exact over_refuses (Phase.next_unauthorized (watch_own hnext).1) hafter
  case closed =>
    rintro before after rfl
    obtain ⟨v, v', -, hnext, hafter⟩ := Monitor.reads_split hw
    exact over_refuses (Phase.next_closed (watch_own hnext).1) hafter
  case stale =>
    rintro before permit after e rfl he hattempt
    obtain ⟨v, v', hv, hnext, hafter⟩ := Monitor.reads_split hw
    rcases Phase.next_stale (watch_own hnext).1 with hover | ⟨hstale, hlimited⟩
    · exact absurd hattempt (over_refuses hover hafter e he)
    · refine ⟨?_, limited_since hv hlimited⟩
      by_contra hnone
      refine stale_refuses hstale hafter (fun gate hg => ?_) e he hattempt
      by_contra hne
      exact hnone ⟨gate, hg, hne⟩

/-! ## A rate limit, then an accepted order -/

def sampleRateLimit : PostReply := .answered 429 "" none

/-- A submission of `sampleOrder` that was accepted in its second attempt. -/
def sampleRetried : List ClobEvent :=
  sampleEvents sampleRateLimit ++ [.own .permit (some samplePermit),
    .own (.sleep (.fromMillis 250)) ()] ++ sampleEvents (sampleAccepted "0xA")

theorem sampleRateLimit_result : sampleRateLimit.result = .error (.rateLimited none) := by
  decide +kernel

/-- The run of `sampleRetried`. -/
theorem at_most_once_retried : ∃ s : ClobState, s.log = sampleRetried ∧
    AtMostOnce .default s.log := by
  have haccepted := sampleAccepted_result "0xA" (by decide)
  have hfirst := Clob.solo_attemptFn sampleRateLimit []
    (by rw [sampleRateLimit_result]; nofun) (by rw [sampleRateLimit_result]; nofun)
  have hsecond := Clob.solo_attemptFn (sampleAccepted "0xA")
    (sampleEvents sampleRateLimit ++ [.own .permit (some samplePermit),
      .own (.sleep (.fromMillis 250)) ()])
    (by rw [haccepted]; nofun) (by rw [haccepted]; nofun)
  rw [sampleRateLimit_result] at hfirst
  rw [haccepted] at hsecond
  have hrun : SubmissionRun (SubmitCall.body .default (.prepared sampleOrder)) sampleGate
      (.ret (.ok (some "0xA"))) ⟨sampleGate, sampleRetried⟩ := by
    refine World.Solo.run (World.solo_bind.2 ⟨.ok (.accepted "0xA"), ⟨sampleGate, sampleRetried⟩,
      ?_, .ret _ _⟩)
    rw [Clob.retryPostOrder]
    refine solo_own (e := .authorize) (r := some sampleAttempt) rfl ?_
    change clobWorld.Solo () (Clob.attemptFn _ _ >>= _) _ _ _
    refine World.solo_bind.2 ⟨_, _, hfirst, ?_⟩
    refine solo_own (e := .permit) (r := some samplePermit) ⟨rfl, rfl⟩ ?_
    refine solo_own (e := .sleep _) (r := ()) rfl ?_
    exact Clob.solo_retryPostOrder rfl hsecond
  exact ⟨_, rfl, at_most_once hrun⟩

end Rspm
