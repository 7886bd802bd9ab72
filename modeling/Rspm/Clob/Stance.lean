/-
  How far a submission has come: the automaton that every submission follows.

  The serial lock, the permit, the read guard, the last check of the gate, the
  first poll of the POST and its reply come in this order, under one permit;
  what comes between them is what `Stance.next` lets pass.
-/
import Rspm.Clob.Client
import Rspm.Lib.Follow

namespace Rspm

/-- The gate that an action of a submission leaves. -/
def ProtocolSubmissionGate.after (gate : ProtocolSubmissionGate) : ClobAct → ProtocolSubmissionGate
  | .quarantine authority => gate.quarantine authority
  | .markIndeterminate authority => gate.markIndeterminate authority
  | _ => gate

/-- What a submission holds between two of its actions. -/
inductive Stance where
  | idle
  | locked
  | permitted (permit : ProtocolSubmissionPermit)
  | guarded (permit : ProtocolSubmissionPermit) (guard : AuthenticatedClientState)
  /-- the gate matched the permit at its last check -/
  | fresh (permit : ProtocolSubmissionPermit) (guard : AuthenticatedClientState)
  /-- the POST received its first poll -/
  | polled (permit : ProtocolSubmissionPermit) (guard : AuthenticatedClientState)
  | answered (permit : ProtocolSubmissionPermit) (guard : AuthenticatedClientState)

namespace Stance

/-- What a submission may do, and what it holds afterwards. -/
def next : Stance → (Σ e : ClobAct, e.Answer) → Option Stance
  | .idle, ⟨.authorize, _⟩ => some .idle
  | .idle, ⟨.permit, _⟩ => some .idle
  | .idle, ⟨.sleep _, _⟩ => some .idle
  | .idle, ⟨.lockSubmission, _⟩ => some .locked
  | .locked, ⟨.permit, some permit⟩ => some (.permitted permit)
  | .locked, ⟨.permit, none⟩ => some .locked
  | .locked, ⟨.unlockSubmission, _⟩ => some .idle
  | .permitted permit, ⟨.readClient, guard⟩ => some (.guarded permit guard)
  | .guarded permit guard, ⟨.version, _⟩ => some (.guarded permit guard)
  | .guarded permit guard, ⟨.admits permit', admitted⟩ =>
    if permit' = permit ∧ guard.protocolAuthority = some permit.authority then
      some (if admitted then .fresh permit guard else .guarded permit guard)
    else none
  | .guarded permit guard, ⟨.quarantine authority, _⟩ =>
    if authority = permit.authority then some (.guarded permit guard) else none
  | .guarded _ _, ⟨.dropClient, _⟩ => some .locked
  | .fresh permit guard, ⟨.version, _⟩ => some (.fresh permit guard)
  | .fresh permit guard, ⟨.build _, _⟩ => some (.fresh permit guard)
  | .fresh permit guard, ⟨.sign _, _⟩ => some (.fresh permit guard)
  | .fresh permit guard, ⟨.revalidate .., _⟩ => some (.fresh permit guard)
  | .fresh permit guard, ⟨.admits permit', admitted⟩ =>
    if permit' = permit then
      some (if admitted then .fresh permit guard else .guarded permit guard)
    else none
  | .fresh permit guard, ⟨.quarantine authority, _⟩ =>
    if authority = permit.authority then some (.guarded permit guard) else none
  | .fresh permit guard, ⟨.beginPost _ authority _, began⟩ =>
    if authority = permit.authority then
      some (if began then .polled permit guard else .guarded permit guard)
    else none
  | .fresh _ _, ⟨.dropClient, _⟩ => some .locked
  | .polled permit guard, ⟨.awaitPost permit' _, _⟩ =>
    if permit' = permit then some (.answered permit guard) else none
  | .answered permit guard, ⟨.version, _⟩ => some (.answered permit guard)
  | .answered permit guard, ⟨.admits permit', _⟩ =>
    if permit' = permit then some (.answered permit guard) else none
  | .answered permit guard, ⟨.quarantine authority, _⟩ =>
    if authority = permit.authority then some (.answered permit guard) else none
  | .answered permit guard, ⟨.markIndeterminate authority, _⟩ =>
    if authority = permit.authority then some (.answered permit guard) else none
  | .answered _ _, ⟨.dropClient, _⟩ => some .locked
  | _, _ => none

/-- The guard is held, and may be dropped. -/
def Droppable (permit : ProtocolSubmissionPermit) (guard : AuthenticatedClientState)
    (w : Stance) : Prop :=
  w = .guarded permit guard ∨ w = .fresh permit guard ∨ w = .answered permit guard

end Stance

/-- The automaton of the submissions. -/
def stances : Monitor Stance (Σ e : ClobAct, e.Answer) := ⟨Stance.next⟩

/-! ## The programs follow it -/

namespace Clob

variable {α : Type} {permit : ProtocolSubmissionPermit} {guard : AuthenticatedClientState}
  {attempt : SubmissionAttemptAuthority}

/-- What follows the automaton from `w` and ends in `Q`. -/
abbrev Follows (Q : α → Stance → Prop) (p : Clob α) (w : Stance) : Prop :=
  Prog.Follows stances Q p w

theorem follows_refuse_guarded {error : ClobOperationError} :
    Follows (α := Submitted α) (fun result w => result = .error error ∧ w = .guarded permit guard)
      (refuse permit.authority error) (.guarded permit guard) := by
  intro r
  exact ⟨.guarded permit guard, if_pos rfl, rfl, rfl⟩

theorem follows_refuse {error : ClobOperationError} :
    Follows (α := Submitted α) (fun result w => result = .error error ∧ w = .guarded permit guard)
      (refuse permit.authority error) (.fresh permit guard) := by
  intro r
  exact ⟨.guarded permit guard, if_pos rfl, rfl, rfl⟩

/-- The last check of the gate, between the guard and a fresh permit. -/
theorem follows_admits_guarded {Q : α → Stance → Prop} {p q : Clob α}
    (hguard : guard.protocolAuthority = some permit.authority)
    (hp : Follows Q p (.fresh permit guard)) (hq : Follows Q q (.guarded permit guard)) :
    Follows Q (step (.admits permit) >>= fun r => if r = true then p else q)
      (.guarded permit guard) := by
  intro r
  cases r with
  | false => exact ⟨.guarded permit guard, if_pos ⟨rfl, hguard⟩, hq⟩
  | true => exact ⟨.fresh permit guard, if_pos ⟨rfl, hguard⟩, hp⟩

/-- The checks of the client end with the permit fresh, or fail under the guard. -/
theorem follows_checkClient :
    Follows (fun result w => match result with
        | .error _ => w = .guarded permit guard
        | .ok () => w = .fresh permit guard)
      (checkClient guard permit) (.guarded permit guard) := by
  unfold checkClient
  split
  · rfl
  · rename_i authority hauthority
    intro r
    refine ⟨.guarded permit guard, rfl, ?_⟩
    dsimp only [Prog.bind]
    split
    · rfl
    · split_ifs with h
      · refine follows_refuse_guarded.mono ?_
        rintro result w ⟨rfl, hw⟩
        exact hw
      · obtain ⟨rfl, -⟩ := not_or.1 h |>.imp_left not_not.1
        refine follows_admits_guarded hauthority rfl ?_
        refine follows_refuse_guarded.mono ?_
        rintro result w ⟨rfl, hw⟩
        exact hw

theorem follows_submissionClient :
    Follows (fun result w => match result with
        | .error _ => w = .locked
        | .ok (guard, permit) => w = .fresh permit guard)
      submissionClient .locked := by
  intro r
  cases r with
  | none => exact ⟨.locked, rfl, rfl⟩
  | some permit =>
    refine ⟨.permitted permit, rfl, fun guard => ⟨.guarded permit guard, rfl, ?_⟩⟩
    refine follows_checkClient.bind ?_
    intro result w hw
    cases result with
    | error error =>
      obtain rfl : w = .guarded permit guard := hw
      exact fun _ => ⟨.locked, rfl, rfl⟩
    | ok _ => exact hw

/-- A step that leaves the permit fresh, and fails or goes on. -/
theorem follows_checkAuthority {orderVersion : ℕ} :
    Follows (fun result w => match result with
        | .error _ => w.Droppable permit guard
        | .ok _ => w = .fresh permit guard)
      (checkAuthority guard permit attempt orderVersion) (.fresh permit guard) := by
  have hrefuse : Follows (fun (result : Submitted ℕ) w => match result with
      | .error _ => w.Droppable permit guard
      | .ok _ => w = .fresh permit guard)
      (refuse permit.authority .protocolAuthorityRevoked) (.fresh permit guard) := by
    refine follows_refuse.mono ?_
    rintro result w ⟨rfl, hw⟩
    exact .inl hw
  have hrefuse' : Follows (fun (result : Submitted ℕ) w => match result with
      | .error _ => w.Droppable permit guard
      | .ok _ => w = .fresh permit guard)
      (refuse permit.authority .protocolAuthorityRevoked) (.guarded permit guard) := by
    refine follows_refuse_guarded.mono ?_
    rintro result w ⟨rfl, hw⟩
    exact .inl hw
  unfold checkAuthority
  split
  · exact .inr (.inl rfl)
  · intro r
    refine ⟨.fresh permit guard, rfl, ?_⟩
    dsimp only [Prog.bind]
    split
    · exact .inr (.inl rfl)
    · split_ifs with h
      · exact hrefuse
      · intro admitted
        cases admitted with
        | false => exact ⟨.guarded permit guard, if_pos rfl, hrefuse'⟩
        | true =>
          refine ⟨.fresh permit guard, if_pos rfl, fun valid => ⟨.fresh permit guard, rfl, ?_⟩⟩
          cases valid with
          | false => exact hrefuse
          | true => rfl

theorem follows_settle {beforeVersion : ℕ} {response : Submitted PostOrderOutcome} :
    Follows (fun _ w => w = .answered permit guard) (settle permit beforeVersion response)
      (.answered permit guard) := by
  intro afterVersion
  refine ⟨.answered permit guard, rfl, fun matched => ⟨.answered permit guard, if_pos rfl, ?_⟩⟩
  dsimp only [Prog.bind]
  split_ifs
  · exact fun _ => ⟨.answered permit guard, if_pos rfl, rfl⟩
  · rfl

theorem follows_postSigned {signed : SignedOrder} {beforeVersion : ℕ} :
    Follows (fun _ w => w.Droppable permit guard) (postSigned permit attempt signed beforeVersion)
      (.fresh permit guard) := by
  intro began
  cases began with
  | false =>
    refine ⟨.guarded permit guard, if_pos rfl, ?_⟩
    exact follows_refuse_guarded.mono fun result w h => .inl h.2
  | true =>
    refine ⟨.polled permit guard, if_pos rfl, fun reply => ⟨.answered permit guard, if_pos rfl, ?_⟩⟩
    dsimp only [Prog.bind]
    rw [sortReply_eq]
    split_ifs
    · exact fun _ => ⟨.answered permit guard, if_pos rfl, .inr (.inr rfl)⟩
    · exact follows_settle.mono fun result w h => .inr (.inr h)

theorem follows_postPreparedSdk {signed : SignedOrder} :
    Follows (fun _ w => w.Droppable permit guard) (postPreparedSdk signed guard permit attempt)
      (.fresh permit guard) := by
  refine follows_checkAuthority.bind ?_
  intro result w hw
  cases result with
  | error error => exact hw
  | ok beforeVersion =>
    obtain rfl : w = .fresh permit guard := hw
    exact follows_postSigned

theorem follows_signAndPostSdk {signable : SignableOrder} :
    Follows (fun _ w => w.Droppable permit guard) (signAndPostSdk signable guard permit attempt)
      (.fresh permit guard) := by
  refine follows_checkAuthority.bind ?_
  intro result w hw
  cases result with
  | error error => exact hw
  | ok beforeVersion =>
    obtain rfl : w = .fresh permit guard := hw
    intro r
    refine ⟨.fresh permit guard, rfl, ?_⟩
    cases r with
    | error error => exact .inr (.inl rfl)
    | ok signed =>
      intro admitted
      cases admitted with
      | false =>
        refine ⟨.guarded permit guard, if_pos rfl, ?_⟩
        exact follows_refuse_guarded.mono fun result w h => .inl h.2
      | true => exact ⟨.fresh permit guard, if_pos rfl, follows_postSigned⟩

/-- A POST starts under a fresh permit, and ends where the guard may be dropped. -/
def Posts (post : Post) : Prop :=
  ∀ {guard permit attempt},
    Follows (fun _ w => w.Droppable permit guard) (post guard permit attempt) (.fresh permit guard)

theorem posts_buildAndPost (order : LimitOrder) : Posts (buildAndPost order) := by
  intro guard permit attempt r
  refine ⟨.fresh permit guard, rfl, ?_⟩
  cases r with
  | error error => exact .inr (.inl rfl)
  | ok signable => exact follows_signAndPostSdk

theorem posts_postAndMatch (order : PreparedClobOrder) : Posts (postAndMatch order) :=
  follows_postPreparedSdk.bind fun _ _ hw => hw

theorem posts_revalidateAndPost {post : Post} (h : Posts post) :
    Posts (revalidateAndPost post) := by
  intro guard permit attempt valid
  refine ⟨.fresh permit guard, rfl, ?_⟩
  cases valid with
  | false => exact follows_refuse.mono fun result w h => .inl h.2
  | true => exact h

theorem follows_attemptFn {post : Post} (h : Posts post) :
    Follows (fun _ w => w = .idle) (attemptFn post attempt) .idle := by
  intro r
  refine ⟨.locked, rfl, ?_⟩
  have hguard : Follows (fun _ w => w = .locked) (underGuard post attempt) .locked := by
    refine follows_submissionClient.bind ?_
    intro result w hw
    rcases result with error | ⟨guard, permit⟩
    · exact hw
    · obtain rfl : w = .fresh permit guard := hw
      refine (posts_revalidateAndPost h).bind ?_
      rintro result w (rfl | rfl | rfl) <;> exact fun _ => ⟨.locked, rfl, rfl⟩
  refine hguard.bind ?_
  rintro result w rfl
  exact fun _ => ⟨.idle, rfl, rfl⟩

theorem follows_retryPostOrder {policy : RetryPolicy} {post : Post} (h : Posts post) (n : ℕ) :
    Follows (fun _ w => w = .idle)
      (retryPostOrder policy retryAuthorityActive (attemptFn post) n) .idle := by
  induction hm : policy.maxAttempts - n using Nat.strong_induction_on generalizing n with
  | _ m ih =>
    rw [retryPostOrder]
    intro attempt
    refine ⟨.idle, rfl, ?_⟩
    cases attempt with
    | none => rfl
    | some attempt =>
      refine (follows_attemptFn h).bind ?_
      rintro result w rfl
      rcases result with error | outcome
      · cases error with
        | rateLimited retryAfter =>
          intro active
          refine ⟨.idle, rfl, ?_⟩
          cases active with
          | none => rfl
          | some permit =>
            dsimp only [Prog.bind, Option.isSome]
            split_ifs with hretry
            · have hlt : n < policy.maxAttempts := of_decide_eq_true hretry
              exact fun _ => ⟨.idle, rfl, ih _ (by omega) (n + 1) rfl⟩
            · rfl
        | _ => rfl
      · rfl

theorem follows_submitLimit {policy : RetryPolicy} {input : OrderInput} {side : ClobSide}
    {orderType : Option OrderType} {postOnly : Bool} :
    Follows (fun _ w => w = .idle) (submitLimit policy input side orderType postOnly) .idle := by
  unfold submitLimit
  split
  · exact follows_retryPostOrder (posts_buildAndPost _) 1
  · rfl

/-- Every submission follows the automaton. -/
theorem follows_body (policy : RetryPolicy) (call : SubmitCall) :
    Follows (fun _ w => w = .idle) (call.body policy) .idle := by
  cases call with
  | fak | gtcSell | gtcBuy => exact follows_submitLimit.bind fun _ _ hw => hw
  | prepared order =>
    exact (follows_retryPostOrder (posts_postAndMatch order) 1).bind fun _ _ hw => hw

end Clob

/-! ## What the automaton lets happen -/

namespace Stance

/-- The actions that the automaton allows, one by one. -/
inductive Next : Stance → (e : ClobAct) → e.Answer → Stance → Prop
  | authorize {r : Option SubmissionAttemptAuthority} : Next .idle .authorize r .idle
  | retry {r : Option ProtocolSubmissionPermit} : Next .idle .permit r .idle
  | sleep {delay : Duration} {r : Unit} : Next .idle (.sleep delay) r .idle
  | lock {r : Unit} : Next .idle .lockSubmission r .locked
  | permit {permit : ProtocolSubmissionPermit} :
      Next .locked .permit (some permit) (.permitted permit)
  | noPermit : Next .locked .permit none .locked
  | unlock {r : Unit} : Next .locked .unlockSubmission r .idle
  | readClient {permit : ProtocolSubmissionPermit} {guard : AuthenticatedClientState} :
      Next (.permitted permit) .readClient guard (.guarded permit guard)
  | version {w : Stance} {permit : ProtocolSubmissionPermit} {guard : AuthenticatedClientState}
      {r : Except SdkError ℕ} (hw : w.Droppable permit guard) : Next w .version r w
  | admitsGuarded {permit : ProtocolSubmissionPermit} {guard : AuthenticatedClientState}
      {admitted : Bool} (h : guard.protocolAuthority = some permit.authority) :
      Next (.guarded permit guard) (.admits permit) admitted
        (if admitted then .fresh permit guard else .guarded permit guard)
  | admitsFresh {permit : ProtocolSubmissionPermit} {guard : AuthenticatedClientState}
      {admitted : Bool} : Next (.fresh permit guard) (.admits permit) admitted
        (if admitted then .fresh permit guard else .guarded permit guard)
  | admitsAnswered {permit : ProtocolSubmissionPermit} {guard : AuthenticatedClientState}
      {admitted : Bool} : Next (.answered permit guard) (.admits permit) admitted
        (.answered permit guard)
  | quarantine {w : Stance} {permit : ProtocolSubmissionPermit} {guard : AuthenticatedClientState}
      {r : Unit} (hw : w = .guarded permit guard ∨ w = .fresh permit guard) :
      Next w (.quarantine permit.authority) r (.guarded permit guard)
  | quarantineAnswered {permit : ProtocolSubmissionPermit} {guard : AuthenticatedClientState}
      {r : Unit} : Next (.answered permit guard) (.quarantine permit.authority) r
        (.answered permit guard)
  | build {permit : ProtocolSubmissionPermit} {guard : AuthenticatedClientState}
      {order : LimitOrder} {r : Except SdkError SignableOrder} :
      Next (.fresh permit guard) (.build order) r (.fresh permit guard)
  | sign {permit : ProtocolSubmissionPermit} {guard : AuthenticatedClientState}
      {signable : SignableOrder} {r : Except SdkError SignedOrder} :
      Next (.fresh permit guard) (.sign signable) r (.fresh permit guard)
  | revalidate {permit : ProtocolSubmissionPermit} {guard : AuthenticatedClientState}
      {attempt : SubmissionAttemptAuthority} {authority : AuthenticatedProtocolAuthority}
      {valid : Bool} :
      Next (.fresh permit guard) (.revalidate attempt authority) valid (.fresh permit guard)
  | beginPost {permit : ProtocolSubmissionPermit} {guard : AuthenticatedClientState}
      {attempt : SubmissionAttemptAuthority} {signed : SignedOrder} {began : Bool} :
      Next (.fresh permit guard) (.beginPost attempt permit.authority signed) began
        (if began then .polled permit guard else .guarded permit guard)
  | awaitPost {permit : ProtocolSubmissionPermit} {guard : AuthenticatedClientState}
      {signed : SignedOrder} {reply : PostReply} :
      Next (.polled permit guard) (.awaitPost permit signed) reply (.answered permit guard)
  | markIndeterminate {permit : ProtocolSubmissionPermit} {guard : AuthenticatedClientState}
      {r : Unit} : Next (.answered permit guard) (.markIndeterminate permit.authority) r
        (.answered permit guard)
  | dropClient {w : Stance} {permit : ProtocolSubmissionPermit} {guard : AuthenticatedClientState}
      {r : Unit} (hw : w.Droppable permit guard) : Next w .dropClient r .locked

theorem next_cases {w w' : Stance} {e : ClobAct} {r : e.Answer} (h : w.next ⟨e, r⟩ = some w') :
    Next w e r w' := by
  generalize he : (⟨e, r⟩ : Σ e : ClobAct, e.Answer) = act at h
  unfold next at h
  split at h
  all_goals cases he
  all_goals
    first
    | cases h
    | obtain ⟨hif, hw⟩ := Option.ite_none_right_eq_some.1 h
      cases hw
  case h_10 =>
    obtain ⟨rfl, hguard⟩ := hif
    exact .admitsGuarded hguard
  all_goals try subst hif
  all_goals constructor
  all_goals
    first
    | exact .inl rfl
    | exact .inr rfl
    | exact .inr (.inl rfl)
    | exact .inr (.inr rfl)

end Stance

end Rspm
