/-
  How the state moves.

  `Event` is what a call means for recovery, read off the call and its reply;
  `Move` is how the state moves under each event, ledger counters apart.  What
  holds of every move holds of every call (`CellCall.move`), so a fact about
  recovery is a case analysis on moves.
-/
import Rspm.Ws.Order

namespace Rspm

/-! ## Events and moves -/

/-- What a call means for the recovery of the channel. -/
inductive Event where
  /-- a new socket generation -/
  | connected (generation : ℕ)
  /-- its subscription was written -/
  | subscribed (generation : ℕ)
  /-- an accepted PONG -/
  | responded (generation : ℕ)
  /-- a recorded REST proof -/
  | proven (token : AuthenticatedUserRecoveryToken)
      (credentialAuthority : AuthenticatedCredentialAuthority)
  /-- an installed catch-up -/
  | caughtUp (finalization : AuthenticatedUserCatchUpFinalization)
  /-- evidence lost outside the gap marks: a drop, an enqueue of a range that was never
      handed out, a frame retained twice -/
  | lost
  | other

/-- The event of a call of `cell`, read off the method and its reply. -/
def Op.event (cell : StateCell) : Op → Reply → Event
  | .tryMarkConnected, .connection (.ok generation) => .connected generation
  | .markSubscriptionWritten generation, _ =>
    if cell.isOpen ∧ cell.state.generation = generation ∧ cell.state.connection = .connected then
      .subscribed generation
    else .other
  | .markServerLivenessProven generation, _ =>
    if cell.isOpen ∧ cell.state.acceptsPong generation ∧ cell.state.livenessVersion < u64Max then
      .responded generation
    else .other
  | .markAuthenticatedRestProven token credentialAuthority, .floor (some _) =>
    .proven token credentialAuthority
  | .commitCatchUpFinalization finalization, .bool true => .caughtUp finalization
  | .markDropped _, _ => .lost
  | .markEnqueued range, _ => if cell.state.knowsRange range then .other else .lost
  | .retainRawFrame evidence, _ =>
    if evidence.frameSequence ≠ 0 ∧ cell.rawFrames.contains evidence.frameSequence then .lost
    else .other
  | _, _ => .other

/-- How the state moves under an event. -/
inductive Move (s : AuthenticatedUserWsState) : Event → AuthenticatedUserWsState → Prop
  | ledger (transportSequence enqueuedSequence durableSequence rawFrameSequence
      pendingRawFrameCount : ℕ) :
      Move s .other
        { s with
          transportSequence, enqueuedSequence, durableSequence, rawFrameSequence
          pendingRawFrameCount }
  | connecting (hx : s.counterExhaustion = none) :
      Move s .other
        { s.clearRestProof with
          connection := .connecting
          authentication := .inactive
          subscription := .inactive }
  | connected (hx : s.counterExhaustion = none) :
      Move s (.connected (s.generation + 1))
        { s.clearRestProof with
          generation := s.generation + 1
          connection := .connected
          authentication := .inactive
          subscription := .inactive
          catchUpGeneration := none
          evidenceGap := true
          gapVersion := s.gapVersion + 1 }
  | subscribed (hc : s.connection = .connected) :
      Move s (.subscribed s.generation)
        { s with
          authentication := .credentialsSubmitted
          subscription := .awaitingServerProof }
  | responded (hp : s.acceptsPong s.generation) :
      Move s (.responded s.generation)
        { s with
          livenessVersion := s.livenessVersion + 1
          subscription := .serverResponsive }
  | proven {token : AuthenticatedUserRecoveryToken}
      {credentialAuthority : AuthenticatedCredentialAuthority}
      (ht : s.recoveryToken = some token)
      (hi : token.credentialIdentity = credentialAuthority.identity) :
      Move s (.proven token credentialAuthority)
        { s with
          restProofGeneration := some token.generation
          restCredentialAuthority := some credentialAuthority
          restProofLivenessFloor := some s.livenessVersion
          subscription := .awaitingServerProof }
  | disconnected :
      Move s .other
        { s.clearRestProof with
          connection := .disconnected
          authentication := .inactive
          subscription := .inactive
          catchUpGeneration := none
          evidenceGap := true
          gapVersion := s.gapVersion + 1 }
  | gap (schema delivery consumer evidence : Bool) :
      Move s .other
        { s.clearRestProof with
          subscription := .awaitingServerProof
          schemaGap := s.schemaGap || schema
          deliveryGap := s.deliveryGap || delivery
          consumerClosed := s.consumerClosed || consumer
          evidenceGap := s.evidenceGap || evidence
          gapVersion := s.gapVersion + 1 }
  | lost (delivery evidence : Bool) (pendingRawFrameCount : ℕ) :
      Move s .lost
        { s with
          deliveryGap := s.deliveryGap || delivery
          evidenceGap := s.evidenceGap || evidence
          pendingRawFrameCount
          gapVersion := s.gapVersion + 1 }
  | overflowed {e : Event} (he : e = .lost ∨ e = .other) :
      Move s e
        { s with
          consumerClosed := true
          deliveryGap := true
          gapVersion := s.gapVersion + 1 }
  | caughtUp {finalization : AuthenticatedUserCatchUpFinalization}
      (he : s = finalization.expectedState) :
      Move s (.caughtUp finalization) finalization.nextState
  | closed {e : Event} (he : e = .lost ∨ e = .other) {s' : AuthenticatedUserWsState}
      (hc : s'.Closed) : Move s e s'

theorem Move.refl (s : AuthenticatedUserWsState) : Move s .other s :=
  .ledger s.transportSequence s.enqueuedSequence s.durableSequence s.rawFrameSequence
    s.pendingRawFrameCount

/-- A move that ends with an advance of the gap version. -/
theorem Move.of_advanceGapVersion {s s' : AuthenticatedUserWsState} {e : Event}
    (he : e = .lost ∨ e = .other)
    (h : Move s e { s' with gapVersion := s'.gapVersion + 1 }) :
    Move s e s'.advanceGapVersion.1 := by
  rcases s'.advanceGapVersion_cases with ⟨-, h'⟩ | ⟨-, h'⟩ <;> rw [h']
  · exact h
  · exact .closed he (s'.failCounter_closed _)

/-! ## Every call is a move -/

section
variable {cell : StateCell}

theorem move_tryMarkConnected (cell : StateCell) :
    Move cell.state (Op.event cell .tryMarkConnected (.connection cell.state.tryMarkConnected.2))
      cell.state.tryMarkConnected.1 := by
  generalize cell.state = s
  unfold AuthenticatedUserWsState.tryMarkConnected
  cases hx : s.counterExhaustion with
  | some exhaustion => exact .refl s
  | none =>
    cases hg : checkedAdd s.generation 1 with
    | none => exact .closed (.inr rfl) (s.failCounter_closed _)
    | some next =>
      obtain ⟨-, rfl⟩ := checkedAdd_eq_some.1 hg
      dsimp only
      rcases AuthenticatedUserWsState.advanceGapVersion_cases _ with ⟨-, h⟩ | ⟨-, h⟩ <;> rw [h]
      · exact .connected hx
      · exact .closed (.inr rfl) (AuthenticatedUserWsState.failCounter_closed _ _)

theorem move_markSubscriptionWritten (ho : cell.isOpen) (generation : ℕ) :
    Move cell.state (Op.event cell (.markSubscriptionWritten generation) .unit)
      (cell.state.markSubscriptionWritten generation) := by
  unfold AuthenticatedUserWsState.markSubscriptionWritten
  by_cases h : cell.state.generation = generation ∧ cell.state.connection = .connected
  · obtain ⟨rfl, hc⟩ := h
    simpa [Op.event, ho, hc] using Move.subscribed hc
  · rw [if_neg h]
    have : ¬ (cell.isOpen ∧ cell.state.generation = generation ∧
        cell.state.connection = .connected) := fun h' => h h'.2
    simpa only [Op.event, if_neg this] using Move.refl cell.state

theorem move_markServerLivenessProven (ho : cell.isOpen) (generation : ℕ) :
    Move cell.state (Op.event cell (.markServerLivenessProven generation) .unit)
      (cell.state.markServerLivenessProven generation) := by
  unfold AuthenticatedUserWsState.markServerLivenessProven
  by_cases h : cell.state.acceptsPong generation
  · rw [if_pos h]
    have hg : cell.state.generation = generation := h.1
    subst hg
    cases hl : checkedAdd cell.state.livenessVersion 1 with
    | none =>
      rw [checkedAdd_eq_none] at hl
      have : ¬ (cell.isOpen ∧ cell.state.acceptsPong cell.state.generation ∧
          cell.state.livenessVersion < u64Max) := by omega
      simp only [Op.event, if_neg this]
      exact .closed (.inr rfl) (cell.state.failCounter_closed _)
    | some next =>
      obtain ⟨hb, rfl⟩ := checkedAdd_eq_some.1 hl
      have : cell.state.livenessVersion < u64Max := by omega
      simp only [Op.event, if_pos (show _ ∧ _ ∧ _ from ⟨ho, h, this⟩)]
      exact .responded h
  · rw [if_neg h]
    have : ¬ (cell.isOpen ∧ cell.state.acceptsPong generation ∧
        cell.state.livenessVersion < u64Max) := fun h' => h h'.2.1
    simpa only [Op.event, if_neg this] using Move.refl cell.state

theorem move_markAuthenticatedRestProven (cell : StateCell) (token : AuthenticatedUserRecoveryToken)
    (credentialAuthority : AuthenticatedCredentialAuthority) :
    Move cell.state
      (Op.event cell (.markAuthenticatedRestProven token credentialAuthority)
        (.floor (cell.state.markAuthenticatedRestProven token credentialAuthority).2))
      (cell.state.markAuthenticatedRestProven token credentialAuthority).1 := by
  unfold AuthenticatedUserWsState.markAuthenticatedRestProven
  split_ifs with h
  · exact .proven h.1 h.2.1
  · exact .refl _

theorem move_reserveTransportSequences (s : AuthenticatedUserWsState) (eventCount : ℕ) :
    Move s .other (s.reserveTransportSequences eventCount).1 := by
  unfold AuthenticatedUserWsState.reserveTransportSequences
  split
  · exact .closed (.inr rfl) (s.failCounter_closed _)
  · split
    · exact .closed (.inr rfl) (s.failCounter_closed _)
    · exact .ledger _ _ _ _ _

theorem move_reserveRawFrameSequence (s : AuthenticatedUserWsState) :
    Move s .other s.reserveRawFrameSequence.1 := by
  unfold AuthenticatedUserWsState.reserveRawFrameSequence
  split
  · exact .closed (.inr rfl) (s.failCounter_closed _)
  · exact .ledger _ _ _ _ _

/-- Delivery lost without a gap mark: the REST proof stays. -/
theorem move_deliveryLost (s : AuthenticatedUserWsState) :
    Move s .lost { s with deliveryGap := true }.advanceGapVersion.1 := by
  refine .of_advanceGapVersion (.inl rfl) ?_
  have := @Move.lost s true false s.pendingRawFrameCount
  simpa using this

theorem move_markEnqueued (cell : StateCell) (range : TransportSequenceRange) :
    Move cell.state (Op.event cell (.markEnqueued range) .unit)
      (cell.state.markEnqueued range) := by
  unfold AuthenticatedUserWsState.markEnqueued
  by_cases h : cell.state.knowsRange range
  · simp only [Op.event, if_pos h]
    exact .ledger _ _ _ _ _
  · simp only [Op.event, if_neg h]
    exact move_deliveryLost cell.state

theorem move_reopenProof (s : AuthenticatedUserWsState) (schema delivery consumer evidence : Bool) :
    Move s .other
      { s with
        schemaGap := s.schemaGap || schema
        deliveryGap := s.deliveryGap || delivery
        consumerClosed := s.consumerClosed || consumer
        evidenceGap := s.evidenceGap || evidence }.reopenProof :=
  .of_advanceGapVersion (.inr rfl) (.gap schema delivery consumer evidence)

theorem Op.transition_move {op : Op} {s : AuthenticatedUserWsState} {r : Reply}
    (ho : cell.isOpen) (h : op.transition cell.state = some (s, r)) :
    Move cell.state (op.event cell r) s := by
  cases op <;> simp only [Op.transition, reduceCtorEq, Option.some.injEq, Prod.mk.injEq,
    Option.ite_none_left_eq_some, Option.ite_none_right_eq_some] at h
  case markConnecting =>
    obtain ⟨rfl, rfl⟩ := h
    unfold AuthenticatedUserWsState.markConnecting
    split_ifs with hx
    · exact .refl _
    · exact .connecting (by simpa using hx)
  case tryMarkConnected => obtain ⟨rfl, rfl⟩ := h; exact move_tryMarkConnected cell
  case markSubscriptionWritten generation =>
    obtain ⟨rfl, rfl⟩ := h; exact move_markSubscriptionWritten ho generation
  case markServerLivenessProven generation =>
    obtain ⟨rfl, rfl⟩ := h; exact move_markServerLivenessProven ho generation
  case markAuthenticatedRestProven token credentialAuthority =>
    obtain ⟨rfl, rfl⟩ := h
    exact move_markAuthenticatedRestProven cell token credentialAuthority
  case markDisconnected =>
    obtain ⟨rfl, rfl⟩ := h; exact .of_advanceGapVersion (.inr rfl) .disconnected
  case markSchemaGap =>
    obtain ⟨rfl, rfl⟩ := h
    simpa [Op.event, AuthenticatedUserWsState.markSchemaGap] using
      move_reopenProof cell.state true false false false
  case markDeliveryGap =>
    obtain ⟨rfl, rfl⟩ := h
    simpa [Op.event, AuthenticatedUserWsState.markDeliveryGap] using
      move_reopenProof cell.state false true false false
  case markConsumerClosed =>
    obtain ⟨rfl, rfl⟩ := h
    simpa [Op.event, AuthenticatedUserWsState.markConsumerClosed] using
      move_reopenProof cell.state false true true false
  case markEvidenceGap =>
    obtain ⟨rfl, rfl⟩ := h
    simpa [Op.event, AuthenticatedUserWsState.markEvidenceGap] using
      move_reopenProof cell.state false false false true
  case reserveTransportSequences eventCount =>
    obtain ⟨-, rfl, rfl⟩ := h; exact move_reserveTransportSequences cell.state eventCount
  case reserveRawFrameSequence =>
    obtain ⟨rfl, rfl⟩ := h; exact move_reserveRawFrameSequence cell.state
  case retainRawFrame evidence =>
    obtain ⟨hz, rfl, rfl⟩ := h
    simpa [Op.event, hz, AuthenticatedUserWsState.markEvidenceGap] using
      move_reopenProof cell.state false false false true
  case markEnqueued range => obtain ⟨rfl, rfl⟩ := h; exact move_markEnqueued cell range

/-- An acting call moves the state as its event says. -/
theorem StateCell.Acts.move {op : Op} {books : Books} {r : Reply} (ho : cell.isOpen)
    (h : cell.Acts op books r) : Move cell.state (op.event cell r) books.state := by
  cases h with
  | update h => exact Op.transition_move ho h
  | @retained evidence hz hn =>
    simp only [Op.event, hn, Bool.false_eq_true, and_false, if_false]
    exact .ledger _ _ _ _ _
  | @replaced evidence hz hn =>
    simp only [Op.event, hn, hz, ne_eq, not_false_eq_true, and_self, if_true]
    refine .of_advanceGapVersion (.inl rfl) ?_
    have := @Move.lost cell.state false true
      (cell.rawFrames.insert evidence.frameSequence evidence).size
    simpa using this
  | released hn => exact .ledger _ _ _ _ _
  | strangerDropped hk => exact move_deliveryLost cell.state
  | dropped hk hr => exact move_deliveryLost cell.state
  | dropOverflowed hk hr => exact .of_advanceGapVersion (.inl rfl) (.overflowed (.inl rfl))
  | acknowledgeOverflowed hd ht hf =>
    exact .of_advanceGapVersion (.inr rfl) (.overflowed (.inr rfl))
  | acknowledged hd ht hf ha =>
    dsimp only
    split_ifs
    · exact .closed (.inr rfl) (AuthenticatedUserWsState.failCounter_closed _ _)
    · exact .ledger _ _ _ _ _
  | installed he => exact .caughtUp he.1

/-- A call that changes nothing is no event. -/
theorem StateCell.Answers.event {op : Op} {r : Reply} (h : cell.Answers op r) :
    op.event cell r = .other := by
  cases h with
  | nothing hr hm =>
    unfold Op.event
    split <;> first | rfl | cases hr | cases hm
  | capacity => rfl
  | durable hz hd => rfl
  | prepared ha he => rfl
  | authority ht ha hw hr => rfl

/-- A reply that grants nothing comes with no recovery event but a lost one, unless the call
    is an update of an open cell. -/
theorem Op.event_of_not_grants {op : Op} {r : Reply} (hr : r.grants = false)
    (hu : cell.isOpen → op.transition cell.state = none) :
    op.event cell r = .lost ∨ op.event cell r = .other := by
  unfold Op.event
  split
  · cases hr
  · next generation _ =>
    by_cases ho : cell.isOpen
    · cases hu ho
    · simp [ho]
  · next generation _ =>
    by_cases ho : cell.isOpen
    · cases hu ho
    · simp [ho]
  · cases hr
  · cases hr
  · exact .inl rfl
  · split_ifs <;> simp
  · split_ifs <;> simp
  · exact .inr rfl

end

/-- The event of a completed call. -/
def CellCall.event (c : CellCall) : Event := c.input.event c.pre c.out

/-- Every call moves the state as its event says. -/
theorem CellCall.move (c : CellCall) : Move c.pre.state c.event c.post.state := by
  have h := c.outcome
  rw [show c.post.state = c.post.books.state from rfl]
  unfold CellCall.event
  generalize c.post.books = books, c.out = r at h ⊢
  cases h with
  | refused hr hu => exact .closed (Op.event_of_not_grants hr hu) c.pre.failClosedAfterPoison_closed
  | answers h => rw [h.event]; exact .refl c.pre.state
  | acts ho h => exact h.move ho

/-! ## Preparations and commits -/

theorem CellCall.event_eq_caughtUp {c : CellCall} {f : AuthenticatedUserCatchUpFinalization} :
    c.event = .caughtUp f ↔ c.input = .commitCatchUpFinalization f ∧ c.out = .bool true := by
  unfold CellCall.event
  generalize c.out = r, c.input = op
  constructor
  · intro h
    unfold Op.event at h
    split at h <;> first | cases h | skip
    · split_ifs at h
    · split_ifs at h
    · exact ⟨rfl, rfl⟩
    · split_ifs at h
    · split_ifs at h
  · rintro ⟨rfl, rfl⟩; rfl

theorem CellCall.input_of_proven {c : CellCall} {token : AuthenticatedUserRecoveryToken}
    {authority : AuthenticatedCredentialAuthority} (h : c.event = .proven token authority) :
    c.input = .markAuthenticatedRestProven token authority := by
  unfold CellCall.event at h
  generalize c.out = r, c.input = op at h ⊢
  unfold Op.event at h
  split at h <;> first | cases h | skip
  · split_ifs at h
  · split_ifs at h
  · rfl
  · split_ifs at h
  · split_ifs at h

/-- A commit that returns `true` found what its finalization expects, and installed it. -/
theorem CellCall.installed {c : CellCall} {f : AuthenticatedUserCatchUpFinalization}
    (h : c.event = .caughtUp f) :
    c.pre.expects f ∧ c.post.state = f.nextState ∧
      c.post.durableOutOfOrder = f.nextDurableOutOfOrder ∧
      c.post.droppedRanges = f.nextDroppedRanges ∧ c.post.rawFrames = c.pre.rawFrames := by
  have ho := c.outcome
  rw [CellCall.event_eq_caughtUp] at h
  suffices hb : c.pre.expects f ∧ c.post.books = { c.pre.books with
      state := f.nextState
      durableOutOfOrder := f.nextDurableOutOfOrder
      droppedRanges := f.nextDroppedRanges } by
    obtain ⟨he, hb⟩ := hb
    exact ⟨he, congrArg Books.state hb, congrArg Books.durableOutOfOrder hb,
      congrArg Books.droppedRanges hb, congrArg Books.rawFrames hb⟩
  generalize c.post.books = books, c.out = r, c.input = op at ho h ⊢
  obtain ⟨rfl, rfl⟩ := h
  cases ho with
  | refused hr hu => cases hr
  | answers ha => cases ha with | nothing hr hm => cases hr
  | acts hopen ha =>
    cases ha with
    | update hu => cases hu
    | installed he => exact ⟨he, rfl⟩

/-- A call that returns a finalization made the checks, and changed nothing. -/
theorem CellCall.prepared {c : CellCall} {f : AuthenticatedUserCatchUpFinalization}
    (h : c.out = .finalization (some f)) :
    c.pre.expects f ∧ c.post.books = c.pre.books ∧
      ∃ token credentialAuthority transportWatermark minimumLivenessVersion,
        c.input = .prepareCatchUpFinalization token credentialAuthority transportWatermark
          minimumLivenessVersion ∧
        c.pre.state.admitsCatchUp token credentialAuthority transportWatermark
          minimumLivenessVersion := by
  have ho := c.outcome
  generalize c.post.books = books, c.out = r, c.input = op at ho h ⊢
  subst h
  cases ho with
  | refused hr hu => cases hr
  | answers ha =>
    cases ha with
    | nothing hr hm => cases hr
    | prepared ha he => exact ⟨he, rfl, _, _, _, _, rfl, ha⟩
  | acts hopen ha =>
    cases ha with
    | update hu => cases op <;> simp [Op.transition] at hu

/-- An authority that matches is recorded in a ready state. -/
theorem CellCall.matched {c : CellCall} {token : AuthenticatedUserRecoveryToken}
    {authority : AuthenticatedCredentialAuthority} {transportWatermark : ℕ}
    (hi : c.input = .authorityMatches token authority transportWatermark)
    (h : c.out = .bool true) :
    c.pre.state.recoveryToken = some token ∧
      c.pre.state.restCredentialAuthority = some authority ∧
      c.pre.state.transportSequence = transportWatermark ∧ c.pre.state.isReady := by
  have ho := c.outcome
  generalize c.post.books = books, c.out = r, c.input = op at ho hi h ⊢
  subst hi h
  cases ho with
  | refused hr hu => cases hr
  | answers ha =>
    cases ha with
    | nothing hr hm => cases hr
    | authority ht ha hw hr => exact ⟨ht, ha, hw, hr⟩
  | acts hopen ha => cases ha with | update hu => cases hu

/-- A finalization that a call commits was returned by an earlier call. -/
theorem CellRun.prepared_before {credentialIdentity : AuthenticatedCredentialIdentity}
    {cs ds : List CellCall} {c : CellCall} {cell : StateCell}
    {f : AuthenticatedUserCatchUpFinalization}
    (h : CellRun credentialIdentity (cs ++ c :: ds) cell) (hc : c.event = .caughtUp f) :
    ∃ p ∈ cs, p.out = .finalization (some f) := by
  have hok := h.before.2
  rwa [(CellCall.event_eq_caughtUp.1 hc).1] at hok

end Rspm
