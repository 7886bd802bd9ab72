/-
  What one call can do.

  `Books` is what the calls read and write under their locks.  A call is
  refused and fails the cell closed, or changes nothing, or acts on an open
  cell in one of the ways of `Acts`; `perform_outcome` is the case analysis
  that every invariant of the cell starts from.
-/
import Rspm.Ws.Calls

namespace Rspm

/-- The locked contents of a cell. -/
structure Books where
  state : AuthenticatedUserWsState
  durableOutOfOrder : Finset ℕ
  droppedRanges : List (ℕ × ℕ)
  rawFrames : Std.TreeMap ℕ AuthenticatedUserRawFrame
  authorityPoisoned : Bool

/-- The reply hands something out: an authority, a sequence, or a `true`. -/
def Reply.grants : Reply → Bool
  | .bool b => b
  | .connection r => r.toOption.isSome
  | .floor r => r.isSome
  | .range r => r.isSome
  | .sequence r => r.isSome
  | .finalization r => r.isSome
  | .unit | .frames _ | .state _ => false

/-- The calls that are one `update` of the state. -/
def Op.transition (state : AuthenticatedUserWsState) :
    Op → Option (AuthenticatedUserWsState × Reply)
  | .markConnecting => some (state.markConnecting, .unit)
  | .tryMarkConnected => some (state.tryMarkConnected.1, .connection state.tryMarkConnected.2)
  | .markSubscriptionWritten generation =>
    some (state.markSubscriptionWritten generation, .unit)
  | .markServerLivenessProven generation =>
    some (state.markServerLivenessProven generation, .unit)
  | .markAuthenticatedRestProven token credentialAuthority =>
    some ((state.markAuthenticatedRestProven token credentialAuthority).1,
      .floor (state.markAuthenticatedRestProven token credentialAuthority).2)
  | .markDisconnected => some (state.markDisconnected, .unit)
  | .markSchemaGap => some (state.markSchemaGap, .unit)
  | .markDeliveryGap => some (state.markDeliveryGap, .unit)
  | .markConsumerClosed => some (state.markConsumerClosed, .unit)
  | .markEvidenceGap => some (state.markEvidenceGap, .unit)
  | .reserveTransportSequences eventCount =>
    if eventCount = 0 then none
    else some ((state.reserveTransportSequences eventCount).1,
      .range (state.reserveTransportSequences eventCount).2)
  | .reserveRawFrameSequence =>
    some (state.reserveRawFrameSequence.1, .sequence state.reserveRawFrameSequence.2)
  | .retainRawFrame evidence =>
    if evidence.frameSequence = 0 then some (state.markEvidenceGap, .bool false) else none
  | .markEnqueued range => some (state.markEnqueued range, .unit)
  | _ => none

/-- The calls that may find nothing to do. -/
def Op.mayRest : Op → Bool
  | .snapshot | .reserveRawFrameCapacity | .pendingRawFrames | .acknowledgeRawFrameDurable _
  | .acknowledgeDurable _ | .prepareCatchUpFinalization .. | .commitCatchUpFinalization _
  | .authorityMatches .. | .dropRawFrameCapacity | .poisonMutex _ => true
  | .reserveTransportSequences eventCount => eventCount == 0
  | _ => false

namespace StateCell

variable (cell : StateCell)

def books : Books :=
  ⟨cell.state, cell.durableOutOfOrder, cell.droppedRanges, cell.rawFrames, cell.authorityPoisoned⟩

/-- The lock is granted. -/
def isOpen : Prop := cell.authorityPoisoned = false ∧ cell.statePoisoned = false

instance : Decidable cell.isOpen := inferInstanceAs (Decidable (_ ∧ _))

/-- The ways in which a call acts on an open cell. -/
inductive Acts : Op → Books → Reply → Prop
  | update {op : Op} {state : AuthenticatedUserWsState} {r : Reply}
      (h : op.transition cell.state = some (state, r)) :
      Acts op { cell.books with state } r
  | retained {evidence : AuthenticatedUserRawFrame}
      (hz : evidence.frameSequence ≠ 0)
      (hn : cell.rawFrames.contains evidence.frameSequence = false) :
      Acts (.retainRawFrame evidence)
        { cell.books with
          rawFrames := cell.rawFrames.insert evidence.frameSequence evidence
          state := { cell.state with
            pendingRawFrameCount :=
              (cell.rawFrames.insert evidence.frameSequence evidence).size } }
        (.bool true)
  | replaced {evidence : AuthenticatedUserRawFrame}
      (hz : evidence.frameSequence ≠ 0)
      (hn : cell.rawFrames.contains evidence.frameSequence = true) :
      Acts (.retainRawFrame evidence)
        { cell.books with
          rawFrames := cell.rawFrames.insert evidence.frameSequence evidence
          state := { cell.state with
            pendingRawFrameCount :=
              (cell.rawFrames.insert evidence.frameSequence evidence).size
            evidenceGap := true }.advanceGapVersion.1 }
        (.bool false)
  | released {frameSequence : ℕ} (hn : cell.rawFrames.contains frameSequence = true) :
      Acts (.acknowledgeRawFrameDurable frameSequence)
        { cell.books with
          rawFrames := cell.rawFrames.erase frameSequence
          state := { cell.state with
            pendingRawFrameCount := (cell.rawFrames.erase frameSequence).size } }
        (.bool true)
  | strangerDropped {range : TransportSequenceRange} (hk : ¬ cell.state.knowsRange range) :
      Acts (.markDropped range)
        { cell.books with
          state := { cell.state with deliveryGap := true }.advanceGapVersion.1 }
        (.bool false)
  | dropped {range : TransportSequenceRange} {droppedRanges : List (ℕ × ℕ)}
      (hk : cell.state.knowsRange range)
      (hr : recordDrop cell.droppedRanges range = some droppedRanges) :
      Acts (.markDropped range)
        { cell.books with
          droppedRanges
          state := { cell.state with deliveryGap := true }.advanceGapVersion.1 }
        (.bool true)
  | dropOverflowed {range : TransportSequenceRange} (hk : cell.state.knowsRange range)
      (hr : recordDrop cell.droppedRanges range = none) :
      Acts (.markDropped range)
        { cell.books with
          state :=
            { cell.state with consumerClosed := true, deliveryGap := true }.advanceGapVersion.1 }
        (.bool false)
  | acknowledgeOverflowed {sequence : ℕ} (hd : cell.state.durableSequence < sequence)
      (ht : sequence ≤ cell.state.transportSequence)
      (hf : cell.durableOutOfOrder.card ≥ maxDurableOutOfOrder ∧
        sequence ∉ cell.durableOutOfOrder) :
      Acts (.acknowledgeDurable sequence)
        { cell.books with
          state :=
            { cell.state with consumerClosed := true, deliveryGap := true }.advanceGapVersion.1 }
        (.bool false)
  | acknowledged {sequence durableSequence : ℕ} {durableOutOfOrder : Finset ℕ} {exhausted : Bool}
      (hd : cell.state.durableSequence < sequence)
      (ht : sequence ≤ cell.state.transportSequence)
      (hf : ¬ (cell.durableOutOfOrder.card ≥ maxDurableOutOfOrder ∧
        sequence ∉ cell.durableOutOfOrder))
      (ha : advanceDurable cell.state.transportSequence
          (cell.state.transportSequence - cell.state.durableSequence) cell.state.durableSequence
          (insert sequence cell.durableOutOfOrder) =
        (durableSequence, durableOutOfOrder, exhausted)) :
      Acts (.acknowledgeDurable sequence)
        { cell.books with
          durableOutOfOrder
          state :=
            if exhausted then { cell.state with durableSequence }.failCounter .durableSequence
            else { cell.state with durableSequence } }
        (.bool (!exhausted))
  | installed {finalization : AuthenticatedUserCatchUpFinalization}
      (he : cell.expects finalization) :
      Acts (.commitCatchUpFinalization finalization)
        { cell.books with
          state := finalization.nextState
          durableOutOfOrder := finalization.nextDurableOutOfOrder
          droppedRanges := finalization.nextDroppedRanges }
        (.bool true)

/-- The replies of an open cell that change nothing. -/
inductive Answers : Op → Reply → Prop
  | nothing {op : Op} {r : Reply} (h : r.grants = false) (hm : op.mayRest = true) :
      Answers op r
  | capacity : Answers .reserveRawFrameCapacity (.bool true)
  | durable {sequence : ℕ} (hz : sequence ≠ 0) (hd : sequence ≤ cell.state.durableSequence) :
      Answers (.acknowledgeDurable sequence) (.bool true)
  | prepared {token : AuthenticatedUserRecoveryToken}
      {credentialAuthority : AuthenticatedCredentialAuthority}
      {transportWatermark minimumLivenessVersion : ℕ}
      {finalization : AuthenticatedUserCatchUpFinalization}
      (ha : cell.state.admitsCatchUp token credentialAuthority transportWatermark
        minimumLivenessVersion)
      (he : cell.expects finalization) :
      Answers
        (.prepareCatchUpFinalization token credentialAuthority transportWatermark
          minimumLivenessVersion)
        (.finalization (some finalization))
  | authority {token : AuthenticatedUserRecoveryToken}
      {credentialAuthority : AuthenticatedCredentialAuthority} {transportWatermark : ℕ}
      (ht : cell.state.recoveryToken = some token)
      (ha : cell.state.restCredentialAuthority = some credentialAuthority)
      (hw : cell.state.transportSequence = transportWatermark) (hr : cell.state.isReady) :
      Answers (.authorityMatches token credentialAuthority transportWatermark) (.bool true)

/-- What a call does to the books of a cell, and what it returns. -/
inductive Outcome (op : Op) : Books → Reply → Prop
  | refused {r : Reply} (h : r.grants = false)
      (hu : cell.isOpen → op.transition cell.state = none) :
      Outcome op cell.failClosedAfterPoison.books r
  | answers {r : Reply} (h : cell.Answers op r) : Outcome op cell.books r
  | acts {books : Books} {r : Reply} (ho : cell.isOpen) (h : cell.Acts op books r) :
      Outcome op books r

/-! ## The case analysis -/

variable {cell : StateCell}

/-- A lock is refused, and the cell fails closed, or the section runs. -/
theorem lock_cases {β : Type} (cell : StateCell) (refused : β) (body : StateCell → Locked β) :
    (¬ cell.isOpen ∧ (cell.lock refused body).cell.books = cell.failClosedAfterPoison.books ∧
        (cell.lock refused body).result = refused) ∨
      cell.isOpen ∧ cell.lock refused body = body cell := by
  unfold lock isOpen
  by_cases ha : cell.authorityPoisoned
  · left; simp [ha, publishPoisoned, Locked.map]
  by_cases hs : cell.statePoisoned
  · left; simp [ha, hs]
  · right; exact ⟨⟨by simpa using ha, by simpa using hs⟩, by simp [ha, hs]⟩

/-- An update is refused, or it installs the new state. -/
theorem update_cases {β : Type} (cell : StateCell)
    (f : AuthenticatedUserWsState → AuthenticatedUserWsState × β) :
    (¬ cell.isOpen ∧ (cell.update f).cell.books = cell.failClosedAfterPoison.books ∧
        (cell.update f).result = none) ∨
      cell.isOpen ∧ (cell.update f).cell.books = { cell.books with state := (f cell.state).1 } ∧
        (cell.update f).result = some (f cell.state).2 := by
  unfold update
  refine (cell.lock_cases none _).imp id ?_
  rintro ⟨ho, h⟩
  have hp := ho.1
  refine ⟨ho, ?_⟩
  rw [h]
  simp [hp, books]

theorem modify_cases (cell : StateCell)
    (f : AuthenticatedUserWsState → AuthenticatedUserWsState) :
    ¬ cell.isOpen ∧ (cell.modify f).cell.books = cell.failClosedAfterPoison.books ∨
      cell.isOpen ∧ (cell.modify f).cell.books = { cell.books with state := f cell.state } := by
  rcases cell.update_cases fun state => (f state, ()) with ⟨hc, h, -⟩ | ⟨ho, h, -⟩
  · exact .inl ⟨hc, h⟩
  · exact .inr ⟨ho, h⟩

/-- A call that is one `modify`. -/
theorem Outcome.of_modify {op : Op} {f : AuthenticatedUserWsState → AuthenticatedUserWsState}
    (ht : op.transition cell.state = some (f cell.state, .unit)) :
    cell.Outcome op (cell.modify f).cell.books .unit := by
  rcases cell.modify_cases f with ⟨hc, h⟩ | ⟨ho, h⟩
  · rw [h]; exact .refused rfl fun ho => absurd ho hc
  · rw [h]; exact .acts ho (.update ht)

/-- A call that is one `update` whose result is read through `g`. -/
theorem Outcome.of_update {β : Type} {op : Op} {g : Option β → Reply}
    {f : AuthenticatedUserWsState → AuthenticatedUserWsState × β} (hg : (g none).grants = false)
    (ht : op.transition cell.state = some ((f cell.state).1, g (some (f cell.state).2))) :
    cell.Outcome op (cell.update f).cell.books (g (cell.update f).result) := by
  rcases cell.update_cases f with ⟨hc, h, hr⟩ | ⟨ho, h, hr⟩
  · rw [h, hr]; exact .refused hg fun ho => absurd ho hc
  · rw [h, hr]; exact .acts ho (.update ht)

/-- A call that is one locked section whose result is read through `g`. -/
theorem Outcome.of_lock {β : Type} {op : Op} {refused : β} {g : β → Reply}
    {body : StateCell → Locked β} (hg : (g refused).grants = false)
    (hb : cell.isOpen → cell.Outcome op (body cell).cell.books (g (body cell).result)) :
    cell.Outcome op (cell.lock refused body).cell.books (g (cell.lock refused body).result) := by
  rcases cell.lock_cases refused body with ⟨hc, h, hr⟩ | ⟨ho, h⟩
  · rw [h, hr]; exact .refused hg fun ho => absurd ho hc
  · rw [h]; exact hb ho

/-- A section that finds a ledger mutex poisoned. -/
theorem Outcome.of_failUnderLock {β : Type} {op : Op} {refused : β} {g : β → Reply}
    (hg : (g refused).grants = false) (hu : op.transition cell.state = none) :
    cell.Outcome op (cell.failUnderLock refused).cell.books
      (g (cell.failUnderLock refused).result) :=
  .refused hg fun _ => hu

theorem retainRawFrame_outcome (cell : StateCell) (evidence : AuthenticatedUserRawFrame) :
    cell.Outcome (.retainRawFrame evidence) (cell.retainRawFrame evidence).cell.books
      (.bool (cell.retainRawFrame evidence).result) := by
  have hrelease : ∀ outcome : Locked Bool,
      (if outcome.result then outcome
        else { outcome with cell := outcome.cell.releaseCapacity }).cell.books =
          outcome.cell.books ∧
      (if outcome.result then outcome
        else { outcome with cell := outcome.cell.releaseCapacity }).result = outcome.result := by
    intro outcome; split_ifs <;> exact ⟨rfl, rfl⟩
  unfold retainRawFrame
  simp only [hrelease]
  split_ifs with hz
  · exact .of_update (g := fun _ => .bool false) rfl (by simp [Op.transition, hz])
  refine .of_lock (g := .bool) rfl fun ho => ?_
  cases hp : cell.rawFramesPoisoned with
  | true => exact .of_failUnderLock (g := .bool) rfl (by simp [Op.transition, hz])
  | false =>
    cases hn : cell.rawFrames.contains evidence.frameSequence with
    | false => simpa [hn, books] using Outcome.acts ho (.retained hz hn)
    | true => simpa [hn, books] using Outcome.acts ho (.replaced hz hn)

theorem acknowledgeRawFrameDurable_outcome (cell : StateCell) (frameSequence : ℕ) :
    cell.Outcome (.acknowledgeRawFrameDurable frameSequence)
      (cell.acknowledgeRawFrameDurable frameSequence).cell.books
      (.bool (cell.acknowledgeRawFrameDurable frameSequence).result) := by
  refine .of_lock (g := .bool) rfl fun ho => ?_
  split_ifs with hp hn
  · exact .of_failUnderLock (g := .bool) rfl rfl
  · exact .acts ho (.released hn)
  · exact .answers (.nothing rfl rfl)

theorem markDropped_outcome (cell : StateCell) (range : TransportSequenceRange) :
    cell.Outcome (.markDropped range) (cell.markDropped range).cell.books
      (.bool (cell.markDropped range).result) := by
  refine .of_lock (g := .bool) rfl fun ho => ?_
  by_cases hk : cell.state.knowsRange range
  · rw [if_neg (not_not.2 hk)]
    cases hp : cell.droppedPoisoned with
    | true => exact .of_failUnderLock (g := .bool) rfl rfl
    | false =>
      cases hr : recordDrop cell.droppedRanges range with
      | some droppedRanges => exact .acts ho (.dropped hk hr)
      | none => exact .acts ho (.dropOverflowed hk hr)
  · rw [if_pos hk]; exact .acts ho (.strangerDropped hk)

theorem acknowledgeDurable_outcome (cell : StateCell) (sequence : ℕ) :
    cell.Outcome (.acknowledgeDurable sequence) (cell.acknowledgeDurable sequence).cell.books
      (.bool (cell.acknowledgeDurable sequence).result) := by
  refine .of_lock (g := .bool) rfl fun ho => ?_
  by_cases h0 : sequence = 0 ∨ sequence > cell.state.transportSequence
  · simp only [if_pos h0]; exact .answers (.nothing rfl rfl)
  by_cases hd : sequence ≤ cell.state.durableSequence
  · simp only [if_neg h0, if_pos hd]; exact .answers (.durable (fun h => h0 (.inl h)) hd)
  simp only [if_neg h0, if_neg hd]
  rw [not_or, not_lt] at h0
  rw [not_le] at hd
  by_cases hp : cell.durablePoisoned
  · simp only [if_pos hp]; exact .of_failUnderLock (g := .bool) rfl rfl
  simp only [if_neg hp]
  by_cases hf : cell.durableOutOfOrder.card ≥ maxDurableOutOfOrder ∧
      sequence ∉ cell.durableOutOfOrder
  · simp only [if_pos hf]; exact .acts ho (.acknowledgeOverflowed hd h0.2 hf)
  simp only [if_neg hf]
  exact .acts ho (.acknowledged hd h0.2 hf rfl)

theorem finalizeCatchUp_expects {token : AuthenticatedUserRecoveryToken}
    {credentialAuthority : AuthenticatedCredentialAuthority}
    {transportWatermark minimumLivenessVersion : ℕ}
    {h : cell.state.admitsCatchUp token credentialAuthority transportWatermark
      minimumLivenessVersion} {finalization : AuthenticatedUserCatchUpFinalization}
    (hf : cell.finalizeCatchUp h = some finalization) : cell.expects finalization := by
  unfold finalizeCatchUp at hf
  split at hf
  · cases hf
  · split_ifs at hf
    obtain rfl := Option.some.inj hf
    exact ⟨rfl, rfl, rfl⟩

theorem prepareCatchUpFinalization_outcome (cell : StateCell)
    (token : AuthenticatedUserRecoveryToken)
    (credentialAuthority : AuthenticatedCredentialAuthority)
    (transportWatermark minimumLivenessVersion : ℕ) :
    cell.Outcome
      (.prepareCatchUpFinalization token credentialAuthority transportWatermark
        minimumLivenessVersion)
      (cell.prepareCatchUpFinalization token credentialAuthority transportWatermark
        minimumLivenessVersion).cell.books
      (.finalization (cell.prepareCatchUpFinalization token credentialAuthority
        transportWatermark minimumLivenessVersion).result) := by
  refine .of_lock (g := .finalization) rfl fun ho => ?_
  split_ifs with ha hd hp
  · exact .of_failUnderLock (g := .finalization) rfl rfl
  · exact .of_failUnderLock (g := .finalization) rfl rfl
  · cases hf : cell.finalizeCatchUp ha with
    | none => exact .answers (.nothing rfl rfl)
    | some finalization => exact .answers (.prepared ha (finalizeCatchUp_expects hf))
  · exact .answers (.nothing rfl rfl)

theorem commitCatchUpFinalization_outcome (cell : StateCell)
    (finalization : AuthenticatedUserCatchUpFinalization) :
    cell.Outcome (.commitCatchUpFinalization finalization)
      (cell.commitCatchUpFinalization finalization).cell.books
      (.bool (cell.commitCatchUpFinalization finalization).result) := by
  refine .of_lock (g := .bool) rfl fun ho => ?_
  split_ifs with hd hp he
  · exact .of_failUnderLock (g := .bool) rfl rfl
  · exact .of_failUnderLock (g := .bool) rfl rfl
  · exact .acts ho (.installed he)
  · exact .answers (.nothing rfl rfl)

/-- A snapshot fails a poisoned cell closed, and reads the state of an open one. -/
theorem snapshot_cases (cell : StateCell) :
    ((cell.snapshot).cell.books = cell.failClosedAfterPoison.books ∧
        cell.snapshot.result = cell.failClosedAfterPoison.state) ∨
      cell.isOpen ∧ cell.snapshot = ⟨cell, none, cell.state⟩ := by
  unfold snapshot
  by_cases hs : cell.statePoisoned
  · left; simp [hs]
  by_cases ha : cell.authorityPoisoned
  · left; rw [if_neg hs, if_pos ha]; exact ⟨rfl, rfl⟩
  · right; exact ⟨⟨by simpa using ha, by simpa using hs⟩, by simp [ha, hs]⟩

theorem authorityMatches_outcome (cell : StateCell) (token : AuthenticatedUserRecoveryToken)
    (credentialAuthority : AuthenticatedCredentialAuthority) (transportWatermark : ℕ) :
    cell.Outcome (.authorityMatches token credentialAuthority transportWatermark)
      (cell.authorityMatches token credentialAuthority transportWatermark).cell.books
      (.bool (cell.authorityMatches token credentialAuthority transportWatermark).result) := by
  unfold authorityMatches Locked.map
  rcases cell.snapshot_cases with ⟨h, hr⟩ | ⟨ho, h⟩
  · rw [h, hr]
    refine .refused (decide_eq_false fun hm => ?_) fun _ => rfl
    have hc := ((AuthenticatedUserWsState.recoveryToken_eq_some _).1 hm.1).1
    rw [cell.failClosedAfterPoison_closed.connection] at hc
    cases hc
  · rw [h]
    by_cases hm : cell.state.recoveryToken = some token ∧
        cell.state.restCredentialAuthority = some credentialAuthority ∧
        cell.state.transportSequence = transportWatermark ∧ cell.state.isReady
    · simp only [decide_eq_true hm]
      obtain ⟨ht, ha, hw, hr⟩ := hm
      exact .answers (.authority ht ha hw hr)
    · simp only [decide_eq_false hm]; exact .answers (.nothing rfl rfl)

/-- Every call is refused, or it answers, or it acts. -/
theorem perform_outcome (cell : StateCell) (op : Op) :
    cell.Outcome op (cell.perform op).cell.books (cell.perform op).result := by
  cases op with
  | markAuthorityPoisoned => exact .refused rfl fun _ => rfl
  | snapshot =>
    rcases cell.snapshot_cases with ⟨h, -⟩ | ⟨-, h⟩
    · simp only [perform, Locked.map, h]; exact .refused rfl fun _ => rfl
    · simp only [perform, Locked.map, h]; exact .answers (.nothing rfl rfl)
  | markConnecting => exact .of_modify rfl
  | tryMarkConnected =>
    exact .of_update (g := fun r => .connection (r.getD (.error .generation))) rfl rfl
  | markSubscriptionWritten _ => exact .of_modify rfl
  | markServerLivenessProven _ => exact .of_modify rfl
  | markAuthenticatedRestProven _ _ => exact .of_update (g := fun r => .floor r.join) rfl rfl
  | markDisconnected => exact .of_modify rfl
  | markSchemaGap => exact .of_modify rfl
  | markDeliveryGap => exact .of_modify rfl
  | markConsumerClosed => exact .of_modify rfl
  | markEvidenceGap => exact .of_modify rfl
  | reserveTransportSequences eventCount =>
    by_cases h0 : eventCount = 0
    · simp only [perform, reserveTransportSequences, if_pos h0]
      exact .answers (.nothing rfl (by simp [Op.mayRest, h0]))
    · simp only [perform, reserveTransportSequences, if_neg h0]
      exact .of_update (g := fun r => .range r.join) rfl (by simp [Op.transition, h0])
  | reserveRawFrameCapacity =>
    simp only [perform, reserveRawFrameCapacity]
    split_ifs
    · exact .answers (.nothing rfl rfl)
    · exact .answers .capacity
  | reserveRawFrameSequence => exact .of_update (g := fun r => .sequence r.join) rfl rfl
  | retainRawFrame evidence => exact cell.retainRawFrame_outcome evidence
  | pendingRawFrames =>
    simp only [perform, pendingRawFrames]
    split_ifs
    · exact .refused rfl fun _ => rfl
    · exact .answers (.nothing rfl rfl)
  | acknowledgeRawFrameDurable frameSequence =>
    exact cell.acknowledgeRawFrameDurable_outcome frameSequence
  | markEnqueued _ => exact .of_modify rfl
  | markDropped range => exact cell.markDropped_outcome range
  | acknowledgeDurable sequence => exact cell.acknowledgeDurable_outcome sequence
  | prepareCatchUpFinalization token credentialAuthority transportWatermark floor =>
    exact cell.prepareCatchUpFinalization_outcome token credentialAuthority transportWatermark
      floor
  | commitCatchUpFinalization finalization =>
    exact cell.commitCatchUpFinalization_outcome finalization
  | authorityMatches token credentialAuthority transportWatermark =>
    exact cell.authorityMatches_outcome token credentialAuthority transportWatermark
  | dropRawFrameCapacity => exact .answers (.nothing rfl rfl)
  | poisonMutex mutex => cases mutex <;> exact .answers (.nothing rfl rfl)

end StateCell

end Rspm
