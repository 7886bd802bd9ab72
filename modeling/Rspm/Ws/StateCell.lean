/-
  The state cell: the owner of recovery, gap, durability and readiness state.

  Every method is a locked section followed by the `send_replace` of the
  snapshot it took.  `Locked` is the outcome of the section: the cell it
  leaves, the snapshot that is still to be sent after the unlock (a section
  that sends while it holds the lock has already replaced `stateTx`), and the
  value the method returns.  `Locked.settle` is the method run to its end.

  The mutexes of the source may be poisoned by a panicking holder; the cell
  keeps one flag for each.
-/
import Rspm.Ws.State
import Rspm.Ws.Frame

namespace Rspm

def eventChannelCapacity : ℕ := 256
def maxDurableOutOfOrder : ℕ := eventChannelCapacity * 4
def maxDroppedRanges : ℕ := 1
def maxPendingRawFrames : ℕ := eventChannelCapacity * 4

structure TransportSequenceRange where
  first : ℕ
  last : ℕ
deriving DecidableEq

structure StateCell where
  state : AuthenticatedUserWsState
  authorityPoisoned : Bool := false
  durableOutOfOrder : Finset ℕ := ∅
  droppedRanges : List (ℕ × ℕ) := []
  rawFrames : Std.TreeMap ℕ AuthenticatedUserRawFrame := ∅
  /-- the permits left in `raw_frame_capacity`; a retained frame holds one -/
  rawFrameCapacity : ℕ := maxPendingRawFrames
  /-- the value of the watch channel -/
  stateTx : AuthenticatedUserWsState
  statePoisoned : Bool := false
  durablePoisoned : Bool := false
  droppedPoisoned : Bool := false
  rawFramesPoisoned : Bool := false

/-- The outcome of a locked section. -/
structure Locked (β : Type) where
  cell : StateCell
  unsent : Option AuthenticatedUserWsState
  result : β

namespace Locked
variable {β γ : Type}

def map (f : β → γ) (l : Locked β) : Locked γ := ⟨l.cell, l.unsent, f l.result⟩

/-- The section, then `state_tx.send_replace` of its snapshot. -/
def settle (l : Locked β) : StateCell × β :=
  (match l.unsent with
    | some snapshot => { l.cell with stateTx := snapshot }
    | none => l.cell,
   l.result)

end Locked

namespace StateCell

def newWithIdentity (credentialIdentity : AuthenticatedCredentialIdentity) : StateCell where
  state := { credentialIdentity }
  stateTx := { credentialIdentity }

variable (cell : StateCell)

/-- `fail_closed_after_poison`: only the first poison advances the gap version. -/
def failClosedAfterPoison : StateCell :=
  let firstPoison := !cell.authorityPoisoned
  let state := { cell.state with
    connection := .disconnected
    authentication := .inactive
    subscription := .inactive
    schemaGap := true
    deliveryGap := true
    consumerClosed := true
    evidenceGap := true
    authorityPoisoned := true
    catchUpGeneration := none
    restProofGeneration := none
    restCredentialAuthority := none
    restProofLivenessFloor := none }
  { cell with
    authorityPoisoned := true
    state := if firstPoison then state.advanceGapVersion.1 else state }

theorem failClosedAfterPoison_closed : cell.failClosedAfterPoison.state.Closed := by
  cases h : cell.authorityPoisoned with
  | true =>
    simp only [failClosedAfterPoison, h, Bool.not_true, Bool.false_eq_true, if_false]
    exact ⟨rfl, rfl, rfl, rfl, rfl, rfl, rfl, rfl, rfl, rfl, .inl rfl⟩
  | false =>
    simp only [failClosedAfterPoison, h, Bool.not_false, if_true]
    rcases AuthenticatedUserWsState.advanceGapVersion_cases _ with ⟨-, h⟩ | ⟨-, h⟩ <;> rw [h]
    · exact ⟨rfl, rfl, rfl, rfl, rfl, rfl, rfl, rfl, rfl, rfl, .inl rfl⟩
    · exact AuthenticatedUserWsState.failCounter_closed _ _

/-- Both arms of the source recover the guard, fail closed and send after the unlock. -/
def publishPoisoned : Locked Unit :=
  let cell := cell.failClosedAfterPoison
  ⟨cell, some cell.state, ()⟩

def markAuthorityPoisoned : Locked Unit := cell.publishPoisoned

/-- The arm of a section that finds a ledger mutex poisoned: it fails closed
    and sends while it still holds the state lock. -/
def failUnderLock {β : Type} (refused : β) : Locked β :=
  let cell := cell.failClosedAfterPoison
  ⟨{ cell with stateTx := cell.state }, none, refused⟩

/-- `lock`, with the value the caller returns when the lock is refused. -/
def lock {β : Type} (refused : β) (body : StateCell → Locked β) : Locked β :=
  if cell.authorityPoisoned then cell.publishPoisoned.map fun _ => refused
  else if cell.statePoisoned then
    let cell := cell.failClosedAfterPoison
    ⟨cell, some cell.state, refused⟩
  else body cell

/-- `update`: `none` where the source returns `false`, else what the closure captured. -/
def update {β : Type} (f : AuthenticatedUserWsState → AuthenticatedUserWsState × β) :
    Locked (Option β) :=
  cell.lock none fun cell =>
    let (state, captured) := f cell.state
    let cell := { cell with state }
    let cell := if cell.authorityPoisoned then cell.failClosedAfterPoison else cell
    ⟨cell, some cell.state, if cell.authorityPoisoned then none else some captured⟩

/-- An `update` whose closure captures nothing and whose result is not used. -/
def modify (f : AuthenticatedUserWsState → AuthenticatedUserWsState) : Locked Unit :=
  (cell.update fun state => (f state, ())).map fun _ => ()

/-- `snapshot`: a poisoned state mutex is published after the unlock, a set flag under it. -/
def snapshot : Locked AuthenticatedUserWsState :=
  if cell.statePoisoned then
    let cell := cell.failClosedAfterPoison
    ⟨cell, some cell.state, cell.state⟩
  else if cell.authorityPoisoned then
    let cell := cell.failClosedAfterPoison
    ⟨{ cell with stateTx := cell.state }, none, cell.state⟩
  else ⟨cell, none, cell.state⟩

end StateCell

/-! ## The connection lifecycle -/

namespace AuthenticatedUserWsState

variable (state : AuthenticatedUserWsState)

/-- The REST proof is dropped. -/
def clearRestProof : AuthenticatedUserWsState :=
  { state with
    restProofGeneration := none
    restCredentialAuthority := none
    restProofLivenessFloor := none }

def markConnecting : AuthenticatedUserWsState :=
  if state.counterExhaustion.isSome then state
  else
    { state.clearRestProof with
      connection := .connecting
      authentication := .inactive
      subscription := .inactive }

def tryMarkConnected :
    AuthenticatedUserWsState × Except AuthenticatedUserCounterExhaustion ℕ :=
  match state.counterExhaustion with
  | some exhaustion => (state, .error exhaustion)
  | none =>
    match checkedAdd state.generation 1 with
    | none => (state.failCounter .generation, .error .generation)
    | some next =>
      let state := { state.clearRestProof with
        generation := next
        connection := .connected
        authentication := .inactive
        subscription := .inactive
        catchUpGeneration := none
        -- a new socket is untrusted until a REST catch-up attests this generation
        evidenceGap := true }
      let (state, advanced) := state.advanceGapVersion
      if !advanced then (state, .error .gapVersion) else (state, .ok next)

def markSubscriptionWritten (generation : ℕ) : AuthenticatedUserWsState :=
  if state.generation = generation ∧ state.connection = .connected then
    { state with
      authentication := .credentialsSubmitted
      subscription := .awaitingServerProof }
  else state

/-- The calls of `mark_server_liveness_proven` that count as a PONG of the connected socket. -/
def acceptsPong (generation : ℕ) : Prop :=
  state.generation = generation ∧ state.connection = .connected ∧
    state.authentication = .credentialsSubmitted ∧
    (state.subscription = .awaitingServerProof ∨ state.subscription = .serverResponsive)

instance (generation : ℕ) : Decidable (state.acceptsPong generation) :=
  inferInstanceAs (Decidable (_ ∧ _))

def markServerLivenessProven (generation : ℕ) : AuthenticatedUserWsState :=
  if state.acceptsPong generation then
    match checkedAdd state.livenessVersion 1 with
    | none => state.failCounter .liveness
    | some next => { state with livenessVersion := next, subscription := .serverResponsive }
  else state

def markAuthenticatedRestProven (token : AuthenticatedUserRecoveryToken)
    (credentialAuthority : AuthenticatedCredentialAuthority) :
    AuthenticatedUserWsState × Option ℕ :=
  if state.recoveryToken = some token ∧
      token.credentialIdentity = credentialAuthority.identity ∧
      state.subscription = .serverResponsive then
    ({ state with
        restProofGeneration := some token.generation
        restCredentialAuthority := some credentialAuthority
        restProofLivenessFloor := some state.livenessVersion
        subscription := .awaitingServerProof },
      some state.livenessVersion)
  else (state, none)

def markDisconnected : AuthenticatedUserWsState :=
  { state.clearRestProof with
    connection := .disconnected
    authentication := .inactive
    subscription := .inactive
    catchUpGeneration := none
    evidenceGap := true }.advanceGapVersion.1

/-! ## Gaps -/

/-- What `mark_schema_gap`, `mark_delivery_gap`, `mark_consumer_closed` and
    `mark_evidence_gap` do after they set their flags. -/
def reopenProof : AuthenticatedUserWsState :=
  { state.clearRestProof with subscription := .awaitingServerProof }.advanceGapVersion.1

def markSchemaGap : AuthenticatedUserWsState := { state with schemaGap := true }.reopenProof

def markDeliveryGap : AuthenticatedUserWsState := { state with deliveryGap := true }.reopenProof

def markConsumerClosed : AuthenticatedUserWsState :=
  { state with consumerClosed := true, deliveryGap := true }.reopenProof

def markEvidenceGap : AuthenticatedUserWsState := { state with evidenceGap := true }.reopenProof

/-! ## Sequences -/

def reserveTransportSequences (eventCount : ℕ) :
    AuthenticatedUserWsState × Option TransportSequenceRange :=
  match checkedAdd state.transportSequence 1 with
  | none => (state.failCounter .transportSequence, none)
  | some next =>
    -- the count is not zero here, so `checked_sub(1)` cannot fail
    match checkedAdd next (eventCount - 1) with
    | none => (state.failCounter .transportSequence, none)
    | some last => ({ state with transportSequence := last }, some ⟨next, last⟩)

def reserveRawFrameSequence : AuthenticatedUserWsState × Option ℕ :=
  match checkedAdd state.rawFrameSequence 1 with
  | none => (state.failCounter .rawFrameSequence, none)
  | some next => ({ state with rawFrameSequence := next }, some next)

/-- A range that the source takes for one it has handed out. -/
def knowsRange (range : TransportSequenceRange) : Prop :=
  range.first ≠ 0 ∧ range.first ≤ range.last ∧ range.last ≤ state.transportSequence

instance (range : TransportSequenceRange) : Decidable (state.knowsRange range) :=
  inferInstanceAs (Decidable (_ ∧ _))

def markEnqueued (range : TransportSequenceRange) : AuthenticatedUserWsState :=
  if state.knowsRange range then
    { state with enqueuedSequence := max state.enqueuedSequence range.last }
  else { state with deliveryGap := true }.advanceGapVersion.1

end AuthenticatedUserWsState

namespace StateCell

variable (cell : StateCell)

def markConnecting : Locked Unit := cell.modify (·.markConnecting)

def tryMarkConnected : Locked (Except AuthenticatedUserCounterExhaustion ℕ) :=
  (cell.update (·.tryMarkConnected)).map (·.getD (.error .generation))

def markSubscriptionWritten (generation : ℕ) : Locked Unit :=
  cell.modify (·.markSubscriptionWritten generation)

def markServerLivenessProven (generation : ℕ) : Locked Unit :=
  cell.modify (·.markServerLivenessProven generation)

/-- The liveness floor of a recorded proof. -/
def markAuthenticatedRestProven (token : AuthenticatedUserRecoveryToken)
    (credentialAuthority : AuthenticatedCredentialAuthority) : Locked (Option ℕ) :=
  (cell.update (·.markAuthenticatedRestProven token credentialAuthority)).map (·.join)

def markDisconnected : Locked Unit := cell.modify (·.markDisconnected)

def markSchemaGap : Locked Unit := cell.modify (·.markSchemaGap)

def markDeliveryGap : Locked Unit := cell.modify (·.markDeliveryGap)

def markConsumerClosed : Locked Unit := cell.modify (·.markConsumerClosed)

def markEvidenceGap : Locked Unit := cell.modify (·.markEvidenceGap)

/-- An empty reservation returns before it takes the lock. -/
def reserveTransportSequences (eventCount : ℕ) : Locked (Option TransportSequenceRange) :=
  if eventCount = 0 then ⟨cell, none, none⟩
  else (cell.update (·.reserveTransportSequences eventCount)).map (·.join)

end StateCell

end Rspm
