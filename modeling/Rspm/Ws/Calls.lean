/-
  The calls of a state cell, as a machine.

  `Op` lists the methods, each one call, and the two things that happen to a
  cell from outside: a capacity permit that its holder drops, and a mutex that
  a panicking holder poisons.
-/
import Rspm.Lib.Machine
import Rspm.Ws.Recovery

namespace Rspm

inductive CellMutex where
  | state | durableOutOfOrder | droppedRanges | rawFrames
deriving DecidableEq

inductive Op where
  | markAuthorityPoisoned
  | snapshot
  | markConnecting
  | tryMarkConnected
  | markSubscriptionWritten (generation : ℕ)
  | markServerLivenessProven (generation : ℕ)
  | markAuthenticatedRestProven (token : AuthenticatedUserRecoveryToken)
      (credentialAuthority : AuthenticatedCredentialAuthority)
  | markDisconnected
  | markSchemaGap
  | markDeliveryGap
  | markConsumerClosed
  | markEvidenceGap
  | reserveTransportSequences (eventCount : ℕ)
  | reserveRawFrameCapacity
  | reserveRawFrameSequence
  | retainRawFrame (evidence : AuthenticatedUserRawFrame)
  | pendingRawFrames
  | acknowledgeRawFrameDurable (frameSequence : ℕ)
  | markEnqueued (range : TransportSequenceRange)
  | markDropped (range : TransportSequenceRange)
  | acknowledgeDurable (sequence : ℕ)
  | prepareCatchUpFinalization (token : AuthenticatedUserRecoveryToken)
      (credentialAuthority : AuthenticatedCredentialAuthority)
      (transportWatermark minimumLivenessVersion : ℕ)
  | commitCatchUpFinalization (finalization : AuthenticatedUserCatchUpFinalization)
  | authorityMatches (token : AuthenticatedUserRecoveryToken)
      (credentialAuthority : AuthenticatedCredentialAuthority) (transportWatermark : ℕ)
  | dropRawFrameCapacity
  | poisonMutex (mutex : CellMutex)

/-- What a call returns. -/
inductive Reply where
  | unit
  | bool (b : Bool)
  | connection (r : Except AuthenticatedUserCounterExhaustion ℕ)
  | floor (r : Option ℕ)
  | range (r : Option TransportSequenceRange)
  | sequence (r : Option ℕ)
  | frames (r : List AuthenticatedUserRawFrame)
  | state (r : AuthenticatedUserWsState)
  | finalization (r : Option AuthenticatedUserCatchUpFinalization)

namespace StateCell

variable (cell : StateCell)

def poison : CellMutex → StateCell
  | .state => { cell with statePoisoned := true }
  | .durableOutOfOrder => { cell with durablePoisoned := true }
  | .droppedRanges => { cell with droppedPoisoned := true }
  | .rawFrames => { cell with rawFramesPoisoned := true }

/-- The locked section of a call. -/
def perform : Op → Locked Reply
  | .markAuthorityPoisoned => cell.markAuthorityPoisoned.map fun _ => .unit
  | .snapshot => cell.snapshot.map .state
  | .markConnecting => cell.markConnecting.map fun _ => .unit
  | .tryMarkConnected => cell.tryMarkConnected.map .connection
  | .markSubscriptionWritten generation =>
    (cell.markSubscriptionWritten generation).map fun _ => .unit
  | .markServerLivenessProven generation =>
    (cell.markServerLivenessProven generation).map fun _ => .unit
  | .markAuthenticatedRestProven token credentialAuthority =>
    (cell.markAuthenticatedRestProven token credentialAuthority).map .floor
  | .markDisconnected => cell.markDisconnected.map fun _ => .unit
  | .markSchemaGap => cell.markSchemaGap.map fun _ => .unit
  | .markDeliveryGap => cell.markDeliveryGap.map fun _ => .unit
  | .markConsumerClosed => cell.markConsumerClosed.map fun _ => .unit
  | .markEvidenceGap => cell.markEvidenceGap.map fun _ => .unit
  | .reserveTransportSequences eventCount =>
    (cell.reserveTransportSequences eventCount).map .range
  | .reserveRawFrameCapacity => cell.reserveRawFrameCapacity.map .bool
  | .reserveRawFrameSequence => cell.reserveRawFrameSequence.map .sequence
  | .retainRawFrame evidence => (cell.retainRawFrame evidence).map .bool
  | .pendingRawFrames => cell.pendingRawFrames.map .frames
  | .acknowledgeRawFrameDurable frameSequence =>
    (cell.acknowledgeRawFrameDurable frameSequence).map .bool
  | .markEnqueued range => (cell.markEnqueued range).map fun _ => .unit
  | .markDropped range => (cell.markDropped range).map .bool
  | .acknowledgeDurable sequence => (cell.acknowledgeDurable sequence).map .bool
  | .prepareCatchUpFinalization token credentialAuthority transportWatermark
      minimumLivenessVersion =>
    (cell.prepareCatchUpFinalization token credentialAuthority transportWatermark
      minimumLivenessVersion).map .finalization
  | .commitCatchUpFinalization finalization =>
    (cell.commitCatchUpFinalization finalization).map .bool
  | .authorityMatches token credentialAuthority transportWatermark =>
    (cell.authorityMatches token credentialAuthority transportWatermark).map .bool
  | .dropRawFrameCapacity => ⟨cell.releaseCapacity, none, .unit⟩
  | .poisonMutex mutex => ⟨cell.poison mutex, none, .unit⟩

end StateCell

/-- The machine of a cell whose callers run one after another. -/
def cellMachine : Machine StateCell Op Reply := ⟨fun cell op => (cell.perform op).settle⟩

abbrev CellCall := cellMachine.Call

/-- Finalizations are opaque to callers: one that is committed was prepared before. -/
def Op.available (cs : List CellCall) : Op → Prop
  | .commitCatchUpFinalization finalization => ∃ c ∈ cs, c.out = .finalization (some finalization)
  | _ => True

/-- The runs of a new cell. -/
abbrev CellRun (credentialIdentity : AuthenticatedCredentialIdentity) :
    List CellCall → StateCell → Prop :=
  Machine.Run cellMachine Op.available (StateCell.newWithIdentity credentialIdentity)

/-! ## Runs of given calls -/

/-- The new cell after the calls. -/
def cellAfter (ops : List Op) : StateCell := cellMachine.exec (.newWithIdentity {}) ops

theorem cellAfter_run {ops : List Op} (hfree : ∀ op ∈ ops, ∀ cs, op.available cs) :
    CellRun {} (cellMachine.calls (.newWithIdentity {}) ops) (cellAfter ops) :=
  .of_inputs (.of_forall hfree _ _)

/-! ## A recovery, call by call -/

/-- A credential authority of the default identity. -/
def sampleAuthority (generation : ℕ) : AuthenticatedCredentialAuthority :=
  ⟨{}, generation + 1, Nat.succ_ne_zero generation⟩

/-- A new channel up to its first PONG; one event came and was stored. -/
def recoverySetup : List Op :=
  [.tryMarkConnected, .markSubscriptionWritten 1, .markServerLivenessProven 1,
    .reserveTransportSequences 1, .acknowledgeDurable 1]

def recoveryProof : Op := .markAuthenticatedRestProven ⟨1, 1, {}⟩ (sampleAuthority 0)

/-- The setup, the REST proof, a PONG, and the calls `during`. -/
def recoveryOps (during : List Op) : List Op :=
  recoverySetup ++ recoveryProof :: .markServerLivenessProven 1 :: during

/-- The call that records the REST proof. -/
def recoveryMark : CellCall :=
  ⟨cellMachine.exec (.newWithIdentity {}) recoverySetup, recoveryProof⟩

theorem recovery_calls (during : List Op) :
    cellMachine.calls (.newWithIdentity {}) (recoveryOps during) =
      cellMachine.calls (.newWithIdentity {}) recoverySetup ++ recoveryMark ::
        cellMachine.calls recoveryMark.post (.markServerLivenessProven 1 :: during) :=
  Machine.calls_append _ _ _ _

def recoveryCell (during : List Op) : StateCell :=
  cellMachine.exec (.newWithIdentity {}) (recoveryOps during)

/-- The preparation that follows, with the gap version that its token names. -/
def recoveryPrepare (during : List Op) (gapVersion : ℕ) : CellCall :=
  ⟨recoveryCell during, .prepareCatchUpFinalization ⟨1, gapVersion, {}⟩ (sampleAuthority 0) 1 1⟩

def recoveryFinalization (during : List Op) (gapVersion : ℕ) :
    Option AuthenticatedUserCatchUpFinalization :=
  ((recoveryCell during).prepareCatchUpFinalization ⟨1, gapVersion, {}⟩ (sampleAuthority 0)
    1 1).result

def recoveryCommit (during : List Op) (gapVersion : ℕ)
    (f : AuthenticatedUserCatchUpFinalization) : CellCall :=
  ⟨(recoveryPrepare during gapVersion).post, .commitCatchUpFinalization f⟩

theorem recoveryPrepare_out {during : List Op} {gapVersion : ℕ}
    {f : AuthenticatedUserCatchUpFinalization}
    (hf : recoveryFinalization during gapVersion = some f) :
    (recoveryPrepare during gapVersion).out = .finalization (some f) :=
  congrArg Reply.finalization hf

/-- Calls that are always available, then a preparation and the commit of what it returned. -/
theorem prepared_run {ops : List Op} {prepare : Op} {f : AuthenticatedUserCatchUpFinalization}
    (hops : ∀ op ∈ ops, ∀ cs, op.available cs) (hprepare : ∀ cs, prepare.available cs)
    (hf : (⟨cellMachine.exec (.newWithIdentity {}) ops, prepare⟩ : CellCall).out =
      .finalization (some f)) :
    CellRun {} (cellMachine.calls (.newWithIdentity {}) ops ++
      [⟨cellMachine.exec (.newWithIdentity {}) ops, prepare⟩] ++
      [⟨(⟨cellMachine.exec (.newWithIdentity {}) ops, prepare⟩ : CellCall).post,
        .commitCatchUpFinalization f⟩])
      (⟨(⟨cellMachine.exec (.newWithIdentity {}) ops, prepare⟩ : CellCall).post,
        .commitCatchUpFinalization f⟩ : CellCall).post := by
  have hrun : CellRun {} (cellMachine.calls (.newWithIdentity {}) ops)
      (cellMachine.exec (.newWithIdentity {}) ops) := .of_inputs (.of_forall hops _ _)
  have hprepared := hrun.snoc (i := prepare) (hprepare _)
  refine hprepared.snoc (i := .commitCatchUpFinalization f) ?_
  exact ⟨_, List.mem_append_right _ (List.mem_singleton_self _), hf⟩

theorem recovery_run {during : List Op} {gapVersion : ℕ}
    {f : AuthenticatedUserCatchUpFinalization} (hd : ∀ op ∈ during, ∀ cs, op.available cs)
    (hf : recoveryFinalization during gapVersion = some f) :
    CellRun {} (cellMachine.calls (.newWithIdentity {}) (recoveryOps during) ++
      [recoveryPrepare during gapVersion] ++ [recoveryCommit during gapVersion f])
      (recoveryCommit during gapVersion f).post := by
  have hfree : ∀ op ∈ recoveryOps during, ∀ cs, op.available cs := by
    simpa [recoveryOps, recoverySetup, recoveryProof, Op.available] using hd
  exact prepared_run hfree (fun _ => trivial) (recoveryPrepare_out hf)

end Rspm
