/-
  Authenticated catch-up: preparation, and the compare-and-set that commits it.
-/
import Rspm.Ws.Ledger

namespace Rspm

/-- The loop of `prepare_catch_up_finalization`: the durable frontier eats acknowledged
    sequences and dropped ranges; `none` is the early return on an exhausted counter.
    Every turn moves the frontier or takes a range away, which `fuel` counts. -/
def catchUpFrontier (transportWatermark : ℕ) :
    ℕ → ℕ → Finset ℕ → List (ℕ × ℕ) → Option (ℕ × Finset ℕ × List (ℕ × ℕ))
  | 0, durableSequence, nextDurable, nextDropped =>
    some (durableSequence, nextDurable, nextDropped)
  | fuel + 1, durableSequence, nextDurable, nextDropped =>
    if durableSequence ≥ transportWatermark then
      some (durableSequence, nextDurable, nextDropped)
    else
      match StateCell.nextDurableSequence durableSequence with
      | .error _ => none
      | .ok next =>
        if next ∈ nextDurable then
          catchUpFrontier transportWatermark fuel next (nextDurable.erase next) nextDropped
        else
          match nextDropped with
          | [] => some (durableSequence, nextDurable, [])
          | (first, last) :: rest =>
            if next < first then some (durableSequence, nextDurable, (first, last) :: rest)
            else if next ≤ last then
              catchUpFrontier transportWatermark fuel (min last transportWatermark)
                nextDurable rest
            else catchUpFrontier transportWatermark fuel durableSequence nextDurable rest

namespace AuthenticatedUserWsState

variable (state : AuthenticatedUserWsState)

/-- The measure of the catch-up loop. -/
def frontierFuel (dropped : List (ℕ × ℕ)) : ℕ :=
  state.transportSequence - state.durableSequence + dropped.length

/-- The checks that `prepare_catch_up_finalization` makes before it looks at the ledgers. -/
def admitsCatchUp (token : AuthenticatedUserRecoveryToken)
    (credentialAuthority : AuthenticatedCredentialAuthority)
    (transportWatermark minimumLivenessVersion : ℕ) : Prop :=
  state.recoveryToken = some token ∧ state.consumerClosed = false ∧
    state.restProofGeneration = some token.generation ∧
    state.restCredentialAuthority = some credentialAuthority ∧
    state.restProofLivenessFloor = some minimumLivenessVersion ∧
    state.subscription = .serverResponsive ∧
    state.transportSequence = transportWatermark ∧
    minimumLivenessVersion < state.livenessVersion

instance (token : AuthenticatedUserRecoveryToken)
    (credentialAuthority : AuthenticatedCredentialAuthority)
    (transportWatermark minimumLivenessVersion : ℕ) :
    Decidable (state.admitsCatchUp token credentialAuthority transportWatermark
      minimumLivenessVersion) :=
  inferInstanceAs (Decidable (_ ∧ _))

/-- The state after the catch-up of `generation` up to `durableSequence`. -/
def caughtUp (generation durableSequence : ℕ) : AuthenticatedUserWsState :=
  { state with
    durableSequence
    schemaGap := false
    deliveryGap := false
    evidenceGap := false
    catchUpGeneration := some generation }

end AuthenticatedUserWsState

/-- What holds of the state and the ledgers that a finalization was prepared in, and of
    those it installs. -/
structure CatchUpEvidence (expectedState nextState : AuthenticatedUserWsState)
    (expectedDurable nextDurable : Finset ℕ) (expectedDropped nextDropped : List (ℕ × ℕ)) :
    Prop where
  ready : nextState.isReady
  next_eq : nextState =
    expectedState.caughtUp expectedState.generation expectedState.transportSequence
  proven : expectedState.restProofGeneration = some expectedState.generation
  responded : ∃ floor, expectedState.restProofLivenessFloor = some floor ∧
    floor < expectedState.livenessVersion
  frontier : catchUpFrontier expectedState.transportSequence
    (expectedState.frontierFuel expectedDropped) expectedState.durableSequence expectedDurable
    expectedDropped = some (expectedState.transportSequence, nextDurable, nextDropped)

/-- The one-shot authority of a prepared catch-up.  The two durable fields list a
    `BTreeSet` in the source, in its order: sets here. -/
structure AuthenticatedUserCatchUpFinalization where
  expectedState : AuthenticatedUserWsState
  nextState : AuthenticatedUserWsState
  expectedDurableOutOfOrder : Finset ℕ
  nextDurableOutOfOrder : Finset ℕ
  expectedDroppedRanges : List (ℕ × ℕ)
  nextDroppedRanges : List (ℕ × ℕ)
  evidence : CatchUpEvidence expectedState nextState expectedDurableOutOfOrder
    nextDurableOutOfOrder expectedDroppedRanges nextDroppedRanges
deriving DecidableEq

namespace StateCell

variable (cell : StateCell)

/-- `prepare_catch_up_finalization` once its checks have passed and its locks are held. -/
def finalizeCatchUp {token : AuthenticatedUserRecoveryToken}
    {credentialAuthority : AuthenticatedCredentialAuthority}
    {transportWatermark minimumLivenessVersion : ℕ}
    (h : cell.state.admitsCatchUp token credentialAuthority transportWatermark
      minimumLivenessVersion) : Option AuthenticatedUserCatchUpFinalization :=
  match hf : catchUpFrontier transportWatermark (cell.state.frontierFuel cell.droppedRanges)
      cell.state.durableSequence cell.durableOutOfOrder cell.droppedRanges with
  | none => none
  | some (durableSequence, nextDurable, nextDropped) =>
    if hd : durableSequence = transportWatermark then
      if hr : (cell.state.caughtUp token.generation durableSequence).isReady then
        some
          { expectedState := cell.state
            nextState := cell.state.caughtUp token.generation durableSequence
            expectedDurableOutOfOrder := cell.durableOutOfOrder
            nextDurableOutOfOrder := nextDurable
            expectedDroppedRanges := cell.droppedRanges
            nextDroppedRanges := nextDropped
            evidence := by
              obtain ⟨ht, -, hg, -, hm, -, rfl, hl⟩ := h
              obtain ⟨-, -, -, -, rfl⟩ := (cell.state.recoveryToken_eq_some).1 ht
              subst hd
              exact ⟨hr, rfl, hg, ⟨_, hm, hl⟩, hf⟩ }
      else none
    else none

def prepareCatchUpFinalization (token : AuthenticatedUserRecoveryToken)
    (credentialAuthority : AuthenticatedCredentialAuthority)
    (transportWatermark minimumLivenessVersion : ℕ) :
    Locked (Option AuthenticatedUserCatchUpFinalization) :=
  cell.lock none fun cell =>
    if h : cell.state.admitsCatchUp token credentialAuthority transportWatermark
        minimumLivenessVersion then
      if cell.durablePoisoned then cell.failUnderLock none
      else if cell.droppedPoisoned then cell.failUnderLock none
      else ⟨cell, none, cell.finalizeCatchUp h⟩
    else ⟨cell, none, none⟩

/-- The state and the two ledgers are those the finalization was prepared in. -/
def expects (finalization : AuthenticatedUserCatchUpFinalization) : Prop :=
  cell.state = finalization.expectedState ∧
    cell.durableOutOfOrder = finalization.expectedDurableOutOfOrder ∧
    cell.droppedRanges = finalization.expectedDroppedRanges

instance (finalization : AuthenticatedUserCatchUpFinalization) :
    Decidable (cell.expects finalization) :=
  inferInstanceAs (Decidable (_ ∧ _))

def commitCatchUpFinalization (finalization : AuthenticatedUserCatchUpFinalization) :
    Locked Bool :=
  cell.lock false fun cell =>
    if cell.durablePoisoned then cell.failUnderLock false
    else if cell.droppedPoisoned then cell.failUnderLock false
    else if cell.expects finalization then
      let cell := { cell with
        state := finalization.nextState
        durableOutOfOrder := finalization.nextDurableOutOfOrder
        droppedRanges := finalization.nextDroppedRanges }
      ⟨cell, some cell.state, true⟩
    else ⟨cell, none, false⟩

def authorityMatches (token : AuthenticatedUserRecoveryToken)
    (credentialAuthority : AuthenticatedCredentialAuthority) (transportWatermark : ℕ) :
    Locked Bool :=
  cell.snapshot.map fun state =>
    decide (state.recoveryToken = some token ∧
      state.restCredentialAuthority = some credentialAuthority ∧
      state.transportSequence = transportWatermark ∧ state.isReady)

end StateCell

end Rspm
