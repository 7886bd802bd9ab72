/-
  Raw-frame retention and the transport durability ledger of the state cell.
-/
import Rspm.Ws.StateCell

namespace Rspm

namespace StateCell

/-- `next_durable_sequence`. -/
def nextDurableSequence (current : ℕ) : Except AuthenticatedUserCounterExhaustion ℕ :=
  match checkedAdd current 1 with
  | none => .error .durableSequence
  | some next => .ok next

variable (cell : StateCell)

/-- `reserve_raw_frame_capacity`: one permit, or the caller keeps waiting. -/
def reserveRawFrameCapacity : Locked Bool :=
  if cell.rawFrameCapacity = 0 then ⟨cell, none, false⟩
  else ⟨{ cell with rawFrameCapacity := cell.rawFrameCapacity - 1 }, none, true⟩

def reserveRawFrameSequence : Locked (Option ℕ) :=
  (cell.update (·.reserveRawFrameSequence)).map (·.join)

/-- An owned permit goes back to `raw_frame_capacity` when its holder is dropped. -/
def releaseCapacity : StateCell := { cell with rawFrameCapacity := cell.rawFrameCapacity + 1 }

/-- `retain_raw_frame`: the caller's capacity permit moves into the ledger.  Every path that
    returns `false` lets one permit go, the caller's or that of the frame it replaces. -/
def retainRawFrame (evidence : AuthenticatedUserRawFrame) : Locked Bool :=
  let frameSequence := evidence.frameSequence
  let outcome : Locked Bool :=
    if frameSequence = 0 then cell.markEvidenceGap.map fun _ => false
    else cell.lock false fun cell =>
      if cell.rawFramesPoisoned then cell.failUnderLock false
      else
        let inserted := !cell.rawFrames.contains frameSequence
        let rawFrames := cell.rawFrames.insert frameSequence evidence
        let state := { cell.state with pendingRawFrameCount := rawFrames.size }
        let state :=
          if !inserted then { state with evidenceGap := true }.advanceGapVersion.1 else state
        ⟨{ cell with rawFrames, state }, some state, inserted⟩
  if outcome.result then outcome else { outcome with cell := outcome.cell.releaseCapacity }

/-- `pending_raw_frames`, in the order of the frame sequences. -/
def pendingRawFrames : Locked (List AuthenticatedUserRawFrame) :=
  let pending := cell.rawFrames.values
  if cell.rawFramesPoisoned || cell.authorityPoisoned then
    cell.publishPoisoned.map fun _ => pending
  else ⟨cell, none, pending⟩

def acknowledgeRawFrameDurable (frameSequence : ℕ) : Locked Bool :=
  cell.lock false fun cell =>
    if cell.rawFramesPoisoned then cell.failUnderLock false
    else if cell.rawFrames.contains frameSequence then
      let rawFrames := cell.rawFrames.erase frameSequence
      let state := { cell.state with pendingRawFrameCount := rawFrames.size }
      -- the removed frame drops its capacity permit
      ⟨{ cell.releaseCapacity with rawFrames, state }, some state, true⟩
    else ⟨cell, some cell.state, false⟩

def markEnqueued (range : TransportSequenceRange) : Locked Unit :=
  cell.modify (·.markEnqueued range)

/-- The ledger after a drop that is retained: merged into the last range when
    it continues it, else appended while there is room. -/
def recordDrop (ranges : List (ℕ × ℕ)) (range : TransportSequenceRange) :
    Option (List (ℕ × ℕ)) :=
  match ranges.getLast? with
  | some (first, previousLast) =>
    if checkedAdd previousLast 1 = some range.first then
      some (ranges.dropLast ++ [(first, range.last)])
    else if ranges.length < maxDroppedRanges then some (ranges ++ [(range.first, range.last)])
    else none
  | none =>
    if ranges.length < maxDroppedRanges then some (ranges ++ [(range.first, range.last)])
    else none

def markDropped (range : TransportSequenceRange) : Locked Bool :=
  cell.lock false fun cell =>
    if ¬ cell.state.knowsRange range then
      let state := { cell.state with deliveryGap := true }.advanceGapVersion.1
      ⟨{ cell with state }, some state, false⟩
    else if cell.droppedPoisoned then cell.failUnderLock false
    else
      match recordDrop cell.droppedRanges range with
      | some droppedRanges =>
        let state := { cell.state with deliveryGap := true }.advanceGapVersion.1
        ⟨{ cell with droppedRanges, state }, some state, true⟩
      | none =>
        let state :=
          { cell.state with consumerClosed := true, deliveryGap := true }.advanceGapVersion.1
        ⟨{ cell with state }, some state, false⟩

/-- The `while` loop of `acknowledge_durable`, with `true` if it left through
    the exhausted-counter branch.  `fuel` bounds the distance to `transportSequence`. -/
def advanceDurable (transportSequence : ℕ) :
    ℕ → ℕ → Finset ℕ → ℕ × Finset ℕ × Bool
  | 0, durableSequence, outOfOrder => (durableSequence, outOfOrder, false)
  | fuel + 1, durableSequence, outOfOrder =>
    if durableSequence < transportSequence then
      match nextDurableSequence durableSequence with
      | .error _ => (durableSequence, outOfOrder, true)
      | .ok next =>
        if next ∈ outOfOrder then
          advanceDurable transportSequence fuel next (outOfOrder.erase next)
        else (durableSequence, outOfOrder, false)
    else (durableSequence, outOfOrder, false)

def acknowledgeDurable (sequence : ℕ) : Locked Bool :=
  cell.lock false fun cell =>
    if sequence = 0 ∨ sequence > cell.state.transportSequence then ⟨cell, none, false⟩
    else if sequence ≤ cell.state.durableSequence then ⟨cell, none, true⟩
    else if cell.durablePoisoned then cell.failUnderLock false
    else if cell.durableOutOfOrder.card ≥ maxDurableOutOfOrder ∧
        sequence ∉ cell.durableOutOfOrder then
      let state :=
        { cell.state with consumerClosed := true, deliveryGap := true }.advanceGapVersion.1
      ⟨{ cell with state }, some state, false⟩
    else
      let transportSequence := cell.state.transportSequence
      let (durableSequence, durableOutOfOrder, exhausted) :=
        advanceDurable transportSequence (transportSequence - cell.state.durableSequence)
          cell.state.durableSequence (insert sequence cell.durableOutOfOrder)
      let state := { cell.state with durableSequence }
      let state := if exhausted then state.failCounter .durableSequence else state
      ⟨{ cell with durableOutOfOrder, state }, some state, !exhausted⟩

end StateCell

end Rspm
