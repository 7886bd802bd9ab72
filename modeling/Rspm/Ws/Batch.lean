/-
  A frame as a batch of events: decoded all or nothing, and numbered from the
  first transport sequence of the range that was reserved for it.

  A batch reserves one sequence for each of its events, and one for a frame
  without events: `reserved_sequences_delivered`.
-/
import Rspm.Lib.Decoding
import Rspm.Auth.Decode
import Rspm.Ws.Acknowledge

namespace Rspm

open Decoding

def maxFrameBytes : ℕ := 1024 * 1024

/-! ## Events of a frame -/

inductive Wire.WireUserEvent where
  | trade (trade : Wire.WireTrade)
  | order (order : Wire.WireOrder)

inductive AuthenticatedUserEvent where
  | trade (trade : AuthenticatedUserTrade)
  | order (order : AuthenticatedUserOrder)

def AuthenticatedUserEvent.tryFrom :
    Wire.WireUserEvent → Except FrameSchemaError AuthenticatedUserEvent
  | .trade wire => (AuthenticatedUserTrade.tryFrom wire).map .trade
  | .order wire => (AuthenticatedUserOrder.tryFrom wire).map .order

/-- The JSON value of a frame, as `OneOrMany` visits it; `none` is an element that
    `WireUserEvent` does not deserialize from. -/
inductive FrameValue where
  | map (event : Option Wire.WireUserEvent)
  | seq (events : List (Option Wire.WireUserEvent))
  | other

/-- `WireUserEventBatch::deserialize`: one event, or an array of events. -/
def FrameValue.events : FrameValue → Option (List Wire.WireUserEvent)
  | map event => event.map fun event => [event]
  | seq events => events.mapM id
  | other => none

/-! ## Batches -/

structure AuthenticatedUserEventBatch where
  frameSequence : ℕ := 0
  firstTransportSequence : ℕ := 0
  socketGeneration : ℕ := 0
  socketGapVersion : ℕ := 0
  receipt : Option AuthenticatedUserFrameReceipt := none
  encoding : AuthenticatedUserFrameEncoding := .text
  frameGap : Option AuthenticatedUserFrameGap := none
  rawFrame : List UInt8 := []
  events : List AuthenticatedUserEvent := []

namespace AuthenticatedUserEventBatch

/-- `decode_frame`.  `json` reads a whole frame as one JSON value. -/
def decodeFrame (json : List UInt8 → Option FrameValue) (frame : List UInt8) :
    Except FrameSchemaError AuthenticatedUserEventBatch :=
  if frame.isEmpty || frame.length > maxFrameBytes then .error .frameSchema
  else
    match (json frame).bind FrameValue.events with
    | none => .error .frameSchema
    | some wire => do
      let events ← wire.mapM AuthenticatedUserEvent.tryFrom
      return { rawFrame := frame, events }

def captureTextFrame (json : List UInt8 → Option FrameValue) (frame : List UInt8) :
    AuthenticatedUserEventBatch :=
  match decodeFrame json frame with
  | .ok batch => batch
  | .error _ => { encoding := .text, frameGap := some .invalidTextSchema, rawFrame := frame }

def captureBinaryFrame (frame : List UInt8) : AuthenticatedUserEventBatch :=
  { encoding := .binary, frameGap := some .unsupportedBinary, rawFrame := frame }

def captureRawFrame (frame : List UInt8) : AuthenticatedUserEventBatch :=
  { encoding := .raw, frameGap := some .unsupportedRawFrame, rawFrame := frame }

variable (batch : AuthenticatedUserEventBatch)

/-- A batch without events takes one sequence as well. -/
def sequenceWidth : ℕ := max batch.events.length 1

/-- `raw_evidence`: `none` where one of the `expect`s would fail. -/
def rawEvidence : Option AuthenticatedUserRawFrame := do
  let receipt ← batch.receipt
  let lastTransportSequence ← checkedAdd batch.firstTransportSequence (batch.sequenceWidth - 1)
  return {
    frameSequence := batch.frameSequence
    firstTransportSequence := batch.firstTransportSequence
    lastTransportSequence
    socketGeneration := batch.socketGeneration
    socketGapVersion := batch.socketGapVersion
    receipt
    encoding := batch.encoding
    gap := batch.frameGap
    bytes := batch.rawFrame }

def withTransportContext (receipt : AuthenticatedUserFrameReceipt)
    (frameSequence sequence socketGeneration socketGapVersion : ℕ) :
    AuthenticatedUserEventBatch :=
  { batch with
    frameSequence
    firstTransportSequence := sequence
    socketGeneration
    socketGapVersion
    receipt := some receipt }

/-- `into_sequenced_events`: `none` where its `expect` would fail. -/
def intoSequencedEvents : Option (List (ℕ × ℕ × ℕ × AuthenticatedUserEvent)) :=
  batch.events.zipIdx.mapM fun item =>
    (checkedAdd batch.firstTransportSequence item.2).map fun sequence =>
      (sequence, batch.socketGeneration, batch.socketGapVersion, item.1)

variable {batch}

theorem sequenceWidth_pos (batch : AuthenticatedUserEventBatch) : 1 ≤ batch.sequenceWidth :=
  le_max_right _ _

theorem sequenceWidth_of_events (h : batch.events ≠ []) :
    batch.sequenceWidth = batch.events.length :=
  max_eq_left (List.length_pos_iff.2 h)

theorem sequenceWidth_of_empty (h : batch.events = []) : batch.sequenceWidth = 1 := by
  rw [sequenceWidth, h]
  rfl

/-- An accepted frame: within the bound, and every element of it an event. -/
theorem decodeFrame_eq_ok {json : List UInt8 → Option FrameValue} {frame : List UInt8}
    (h : decodeFrame json frame = .ok batch) :
    ∃ wire, (json frame).bind FrameValue.events = some wire ∧
      List.Forall₂ (fun w e => AuthenticatedUserEvent.tryFrom w = .ok e) wire batch.events ∧
      batch.rawFrame = frame ∧ batch.frameGap = none := by
  unfold decodeFrame at h
  split_ifs at h
  cases hwire : (json frame).bind FrameValue.events with
  | none =>
    rw [hwire] at h
    cases h
  | some wire =>
    rw [hwire] at h
    dsimp only at h
    cases hevents : wire.mapM AuthenticatedUserEvent.tryFrom with
    | error e =>
      rw [hevents] at h
      cases h
    | ok events =>
      rw [hevents] at h
      obtain rfl := Except.ok.inj h
      exact ⟨wire, rfl, mapM_eq_ok.1 hevents, rfl, rfl⟩

/-! ## The numbering of a batch -/

/-- A range that ends below `u64::MAX` keeps both `expect`s from failing. -/
theorem intoSequencedEvents_eq
    (h : batch.firstTransportSequence + (batch.sequenceWidth - 1) ≤ u64Max) :
    batch.intoSequencedEvents = some (batch.events.zipIdx.map fun item =>
      (batch.firstTransportSequence + item.2, batch.socketGeneration, batch.socketGapVersion,
        item.1)) := by
  refine mapM_of_forall_some fun item hm => ?_
  have hlt := List.snd_lt_of_mem_zipIdx hm
  rw [sequenceWidth, max_eq_left (by omega)] at h
  rw [checkedAdd_eq_some.2 ⟨by omega, rfl⟩]
  rfl

theorem rawEvidence_eq {receipt : AuthenticatedUserFrameReceipt}
    (hr : batch.receipt = some receipt)
    (h : batch.firstTransportSequence + (batch.sequenceWidth - 1) ≤ u64Max) :
    batch.rawEvidence = some {
      frameSequence := batch.frameSequence
      firstTransportSequence := batch.firstTransportSequence
      lastTransportSequence := batch.firstTransportSequence + (batch.sequenceWidth - 1)
      socketGeneration := batch.socketGeneration
      socketGapVersion := batch.socketGapVersion
      receipt
      encoding := batch.encoding
      gap := batch.frameGap
      bytes := batch.rawFrame } := by
  unfold rawEvidence
  rw [hr, checkedAdd_eq_some.2 ⟨h, rfl⟩]
  rfl

/-- The events are numbered one after another. -/
theorem sequences_eq (batch : AuthenticatedUserEventBatch) :
    (batch.events.zipIdx.map fun item => batch.firstTransportSequence + item.2) =
      List.range' batch.firstTransportSequence batch.events.length := by
  have hoffsets := congrArg (List.map fun offset => batch.firstTransportSequence + offset)
    (List.zipIdx_map_snd 0 batch.events)
  rw [List.map_map, List.map_add_range', Nat.add_zero] at hoffsets
  exact hoffsets

end AuthenticatedUserEventBatch

end Rspm
