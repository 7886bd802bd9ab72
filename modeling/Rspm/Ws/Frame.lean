/-
  Raw authenticated frames, retained until their durable storage is acknowledged.
-/
import Mathlib

namespace Rspm

inductive AuthenticatedUserFrameEncoding where
  | text | binary | raw
deriving DecidableEq

/-- Why a retained frame could not become events. -/
inductive AuthenticatedUserFrameGap where
  | invalidTextSchema | unsupportedBinary | unsupportedRawFrame
deriving DecidableEq

/-- Process and clock identity captured at receipt. -/
structure AuthenticatedUserFrameReceipt where
  processGeneration : BitVec 128
  wallTimeNs : ℤ
  monotonicNs : ℕ
deriving DecidableEq

/-- The exact payload and transport receipt facts of one data frame. -/
structure AuthenticatedUserRawFrame where
  frameSequence : ℕ
  firstTransportSequence : ℕ
  lastTransportSequence : ℕ
  socketGeneration : ℕ
  socketGapVersion : ℕ
  receipt : AuthenticatedUserFrameReceipt
  encoding : AuthenticatedUserFrameEncoding
  gap : Option AuthenticatedUserFrameGap
  bytes : List UInt8
deriving DecidableEq

end Rspm
