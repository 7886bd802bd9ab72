/-
  When a drop closes the consumer.

  The ledger has room for one range and merges only upwards: a drop is refused
  unless the ledger is empty or the drop starts right after the recorded range.
  `drop_pressure_iff` compares this with the number of maximal intervals that
  the outstanding dropped sequences really form.
-/
import Rspm.Lib.Intervals
import Rspm.Ws.Leftover

namespace Rspm

open Intervals

/-! ## What is dropped and outstanding -/

instance (ranges : List (ℕ × ℕ)) : DecidablePred (Covered ranges) := fun s =>
  inferInstanceAs (Decidable (∃ range ∈ ranges, range.1 ≤ s ∧ s ≤ range.2))

/-- The dropped sequences that are not durable yet. -/
def StateCell.outstandingDropped (cell : StateCell) : Finset ℕ :=
  (Finset.Icc 1 cell.state.transportSequence).filter fun s =>
    cell.state.durableSequence < s ∧ Covered cell.droppedRanges s

/-- A recorded drop covers what was covered before, and the range. -/
theorem covered_recordDrop {ranges ranges' : List (ℕ × ℕ)} {range : TransportSequenceRange}
    (hl : ranges.length ≤ maxDroppedRanges) (hle : range.first ≤ range.last)
    (hmax : range.first ≤ u64Max) (hold : ∀ r ∈ ranges, r.1 ≤ r.2)
    (h : StateCell.recordDrop ranges range = some ranges') {s : ℕ}
    (hs : Covered ranges s ∨ range.first ≤ s ∧ s ≤ range.last) : Covered ranges' s := by
  rcases ranges_cases hl with rfl | ⟨first, last, rfl⟩
  · rw [recordDrop_nil] at h
    obtain rfl := Option.some.inj h
    exact covered_singleton.2 (hs.resolve_left (not_covered_nil s))
  · rw [recordDrop_singleton hmax] at h
    split_ifs at h with hnext
    obtain rfl := Option.some.inj h
    have hfirst : first ≤ last := hold _ (List.mem_singleton_self _)
    rw [covered_singleton] at hs ⊢
    omega

/-- What was dropped is durable by now, or still recorded. -/
def DropsKept (cs : List CellCall) (books : Books) : Prop :=
  ∀ c ∈ cs, ∀ s, c.Drops s → s ≤ books.state.durableSequence ∨ Covered books.droppedRanges s

theorem DropsKept.call {cs : List CellCall} {c : CellCall} (hs : Sound c.pre.books)
    (hr : RangesReserved c.pre.books) (h : DropsKept cs c.pre.books) :
    DropsKept (cs ++ [c]) c.post.books := by
  -- the calls so far: their drops stay durable, or stay covered
  have hsplit : (∀ s, s ≤ c.pre.state.durableSequence ∨ Covered c.pre.droppedRanges s →
      s ≤ c.post.state.durableSequence ∨ Covered c.post.droppedRanges s) →
      (∀ s, c.Drops s → s ≤ c.post.state.durableSequence ∨ Covered c.post.droppedRanges s) →
      DropsKept (cs ++ [c]) c.post.books := by
    intro hkeep hlast d hd s hdrop
    rcases List.mem_append.1 hd with hd | hd
    · exact hkeep s (h d hd s hdrop)
    · obtain rfl := List.mem_singleton.1 hd
      exact hlast s hdrop
  cases CellCall.ledgerMove hs with
  | rests ht hd ho hranges hdrop hack hcommit =>
    refine hsplit (fun s hkept => ?_) ?_
    · rwa [hd, hranges]
    · rintro s ⟨range, hi, hout, -⟩
      exact absurd hout (hdrop range hi)
  | @drops range hi hout htakes ht hd ho hrecord =>
    have hcovers : ∀ s, Covered c.pre.droppedRanges s ∨ range.first ≤ s ∧ s ≤ range.last →
        Covered c.post.droppedRanges s := fun s =>
      covered_recordDrop hs.dropped_length htakes.2.2.2.1
        (htakes.2.2.2.1.trans (htakes.2.2.2.2.trans hs.transport_le))
        (fun r hm => (hr r hm).2.1) hrecord
    refine hsplit (fun s hkept => ?_) ?_
    · rw [hd]
      exact hkept.imp_right fun hc => hcovers s (.inl hc)
    · rintro s ⟨range', hi', -, hin⟩
      obtain rfl := Op.markDropped.inj (hi.symm.trans hi')
      exact .inr (hcovers s (.inr hin))
  | acknowledges hi htakes ht hn ho hranges =>
    refine hsplit (fun s hkept => ?_) ?_
    · rw [hranges]
      exact hkept.imp_left fun hle => hle.trans hn.durable_le
    · rintro s ⟨range, hi', -⟩
      rw [hi] at hi'
      cases hi'
  | installs hi hout htakes ht hd hf =>
    refine hsplit (fun s hkept => .inl ?_) ?_
    · rw [hd]
      rcases hkept with hle | ⟨r, hm, -, hle⟩
      · exact hle.trans hs.durable_le
      · exact hle.trans (hr r hm).2.2
    · rintro s ⟨range, hi', -⟩
      rw [hi] at hi'
      cases hi'

section
variable {credentialIdentity : AuthenticatedCredentialIdentity} {cs : List CellCall}
  {cell : StateCell} {range : TransportSequenceRange}

theorem CellRun.dropsKept (h : CellRun credentialIdentity cs cell) : DropsKept cs cell.books := by
  induction h with
  | nil => exact fun c hc => absurd hc List.not_mem_nil
  | @snoc cs s op h _ ih =>
    exact DropsKept.call (c := ⟨s, op⟩) (CellRun.sound h) (CellRun.rangesReserved h) ih

/-- The ledger knows every dropped sequence that is outstanding, and no other. -/
theorem CellRun.mem_outstandingDropped (h : CellRun credentialIdentity cs cell) (s : ℕ) :
    s ∈ cell.outstandingDropped ↔
      cell.state.durableSequence < s ∧ ∃ c ∈ cs, CellCall.Drops s c := by
  simp only [StateCell.outstandingDropped, Finset.mem_filter, Finset.mem_Icc]
  constructor
  · rintro ⟨-, hlt, hc⟩
    exact ⟨hlt, (CellRun.accounted h).dropped s hc⟩
  · rintro ⟨hlt, c, hc, hdrop⟩
    rcases CellRun.dropsKept h c hc s hdrop with hle | hcov
    · exact absurd hlt (not_lt.2 hle)
    · obtain ⟨r, hm, h1, h2⟩ := hcov
      obtain ⟨hpos, -, hmax⟩ := CellRun.rangesReserved h r hm
      exact ⟨⟨hpos.trans h1, h2.trans hmax⟩, hlt, r, hm, h1, h2⟩

/-! ## The drop of a range -/

/-- The report of a dropped range. -/
def dropCall (cell : StateCell) (range : TransportSequenceRange) : CellCall :=
  ⟨cell, .markDropped range⟩

/-- The call is accepted, and does not touch `consumer_closed`. -/
def CellCall.KeepsConsumer (c : CellCall) : Prop :=
  c.out = .bool true ∧ c.post.state.consumerClosed = c.pre.state.consumerClosed

/-- The maximal intervals of the outstanding dropped sequences, together with the range. -/
noncomputable def dropPressure (cell : StateCell) (range : TransportSequenceRange) : ℕ :=
  (maximalIntervals (cell.outstandingDropped ∪ Finset.Icc range.first range.last)).ncard

/-- While the pressure is within the bound the drop is accepted. -/
def AcceptsBelowBound (cell : StateCell) (range : TransportSequenceRange) : Prop :=
  dropPressure cell range ≤ maxDroppedRanges → (dropCall cell range).KeepsConsumer

/-- The range starts right after the last recorded one. -/
def Continues (ranges : List (ℕ × ℕ)) (range : TransportSequenceRange) : Prop :=
  ∃ r, ranges.getLast? = some r ∧ r.2 + 1 = range.first

/-- A drop is recorded when the ledger is empty or the drop continues it. -/
theorem recordDrop_isSome {ranges : List (ℕ × ℕ)} (hl : ranges.length ≤ maxDroppedRanges)
    (hmax : range.first ≤ u64Max) :
    (StateCell.recordDrop ranges range).isSome ↔ ranges = [] ∨ Continues ranges range := by
  rcases ranges_cases hl with rfl | ⟨first, last, rfl⟩
  · simp [recordDrop_nil]
  · rw [recordDrop_singleton hmax]
    by_cases hnext : last + 1 = range.first <;> simp [Continues, hnext]

theorem keepsConsumer_iff (hs : Sound cell.books) (ht : cell.takesDrop range) :
    (dropCall cell range).KeepsConsumer ↔
      cell.droppedRanges = [] ∨ Continues cell.droppedRanges range := by
  have hmax : range.first ≤ u64Max := ht.2.2.2.1.trans (ht.2.2.2.2.trans hs.transport_le)
  have hlen : cell.droppedRanges.length ≤ maxDroppedRanges := hs.dropped_length
  rw [← recordDrop_isSome hlen hmax]
  have hout : (dropCall cell range).out = .bool (cell.markDropped range).result := rfl
  have hpost : (dropCall cell range).post = ((cell.markDropped range).map Reply.bool).settle.1 :=
    rfl
  unfold CellCall.KeepsConsumer
  rw [hout, hpost, StateCell.markDropped_of_takes ht]
  cases StateCell.recordDrop cell.droppedRanges range with
  | none => simp
  | some ranges =>
    have hkept : ({ cell.state with deliveryGap := true } :
        AuthenticatedUserWsState).advanceGapVersion.1.consumerClosed =
          cell.state.consumerClosed := by
      rcases AuthenticatedUserWsState.advanceGapVersion_cases
        { cell.state with deliveryGap := true } with ⟨-, h⟩ | ⟨-, h⟩ <;> rw [h]
      rfl
    simpa [Locked.map, Locked.settle, dropCall] using hkept

/-- Below the bound on the outstanding intervals a drop is accepted exactly when the ledger is
    empty or the drop continues its last range. -/
theorem drop_pressure_iff (h : CellRun credentialIdentity cs cell) (ho : cell.isOpen)
    (hp : cell.droppedPoisoned = false) (hk : cell.state.knowsRange range) :
    (∀ s, s ∈ cell.outstandingDropped ↔
      cell.state.durableSequence < s ∧ ∃ c ∈ cs, CellCall.Drops s c) ∧
    (AcceptsBelowBound cell range ↔ cell.droppedRanges = [] ∨
      Continues cell.droppedRanges range ∨ maxDroppedRanges < dropPressure cell range) := by
  refine ⟨CellRun.mem_outstandingDropped h, ?_⟩
  rw [AcceptsBelowBound, keepsConsumer_iff (CellRun.sound h) ⟨ho, hp, hk⟩, ← not_le,
    imp_iff_or_not, or_assoc]

end

/-- The first drop of a channel. -/
theorem drop_pressure_iff_first : ∃ cs, CellRun {} cs (cellAfter [.reserveTransportSequences 1]) ∧
    AcceptsBelowBound (cellAfter [.reserveTransportSequences 1]) ⟨1, 1⟩ := by
  have hrun : CellRun {}
      (cellMachine.calls (.newWithIdentity {}) [.reserveTransportSequences 1])
      (cellAfter [.reserveTransportSequences 1]) := cellAfter_run (by simp [Op.available])
  refine ⟨_, hrun, ?_⟩
  exact (drop_pressure_iff hrun (by decide) (by decide) (by decide)).2.2 (.inl (by decide))

/-! ## Drops that are refused without pressure -/

/-- A drop that finds the consumer open and is refused, although the pressure is within the
    bound. -/
theorem not_accepts_of_refused {cell : StateCell} {range : TransportSequenceRange}
    (hfits : (starts (cell.outstandingDropped ∪ Finset.Icc range.first range.last)).card ≤
      maxDroppedRanges)
    (hrefused : (cell.markDropped range).result = false) : ¬ AcceptsBelowBound cell range := by
  intro haccepts
  have hkeeps := haccepts (by rw [dropPressure, ncard_maximalIntervals]; exact hfits)
  have hout : (cell.markDropped range).result = true := Reply.bool.inj hkeeps.1
  rw [hrefused] at hout
  cases hout

/-- Sequence 1 was dropped already. -/
def droppedTwice : StateCell := cellAfter [.reserveTransportSequences 1, .markDropped ⟨1, 1⟩]

/-- Sequence 2 was dropped before sequence 1. -/
def droppedBelow : StateCell := cellAfter [.reserveTransportSequences 2, .markDropped ⟨2, 2⟩]

/-- Sequence 1 was dropped, and is durable. -/
def droppedDurable : StateCell :=
  cellAfter [.reserveTransportSequences 3, .markDropped ⟨1, 1⟩, .acknowledgeDurable 1]

/-- The same drop twice; a drop just below a recorded one; a drop after the recorded one became
    durable. -/
theorem drop_pressure_not :
    (∃ cs, CellRun {} cs droppedTwice) ∧ droppedTwice.takesDrop ⟨1, 1⟩ ∧
      ¬ AcceptsBelowBound droppedTwice ⟨1, 1⟩ ∧
    (∃ cs, CellRun {} cs droppedBelow) ∧ droppedBelow.takesDrop ⟨1, 1⟩ ∧
      ¬ AcceptsBelowBound droppedBelow ⟨1, 1⟩ ∧
    (∃ cs, CellRun {} cs droppedDurable) ∧ droppedDurable.takesDrop ⟨3, 3⟩ ∧
      ¬ AcceptsBelowBound droppedDurable ⟨3, 3⟩ := by
  refine ⟨⟨_, cellAfter_run (by simp [Op.available])⟩, by decide, ?_,
    ⟨_, cellAfter_run (by simp [Op.available])⟩, by decide, ?_,
    ⟨_, cellAfter_run (by simp [Op.available])⟩, by decide, ?_⟩
  · exact not_accepts_of_refused (by decide) (by decide)
  · exact not_accepts_of_refused (by decide) (by decide)
  · exact not_accepts_of_refused (by decide) (by decide)

end Rspm
