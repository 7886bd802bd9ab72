/-
  Durability accounting.

  `Sound` bounds the counters and the ledgers of a cell; `Accounted` ties them
  to the calls behind them: a durable sequence was acknowledged, or dropped and
  then retired by a commit that took the frontier over it.
-/
import Rspm.Ws.Moves

namespace Rspm

/-! ## Counters of the ledgers -/

namespace AuthenticatedUserWsState

variable (s : AuthenticatedUserWsState)

/-- The counters that the ledgers of a cell are about. -/
def ledgerCounters : ℕ × ℕ × ℕ × ℕ :=
  (s.transportSequence, s.enqueuedSequence, s.durableSequence, s.pendingRawFrameCount)

theorem advanceGapVersion_ledgerCounters :
    s.advanceGapVersion.1.ledgerCounters = s.ledgerCounters := by
  rcases s.advanceGapVersion_cases with ⟨-, h⟩ | ⟨-, h⟩ <;> rw [h] <;> rfl

end AuthenticatedUserWsState

theorem StateCell.failClosedAfterPoison_ledgerCounters (cell : StateCell) :
    cell.failClosedAfterPoison.state.ledgerCounters = cell.state.ledgerCounters := by
  unfold failClosedAfterPoison
  dsimp only
  split_ifs
  · rw [AuthenticatedUserWsState.advanceGapVersion_ledgerCounters]; rfl
  · rfl

/-- An update leaves the durable frontier and the frame count alone, and the transport
    sequence stays an upper bound below `u64::MAX`. -/
structure LedgerStep (s s' : AuthenticatedUserWsState) : Prop where
  durable : s'.durableSequence = s.durableSequence
  pending : s'.pendingRawFrameCount = s.pendingRawFrameCount
  transport : s.transportSequence ≤ s'.transportSequence
  transport_max : s.transportSequence ≤ u64Max → s'.transportSequence ≤ u64Max
  enqueued : s.enqueuedSequence ≤ s.transportSequence → s'.enqueuedSequence ≤ s'.transportSequence

namespace LedgerStep

variable {s s' : AuthenticatedUserWsState}

theorem of_ledgerCounters (h : s'.ledgerCounters = s.ledgerCounters) : LedgerStep s s' := by
  simp only [AuthenticatedUserWsState.ledgerCounters, Prod.mk.injEq] at h
  obtain ⟨h1, h2, h3, h4⟩ := h
  exact ⟨h3, h4, h1.ge, fun h => h1 ▸ h, fun h => h1 ▸ h2 ▸ h⟩

theorem advanceGapVersion (h : s'.ledgerCounters = s.ledgerCounters) :
    LedgerStep s s'.advanceGapVersion.1 :=
  of_ledgerCounters ((s'.advanceGapVersion_ledgerCounters).trans h)

theorem tryMarkConnected (s : AuthenticatedUserWsState) : LedgerStep s s.tryMarkConnected.1 := by
  unfold AuthenticatedUserWsState.tryMarkConnected
  split
  · exact of_ledgerCounters rfl
  · split
    · exact of_ledgerCounters rfl
    · dsimp only
      split_ifs <;> exact advanceGapVersion rfl

theorem markServerLivenessProven (s : AuthenticatedUserWsState) (generation : ℕ) :
    LedgerStep s (s.markServerLivenessProven generation) := by
  unfold AuthenticatedUserWsState.markServerLivenessProven
  split_ifs
  · split <;> exact of_ledgerCounters rfl
  · exact of_ledgerCounters rfl

theorem reserveTransportSequences (s : AuthenticatedUserWsState) (eventCount : ℕ) :
    LedgerStep s (s.reserveTransportSequences eventCount).1 := by
  unfold AuthenticatedUserWsState.reserveTransportSequences
  split
  · exact of_ledgerCounters rfl
  · next next hn =>
    split
    · exact of_ledgerCounters rfl
    · next last hl =>
      have h1 := (checkedAdd_eq_some.1 hn).2
      obtain ⟨h2, h3⟩ := checkedAdd_eq_some.1 hl
      have hle : s.transportSequence ≤ last := by omega
      exact ⟨rfl, rfl, hle, fun _ => h3 ▸ h2, fun h => h.trans hle⟩

theorem markEnqueued (s : AuthenticatedUserWsState) (range : TransportSequenceRange) :
    LedgerStep s (s.markEnqueued range) := by
  unfold AuthenticatedUserWsState.markEnqueued
  split_ifs with hk
  · exact ⟨rfl, rfl, le_rfl, id, fun h => max_le h hk.2.2⟩
  · exact advanceGapVersion rfl

theorem transition {op : Op} {r : Reply} (h : op.transition s = some (s', r)) :
    LedgerStep s s' := by
  cases op <;> simp only [Op.transition, reduceCtorEq, Option.some.injEq, Prod.mk.injEq,
    Option.ite_none_left_eq_some, Option.ite_none_right_eq_some] at h
  case tryMarkConnected => obtain ⟨rfl, rfl⟩ := h; exact tryMarkConnected s
  case markServerLivenessProven generation =>
    obtain ⟨rfl, rfl⟩ := h; exact markServerLivenessProven s generation
  case reserveTransportSequences eventCount =>
    obtain ⟨-, rfl, rfl⟩ := h; exact reserveTransportSequences s eventCount
  case markEnqueued range => obtain ⟨rfl, rfl⟩ := h; exact markEnqueued s range
  case retainRawFrame => obtain ⟨-, rfl, rfl⟩ := h; exact advanceGapVersion rfl
  case markConnecting =>
    obtain ⟨rfl, rfl⟩ := h
    unfold AuthenticatedUserWsState.markConnecting
    split_ifs <;> exact of_ledgerCounters rfl
  case markSubscriptionWritten generation =>
    obtain ⟨rfl, rfl⟩ := h
    unfold AuthenticatedUserWsState.markSubscriptionWritten
    split_ifs <;> exact of_ledgerCounters rfl
  case markAuthenticatedRestProven token credentialAuthority =>
    obtain ⟨rfl, rfl⟩ := h
    unfold AuthenticatedUserWsState.markAuthenticatedRestProven
    split_ifs <;> exact of_ledgerCounters rfl
  case reserveRawFrameSequence =>
    obtain ⟨rfl, rfl⟩ := h
    unfold AuthenticatedUserWsState.reserveRawFrameSequence
    split <;> exact of_ledgerCounters rfl
  all_goals obtain ⟨rfl, rfl⟩ := h; exact advanceGapVersion rfl

end LedgerStep

/-! ## Bounds -/

/-- The counters stay in order, the ledgers in their capacity. -/
structure Sound (books : Books) : Prop where
  enqueued_le : books.state.enqueuedSequence ≤ books.state.transportSequence
  durable_le : books.state.durableSequence ≤ books.state.transportSequence
  transport_le : books.state.transportSequence ≤ u64Max
  outOfOrder_card : books.durableOutOfOrder.card ≤ maxDurableOutOfOrder
  dropped_length : books.droppedRanges.length ≤ maxDroppedRanges
  pending : books.state.pendingRawFrameCount = books.rawFrames.size

theorem Sound.new (credentialIdentity : AuthenticatedCredentialIdentity) :
    Sound (StateCell.newWithIdentity credentialIdentity).books :=
  ⟨le_rfl, le_rfl, Nat.zero_le _, Nat.zero_le _, Nat.zero_le _, rfl⟩

/-- Only the state changed, and its ledger counters step. -/
theorem Sound.of_step {books : Books} {state : AuthenticatedUserWsState} (h : Sound books)
    (hs : LedgerStep books.state state) : Sound { books with state } where
  enqueued_le := hs.enqueued h.enqueued_le
  durable_le := (hs.durable ▸ h.durable_le).trans hs.transport
  transport_le := hs.transport_max h.transport_le
  outOfOrder_card := h.outOfOrder_card
  dropped_length := h.dropped_length
  pending := hs.pending.trans h.pending

theorem recordDrop_length {ranges ranges' : List (ℕ × ℕ)} {range : TransportSequenceRange}
    (h : StateCell.recordDrop ranges range = some ranges')
    (hl : ranges.length ≤ maxDroppedRanges) : ranges'.length ≤ maxDroppedRanges := by
  unfold StateCell.recordDrop at h
  split at h
  · next first previousLast hlast =>
    have hne : ranges ≠ [] := by rintro rfl; cases hlast
    have hpos := List.length_pos_iff.2 hne
    split_ifs at h with hm hlt
    · obtain rfl := Option.some.inj h
      rw [List.length_append, List.length_dropLast, List.length_singleton]; omega
    · obtain rfl := Option.some.inj h
      rw [List.length_append, List.length_singleton]; omega
  · split_ifs at h with hlt
    obtain rfl := Option.some.inj h
    rw [List.length_append, List.length_singleton]; omega

/-- What an acknowledgement makes of the ledger of a sound cell. -/
theorem Sound.advanced {cell : StateCell} (h : Sound cell.books) {sequence n : ℕ}
    {outOfOrder : Finset ℕ} {exhausted : Bool}
    (ha : StateCell.advanceDurable cell.state.transportSequence
      (cell.state.transportSequence - cell.state.durableSequence) cell.state.durableSequence
      (insert sequence cell.durableOutOfOrder) = (n, outOfOrder, exhausted)) :
    outOfOrder = insert sequence cell.durableOutOfOrder \ Finset.Ioc cell.state.durableSequence n ∧
      exhausted = false ∧ cell.state.durableSequence ≤ n ∧ n ≤ cell.state.transportSequence ∧
      Finset.Ioc cell.state.durableSequence n ⊆ insert sequence cell.durableOutOfOrder ∧
      (n = cell.state.transportSequence ∨ n + 1 ∉ insert sequence cell.durableOutOfOrder) := by
  have htransport : cell.state.transportSequence ≤ u64Max := h.transport_le
  obtain ⟨m, hm, hspec⟩ := StateCell.advanceDurable_spec htransport
    (cell.state.transportSequence - cell.state.durableSequence) cell.state.durableSequence
    (insert sequence cell.durableOutOfOrder) h.durable_le le_rfl
  rw [hm] at ha
  simp only [Prod.mk.injEq] at ha
  obtain ⟨rfl, rfl, rfl⟩ := ha
  exact ⟨rfl, rfl, hspec⟩

theorem insert_card_le {cell : StateCell} (h : Sound cell.books) {sequence : ℕ}
    (hf : ¬ (cell.durableOutOfOrder.card ≥ maxDurableOutOfOrder ∧
      sequence ∉ cell.durableOutOfOrder)) :
    (insert sequence cell.durableOutOfOrder).card ≤ maxDurableOutOfOrder := by
  by_cases hm : sequence ∈ cell.durableOutOfOrder
  · rw [Finset.insert_eq_of_mem hm]; exact h.outOfOrder_card
  · have hlt : cell.durableOutOfOrder.card < maxDurableOutOfOrder :=
      not_le.1 fun hge => hf ⟨hge, hm⟩
    rw [Finset.card_insert_of_notMem hm]
    exact hlt

theorem Sound.acts {cell : StateCell} {op : Op} {books : Books} {r : Reply}
    (h : Sound cell.books) (ha : cell.Acts op books r) : Sound books := by
  cases ha with
  | update hu => exact h.of_step (.transition hu)
  | retained | released =>
    exact ⟨h.enqueued_le, h.durable_le, h.transport_le, h.outOfOrder_card, h.dropped_length, rfl⟩
  | @replaced evidence =>
    have hinsert : Sound { cell.books with
        rawFrames := cell.rawFrames.insert evidence.frameSequence evidence
        state := { cell.state with
          pendingRawFrameCount :=
            (cell.rawFrames.insert evidence.frameSequence evidence).size } } :=
      ⟨h.enqueued_le, h.durable_le, h.transport_le, h.outOfOrder_card, h.dropped_length, rfl⟩
    exact hinsert.of_step (.advanceGapVersion rfl)
  | strangerDropped | dropOverflowed | acknowledgeOverflowed =>
    exact h.of_step (.advanceGapVersion rfl)
  | @dropped range droppedRanges hk hr =>
    have hdrop : Sound { cell.books with droppedRanges } :=
      ⟨h.enqueued_le, h.durable_le, h.transport_le, h.outOfOrder_card,
        recordDrop_length hr h.dropped_length, h.pending⟩
    exact hdrop.of_step (.advanceGapVersion rfl)
  | acknowledged hd ht hf ha =>
    obtain ⟨rfl, rfl, -, hnt, -⟩ := h.advanced ha
    exact ⟨h.enqueued_le, hnt, h.transport_le,
      (Finset.card_le_card Finset.sdiff_subset).trans (insert_card_le h hf), h.dropped_length,
      h.pending⟩
  | @installed f he =>
    obtain ⟨hs, ho, hd⟩ := he
    have hspec := catchUpFrontier_spec _ f.evidence.frontier
    rw [← ho, ← hd] at hspec
    refine ⟨?_, ?_, ?_, (Finset.card_le_card hspec.2.2.1).trans h.outOfOrder_card,
      (hspec.2.2.2.length_le).trans h.dropped_length, ?_⟩ <;> dsimp only <;>
      rw [f.evidence.next_eq, ← hs]
    · exact h.enqueued_le
    · exact le_rfl
    · exact h.transport_le
    · exact h.pending

theorem Sound.call {c : CellCall} (h : Sound c.pre.books) : Sound c.post.books := by
  have ho := c.outcome
  generalize c.post.books = books, c.out = r at ho ⊢
  cases ho with
  | refused hr hu =>
    have hs := h.of_step (.of_ledgerCounters c.pre.failClosedAfterPoison_ledgerCounters)
    exact ⟨hs.enqueued_le, hs.durable_le, hs.transport_le, hs.outOfOrder_card,
      hs.dropped_length, hs.pending⟩
  | answers ha => exact h
  | acts hopen ha => exact h.acts ha

/-! ## Accounts -/

/-- An acknowledgement of `sequence` returned `true`. -/
def Acknowledged (cs : List CellCall) (sequence : ℕ) : Prop :=
  ∃ c ∈ cs, c.input = .acknowledgeDurable sequence ∧ c.out = .bool true

/-- The call drops a range that contains `sequence`, and returns `true`. -/
def CellCall.Drops (sequence : ℕ) (c : CellCall) : Prop :=
  ∃ range, c.input = .markDropped range ∧ c.out = .bool true ∧
    range.first ≤ sequence ∧ sequence ≤ range.last

/-- The call commits a catch-up that takes the durable frontier over `sequence`. -/
def CellCall.Retires (sequence : ℕ) (c : CellCall) : Prop :=
  ∃ f, c.event = .caughtUp f ∧ f.expectedState.durableSequence < sequence ∧
    sequence ≤ f.nextState.durableSequence

/-- A drop of `sequence`, and later a commit that retired it. -/
def DroppedAndRetired (cs : List CellCall) (sequence : ℕ) : Prop :=
  ∃ as c bs, cs = as ++ c :: bs ∧ c.Drops sequence ∧ ∃ d ∈ bs, d.Retires sequence

/-- What the calls behind a cell account for. -/
structure Accounted (cs : List CellCall) (books : Books) : Prop where
  durable : ∀ s, 1 ≤ s → s ≤ books.state.durableSequence →
    Acknowledged cs s ∨ DroppedAndRetired cs s
  outOfOrder : ∀ s ∈ books.durableOutOfOrder, Acknowledged cs s
  dropped : ∀ s, Covered books.droppedRanges s → ∃ c ∈ cs, c.Drops s

theorem Acknowledged.snoc {cs : List CellCall} {sequence : ℕ} (h : Acknowledged cs sequence)
    (c : CellCall) : Acknowledged (cs ++ [c]) sequence :=
  let ⟨d, hd, h⟩ := h
  ⟨d, List.mem_append_left _ hd, h⟩

theorem DroppedAndRetired.snoc {cs : List CellCall} {sequence : ℕ}
    (h : DroppedAndRetired cs sequence) (c : CellCall) :
    DroppedAndRetired (cs ++ [c]) sequence := by
  obtain ⟨as, d, bs, rfl, hd, e, he, hr⟩ := h
  exact ⟨as, d, bs ++ [c], by simp, hd, e, List.mem_append_left _ he, hr⟩

/-- More calls account for as much. -/
theorem Accounted.snoc {cs : List CellCall} {books books' : Books} (h : Accounted cs books)
    (c : CellCall) (hs : books'.state.durableSequence = books.state.durableSequence)
    (ho : books'.durableOutOfOrder = books.durableOutOfOrder)
    (hd : books'.droppedRanges = books.droppedRanges) : Accounted (cs ++ [c]) books' where
  durable s h1 h2 := (h.durable s h1 (hs ▸ h2)).imp (·.snoc c) (·.snoc c)
  outOfOrder s hm := (h.outOfOrder s (ho ▸ hm)).snoc c
  dropped s hc :=
    let ⟨e, he, hr⟩ := h.dropped s (hd ▸ hc)
    ⟨e, List.mem_append_left _ he, hr⟩

/-- A recorded drop covers what the ledger covered, and the range. -/
theorem recordDrop_covered {ranges ranges' : List (ℕ × ℕ)} {range : TransportSequenceRange}
    (h : StateCell.recordDrop ranges range = some ranges') {s : ℕ} (hc : Covered ranges' s) :
    Covered ranges s ∨ range.first ≤ s ∧ s ≤ range.last := by
  have happend : ∀ r ∈ ranges ++ [(range.first, range.last)], r.1 ≤ s → s ≤ r.2 →
      Covered ranges s ∨ range.first ≤ s ∧ s ≤ range.last := by
    intro r hr h1 h2
    rcases List.mem_append.1 hr with hr | hr
    · exact .inl ⟨r, hr, h1, h2⟩
    · obtain rfl := List.mem_singleton.1 hr; exact .inr ⟨h1, h2⟩
  obtain ⟨r, hr, h1, h2⟩ := hc
  unfold StateCell.recordDrop at h
  split at h
  · next first previousLast hlast =>
    have hmem : (first, previousLast) ∈ ranges := List.mem_of_getLast? hlast
    split_ifs at h with hm hlt
    · obtain rfl := Option.some.inj h
      have hnext := (checkedAdd_eq_some.1 hm).2
      rcases List.mem_append.1 hr with hr | hr
      · exact .inl ⟨r, List.mem_of_mem_dropLast hr, h1, h2⟩
      · obtain rfl := List.mem_singleton.1 hr
        -- the merged range: its old part, or what the drop added
        by_cases hs : s ≤ previousLast
        · exact .inl ⟨_, hmem, h1, hs⟩
        · exact .inr ⟨by omega, h2⟩
    · obtain rfl := Option.some.inj h; exact happend r hr h1 h2
  · split_ifs at h with hlt
    obtain rfl := Option.some.inj h; exact happend r hr h1 h2

theorem Accounted.call {cs : List CellCall} {c : CellCall} (hs : Sound c.pre.books)
    (h : Accounted cs c.pre.books) : Accounted (cs ++ [c]) c.post.books := by
  have ho := c.outcome
  have hlast : c ∈ cs ++ [c] := List.mem_append_right _ (List.mem_singleton_self c)
  generalize c.post.books = books, hr : c.out = r, hop : c.input = op at ho ⊢
  cases ho with
  | refused hg hu =>
    have hl := c.pre.failClosedAfterPoison_ledgerCounters
    simp only [AuthenticatedUserWsState.ledgerCounters, Prod.mk.injEq] at hl
    exact h.snoc c hl.2.2.1 rfl rfl
  | answers ha => exact h.snoc c rfl rfl rfl
  | acts hopen ha =>
    cases ha with
    | update hu => exact h.snoc c (LedgerStep.transition hu).durable rfl rfl
    | retained | released => exact h.snoc c rfl rfl rfl
    | replaced | strangerDropped | dropOverflowed | acknowledgeOverflowed =>
      exact h.snoc c (LedgerStep.advanceGapVersion rfl).durable rfl rfl
    | @dropped range droppedRanges hk hd =>
      have hprior : Accounted (cs ++ [c]) { c.pre.books with
          state := { c.pre.state with deliveryGap := true }.advanceGapVersion.1 } :=
        h.snoc c (LedgerStep.advanceGapVersion rfl).durable rfl rfl
      refine ⟨hprior.durable, hprior.outOfOrder, fun s hc => ?_⟩
      rcases recordDrop_covered hd hc with hc | hc
      · exact hprior.dropped s hc
      · exact ⟨c, hlast, range, hop, hr, hc⟩
    | @acknowledged sequence _ _ _ hd ht hf ha =>
      obtain ⟨rfl, rfl, -, -, hsub, -⟩ := hs.advanced ha
      have hack : ∀ s ∈ insert sequence c.pre.durableOutOfOrder, Acknowledged (cs ++ [c]) s := by
        intro s hmem
        rcases Finset.mem_insert.1 hmem with rfl | hmem
        · exact ⟨c, hlast, hop, hr⟩
        · exact (h.outOfOrder s hmem).snoc c
      refine ⟨fun s h1 h2 => ?_, fun s hmem => hack s (Finset.mem_sdiff.1 hmem).1,
        (h.snoc c rfl rfl rfl : Accounted (cs ++ [c]) c.pre.books).dropped⟩
      by_cases hle : s ≤ c.pre.state.durableSequence
      · exact (h.durable s h1 hle).imp (·.snoc c) (·.snoc c)
      · exact .inl (hack s (hsub (Finset.mem_Ioc.2 ⟨not_le.1 hle, h2⟩)))
    | @installed f he =>
      have hcaught : c.event = .caughtUp f := CellCall.event_eq_caughtUp.2 ⟨hop, hr⟩
      obtain ⟨hst, hou, hdr⟩ := he
      have hspec := catchUpFrontier_spec _ f.evidence.frontier
      rw [← hst, ← hou, ← hdr] at hspec
      obtain ⟨-, hcov, hsub, hsuf⟩ := hspec
      have hnext : f.nextState.durableSequence = c.pre.state.transportSequence := by
        rw [f.evidence.next_eq, ← hst]; rfl
      refine ⟨fun s h1 h2 => ?_, fun s hmem => (h.outOfOrder s (hsub hmem)).snoc c,
        fun s ⟨r, hr, hb⟩ => ?_⟩
      · by_cases hle : s ≤ c.pre.state.durableSequence
        · exact (h.durable s h1 hle).imp (·.snoc c) (·.snoc c)
        · rcases hcov s (not_le.1 hle) (hnext ▸ h2) with hm | hm
          · exact .inl ((h.outOfOrder s hm).snoc c)
          · obtain ⟨d, hd, hdrop⟩ := h.dropped s hm
            obtain ⟨as, bs, rfl⟩ := List.append_of_mem hd
            exact .inr ⟨as, d, bs ++ [c], by simp, hdrop, c,
              List.mem_append_right _ (List.mem_singleton_self c), f, hcaught,
              hst ▸ not_le.1 hle, h2⟩
      · obtain ⟨d, hd, hdrop⟩ := h.dropped s ⟨r, hsuf.subset hr, hb⟩
        exact ⟨d, List.mem_append_left _ hd, hdrop⟩

section
variable {credentialIdentity : AuthenticatedCredentialIdentity} {cs : List CellCall}
  {cell : StateCell}

theorem CellRun.sound (h : CellRun credentialIdentity cs cell) : Sound cell.books :=
  h.invariant (P := fun cell => Sound cell.books) (.new _)
    fun s op hs => Sound.call (c := ⟨s, op⟩) hs

theorem CellRun.accounted (h : CellRun credentialIdentity cs cell) : Accounted cs cell.books := by
  induction h with
  | nil =>
    exact ⟨fun s h1 h2 => absurd (h1.trans h2) (Nat.not_succ_le_zero 0),
      fun s hm => absurd hm (Finset.notMem_empty s),
      fun s ⟨r, hr, _⟩ => absurd hr List.not_mem_nil⟩
  | @snoc cs s op h _ ih => exact Accounted.call (c := ⟨s, op⟩) (CellRun.sound h) ih

/-- Every durable sequence was acknowledged, or dropped and retired by a commit; the counters
    and the ledgers are in bounds; every call lets the counters only rise; and neither loop
    ever meets an exhausted durable counter. -/
theorem durability_accounting (h : CellRun credentialIdentity cs cell) :
    (∀ s, 1 ≤ s → s ≤ cell.state.durableSequence →
      Acknowledged cs s ∨ DroppedAndRetired cs s) ∧
    cell.state.durableSequence ≤ cell.state.transportSequence ∧
    cell.state.enqueuedSequence ≤ cell.state.transportSequence ∧
    cell.durableOutOfOrder.card ≤ maxDurableOutOfOrder ∧
    cell.droppedRanges.length ≤ maxDroppedRanges ∧
    cell.state.pendingRawFrameCount = cell.rawFrames.size ∧
    (∀ c ∈ cs, Grows c.pre.state c.post.state) ∧
    (∀ sequence, (StateCell.advanceDurable cell.state.transportSequence
      (cell.state.transportSequence - cell.state.durableSequence) cell.state.durableSequence
      (insert sequence cell.durableOutOfOrder)).2.2 = false) ∧
    catchUpFrontier cell.state.transportSequence (cell.state.frontierFuel cell.droppedRanges)
      cell.state.durableSequence cell.durableOutOfOrder cell.droppedRanges ≠ none := by
  have hs := CellRun.sound h
  refine ⟨(CellRun.accounted h).durable, hs.durable_le, hs.enqueued_le, hs.outOfOrder_card,
    hs.dropped_length, hs.pending, fun c _ => CellCall.grows c, fun sequence => ?_,
    catchUpFrontier_ne_none hs.transport_le⟩
  exact (hs.advanced rfl).2.1

end

/-- The one event of a recovered channel is accounted for. -/
theorem durability_accounting_recovered :
    ∃ (cs : List CellCall) (cell : StateCell), CellRun {} cs cell ∧
      cell.state.durableSequence = 1 ∧ (Acknowledged cs 1 ∨ DroppedAndRetired cs 1) := by
  let f := (recoveryFinalization [] 1).get (by decide)
  have hrun := recovery_run (by simp) (Option.some_get _ : some f = recoveryFinalization [] 1).symm
  have hdurable : (recoveryCommit [] 1 f).post.state.durableSequence = 1 := by decide
  exact ⟨_, _, hrun, hdurable, (durability_accounting hrun).1 1 le_rfl hdurable.ge⟩

end Rspm
