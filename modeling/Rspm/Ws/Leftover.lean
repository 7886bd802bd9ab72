/-
  What the two ledgers still hold.

  The catch-up loop jumps over a dropped range without looking at what was
  acknowledged inside it, and neither an acknowledgement nor a drop compares the
  ranges with the durable frontier: an entry can be left behind.
  `ledgers_outstanding_iff`: in a run nothing is left behind exactly when its
  calls keep what is dropped and what is acknowledged apart.
-/
import Rspm.Ws.Acknowledge

namespace Rspm

/-! ## What a call does to the ledgers -/

namespace StateCell

variable (cell : StateCell)

/-- A drop of the range gets to the ledger. -/
def takesDrop (range : TransportSequenceRange) : Prop :=
  cell.isOpen ∧ cell.droppedPoisoned = false ∧ cell.state.knowsRange range

/-- An acknowledgement of the sequence gets to the ledger, and finds room there. -/
def takesAcknowledgement (sequence : ℕ) : Prop :=
  cell.isOpen ∧ cell.durablePoisoned = false ∧ cell.state.durableSequence < sequence ∧
    sequence ≤ cell.state.transportSequence ∧
    (cell.durableOutOfOrder.card < maxDurableOutOfOrder ∨ sequence ∈ cell.durableOutOfOrder)

/-- A commit installs the finalization. -/
def takesCommit (finalization : AuthenticatedUserCatchUpFinalization) : Prop :=
  cell.isOpen ∧ cell.durablePoisoned = false ∧ cell.droppedPoisoned = false ∧
    cell.expects finalization

instance (range : TransportSequenceRange) : Decidable (cell.takesDrop range) :=
  inferInstanceAs (Decidable (_ ∧ _))

instance (sequence : ℕ) : Decidable (cell.takesAcknowledgement sequence) :=
  inferInstanceAs (Decidable (_ ∧ _))

instance (finalization : AuthenticatedUserCatchUpFinalization) :
    Decidable (cell.takesCommit finalization) :=
  inferInstanceAs (Decidable (_ ∧ _))

variable {cell}

theorem lock_of_isOpen {β : Type} (ho : cell.isOpen) (refused : β) (body : StateCell → Locked β) :
    cell.lock refused body = body cell := by
  rcases cell.lock_cases refused body with ⟨hc, -, -⟩ | ⟨-, h⟩
  · exact absurd ho hc
  · exact h

/-- A drop that gets to the ledger is recorded there, or closes the consumer. -/
theorem markDropped_of_takes {range : TransportSequenceRange} (h : cell.takesDrop range) :
    cell.markDropped range =
      match recordDrop cell.droppedRanges range with
      | some droppedRanges =>
        let state := { cell.state with deliveryGap := true }.advanceGapVersion.1
        ⟨{ cell with droppedRanges, state }, some state, true⟩
      | none =>
        let state :=
          { cell.state with consumerClosed := true, deliveryGap := true }.advanceGapVersion.1
        ⟨{ cell with state }, some state, false⟩ := by
  obtain ⟨ho, hp, hk⟩ := h
  rewrite [markDropped, lock_of_isOpen ho, if_neg (not_not.2 hk), if_neg (by rw [hp]; simp)]
  cases recordDrop cell.droppedRanges range <;> rfl

theorem takesDrop_of_true {range : TransportSequenceRange}
    (h : (cell.markDropped range).result = true) : cell.takesDrop range := by
  unfold markDropped at h
  rcases cell.lock_cases false _ with ⟨-, -, hr⟩ | ⟨ho, he⟩
  · rw [hr] at h
    cases h
  · rw [he] at h
    refine ⟨ho, ?_⟩
    by_cases hk : cell.state.knowsRange range
    · rw [if_neg (not_not.2 hk)] at h
      cases hp : cell.droppedPoisoned with
      | true =>
        rw [hp, if_pos rfl] at h
        cases h
      | false => exact ⟨rfl, hk⟩
    · rw [if_pos hk] at h
      cases h

/-- An acknowledgement that gets to the ledger returns `true`. -/
theorem acknowledgeDurable_of_takes {sequence : ℕ} (hT : cell.state.transportSequence ≤ u64Max)
    (hD : cell.state.durableSequence ≤ cell.state.transportSequence)
    (h : cell.takesAcknowledgement sequence) :
    (cell.acknowledgeDurable sequence).result = true := by
  obtain ⟨ho, hp, hd, ht, hroom⟩ := h
  obtain ⟨n, hn, -⟩ := advanceDurable_spec hT
    (cell.state.transportSequence - cell.state.durableSequence) cell.state.durableSequence
    (insert sequence cell.durableOutOfOrder) hD le_rfl
  have hzero : ¬ (sequence = 0 ∨ sequence > cell.state.transportSequence) := by omega
  have hold : ¬ sequence ≤ cell.state.durableSequence := by omega
  have hfull : ¬ (cell.durableOutOfOrder.card ≥ maxDurableOutOfOrder ∧
      sequence ∉ cell.durableOutOfOrder) := by
    rintro ⟨hge, hm⟩
    rcases hroom with hlt | hin
    · omega
    · exact hm hin
  simp [acknowledgeDurable, lock, ho.1, ho.2, hp, hzero, hold, hfull, hn]

theorem durablePoisoned_of_true {sequence : ℕ}
    (h : (cell.acknowledgeDurable sequence).result = true)
    (hd : cell.state.durableSequence < sequence)
    (ht : sequence ≤ cell.state.transportSequence) : cell.durablePoisoned = false := by
  unfold acknowledgeDurable at h
  rcases cell.lock_cases false _ with ⟨-, -, hr⟩ | ⟨ho, he⟩
  · rw [hr] at h
    cases h
  · rw [he] at h
    cases hp : cell.durablePoisoned with
    | true =>
      rw [if_neg (by omega), if_neg (by omega), hp, if_pos rfl] at h
      cases h
    | false => rfl

theorem commitCatchUpFinalization_of_takes {f : AuthenticatedUserCatchUpFinalization}
    (h : cell.takesCommit f) : (cell.commitCatchUpFinalization f).result = true := by
  obtain ⟨ho, hd, hp, hx⟩ := h
  simp [commitCatchUpFinalization, lock, ho.1, ho.2, hd, hp, hx]

theorem takesCommit_of_true {f : AuthenticatedUserCatchUpFinalization}
    (h : (cell.commitCatchUpFinalization f).result = true) : cell.takesCommit f := by
  unfold commitCatchUpFinalization at h
  rcases cell.lock_cases false _ with ⟨-, -, hr⟩ | ⟨ho, he⟩
  · rw [hr] at h
    cases h
  · rw [he] at h
    refine ⟨ho, ?_⟩
    cases hd : cell.durablePoisoned with
    | true =>
      rw [hd, if_pos rfl] at h
      cases h
    | false =>
      cases hp : cell.droppedPoisoned with
      | true =>
        rw [hd, hp, if_neg Bool.false_ne_true, if_pos rfl] at h
        cases h
      | false =>
        refine ⟨rfl, rfl, ?_⟩
        by_contra hx
        simp [hd, hp, hx] at h

end StateCell

/-- What a call does to the two ledgers and to the frontiers beside them. -/
inductive CellCall.LedgerMove (c : CellCall) : Prop
  | rests (ht : c.pre.state.transportSequence ≤ c.post.state.transportSequence)
      (hd : c.post.state.durableSequence = c.pre.state.durableSequence)
      (ho : c.post.durableOutOfOrder = c.pre.durableOutOfOrder)
      (hr : c.post.droppedRanges = c.pre.droppedRanges)
      (hdrop : ∀ range, c.input = .markDropped range → c.out ≠ .bool true)
      (hack : ∀ s, c.input = .acknowledgeDurable s → ¬ c.pre.takesAcknowledgement s)
      (hcommit : ∀ f, c.input = .commitCatchUpFinalization f → c.out ≠ .bool true)
  | drops {range : TransportSequenceRange} (hi : c.input = .markDropped range)
      (hout : c.out = .bool true) (htakes : c.pre.takesDrop range)
      (ht : c.post.state.transportSequence = c.pre.state.transportSequence)
      (hd : c.post.state.durableSequence = c.pre.state.durableSequence)
      (ho : c.post.durableOutOfOrder = c.pre.durableOutOfOrder)
      (hr : StateCell.recordDrop c.pre.droppedRanges range = some c.post.droppedRanges)
  | acknowledges {sequence : ℕ} (hi : c.input = .acknowledgeDurable sequence)
      (htakes : c.pre.takesAcknowledgement sequence)
      (ht : c.post.state.transportSequence = c.pre.state.transportSequence)
      (hn : IsFrontier c.pre.state.durableSequence c.pre.state.transportSequence
        (insert sequence c.pre.durableOutOfOrder) c.post.state.durableSequence)
      (ho : c.post.durableOutOfOrder = insert sequence c.pre.durableOutOfOrder \
        Finset.Ioc c.pre.state.durableSequence c.post.state.durableSequence)
      (hr : c.post.droppedRanges = c.pre.droppedRanges)
  | installs {f : AuthenticatedUserCatchUpFinalization}
      (hi : c.input = .commitCatchUpFinalization f) (hout : c.out = .bool true)
      (htakes : c.pre.takesCommit f)
      (ht : c.post.state.transportSequence = c.pre.state.transportSequence)
      (hd : c.post.state.durableSequence = c.pre.state.transportSequence)
      (hf : catchUpFrontier c.pre.state.transportSequence
        (c.pre.state.frontierFuel c.pre.droppedRanges) c.pre.state.durableSequence
        c.pre.durableOutOfOrder c.pre.droppedRanges =
          some (c.pre.state.transportSequence, c.post.durableOutOfOrder, c.post.droppedRanges))

/-! ## One step -/

theorem CellCall.out_markDropped {c : CellCall} {range : TransportSequenceRange}
    (hi : c.input = .markDropped range) : c.out = .bool (c.pre.markDropped range).result := by
  cases c with
  | mk cell op => cases hi; rfl

theorem CellCall.out_acknowledgeDurable {c : CellCall} {sequence : ℕ}
    (hi : c.input = .acknowledgeDurable sequence) :
    c.out = .bool (c.pre.acknowledgeDurable sequence).result := by
  cases c with
  | mk cell op => cases hi; rfl

theorem CellCall.out_commitCatchUpFinalization {c : CellCall}
    {f : AuthenticatedUserCatchUpFinalization} (hi : c.input = .commitCatchUpFinalization f) :
    c.out = .bool (c.pre.commitCatchUpFinalization f).result := by
  cases c with
  | mk cell op => cases hi; rfl

theorem CellCall.ledgerMove {c : CellCall} (hs : Sound c.pre.books) : c.LedgerMove := by
  have ho := c.outcome
  -- a call that leaves the ledgers and the durable frontier as they are
  have hrests : ∀ {state : AuthenticatedUserWsState} {books : Books},
      c.post.books = books → LedgerStep state books.state →
      state.transportSequence = c.pre.state.transportSequence →
      state.durableSequence = c.pre.state.durableSequence →
      books.durableOutOfOrder = c.pre.durableOutOfOrder →
      books.droppedRanges = c.pre.droppedRanges →
      (∀ range, c.input = .markDropped range → c.out ≠ .bool true) →
      (∀ s, c.input = .acknowledgeDurable s → ¬ c.pre.takesAcknowledgement s) →
      (∀ f, c.input = .commitCatchUpFinalization f → c.out ≠ .bool true) → c.LedgerMove := by
    rintro state _ rfl hstep ht hd ho hr
    exact .rests (ht.ge.trans hstep.transport) (hstep.durable.trans hd) ho hr
  have hidle : c.out.grants = false →
      ∀ s, c.input = .acknowledgeDurable s → ¬ c.pre.takesAcknowledgement s := by
    intro hg s hi htakes
    rw [CellCall.out_acknowledgeDurable hi, StateCell.acknowledgeDurable_of_takes hs.transport_le
      hs.durable_le htakes] at hg
    cases hg
  generalize hb : c.post.books = books, hr : c.out = r, hop : c.input = op at ho
  have hfalse : r.grants = false → r ≠ .bool true := by
    rintro hg rfl
    cases hg
  cases ho with
  | refused hg hu =>
    exact hrests hb (.of_ledgerCounters c.pre.failClosedAfterPoison_ledgerCounters) rfl rfl rfl rfl
      (fun _ _ => hr ▸ hfalse hg) (hidle (hr ▸ hg)) (fun _ _ => hr ▸ hfalse hg)
  | answers ha =>
    refine hrests hb (.of_ledgerCounters rfl) rfl rfl rfl rfl ?_ ?_ ?_
    · intro range hi hout
      subst hop hr
      rw [hi, hout] at ha
      cases ha with
      | nothing hg => cases hg
    · intro s hi
      cases ha with
      | nothing hg => exact hidle (hr ▸ hg) s hi
      | durable hz hd =>
        rw [hop] at hi
        cases hi
        exact fun htakes => absurd htakes.2.2.1 (not_lt.2 hd)
      | _ =>
        rw [hop] at hi
        cases hi
    · intro f hi hout
      subst hop hr
      rw [hi, hout] at ha
      cases ha with
      | nothing hg => cases hg
  | acts hopen ha =>
    cases ha with
    | update hu =>
      refine hrests hb (.transition hu) rfl rfl rfl rfl ?_ ?_ ?_ <;> intro _ hi <;>
        rw [← hop, hi] at hu <;> cases hu
    | retained | released =>
      refine hrests hb (.of_ledgerCounters rfl) rfl rfl rfl rfl ?_ ?_ ?_ <;> intro _ hi <;>
        rw [hop] at hi <;> cases hi
    | replaced =>
      refine hrests hb (.advanceGapVersion rfl) rfl rfl rfl rfl ?_ ?_ ?_ <;> intro _ hi <;>
        rw [hop] at hi <;> cases hi
    | strangerDropped | dropOverflowed =>
      refine hrests hb (.advanceGapVersion rfl) rfl rfl rfl rfl ?_ ?_ ?_
      · intro _ _
        exact hr ▸ hfalse rfl
      · intro _ hi
        rw [hop] at hi
        cases hi
      · intro _ hi
        rw [hop] at hi
        cases hi
    | acknowledgeOverflowed =>
      refine hrests hb (.advanceGapVersion rfl) rfl rfl rfl rfl ?_ (hidle (hr ▸ rfl)) ?_
      · intro _ hi
        rw [hop] at hi
        cases hi
      · intro _ hi
        rw [hop] at hi
        cases hi
    | @dropped range droppedRanges hk hd =>
      have hcounters : c.post.state.ledgerCounters = c.pre.state.ledgerCounters := by
        rw [show c.post.state = _ from congrArg Books.state hb]
        exact AuthenticatedUserWsState.advanceGapVersion_ledgerCounters _
      simp only [AuthenticatedUserWsState.ledgerCounters, Prod.mk.injEq] at hcounters
      refine .drops hop hr ?_ hcounters.1 hcounters.2.2.1 (congrArg Books.durableOutOfOrder hb) ?_
      · exact StateCell.takesDrop_of_true
          (Reply.bool.inj ((CellCall.out_markDropped hop).symm.trans hr))
      · rw [hd]
        exact congrArg some (congrArg Books.droppedRanges hb).symm
    | @acknowledged sequence n _ _ hd ht hf ha =>
      obtain ⟨rfl, rfl, hdn, hnT, hsub, hstop⟩ := hs.advanced ha
      have hstate : c.post.state = { c.pre.state with durableSequence := n } :=
        congrArg Books.state hb
      have hdurable : c.post.state.durableSequence = n := by rw [hstate]
      have hroom : c.pre.durableOutOfOrder.card < maxDurableOutOfOrder ∨
          sequence ∈ c.pre.durableOutOfOrder := by
        by_contra hx
        rw [not_or, not_lt] at hx
        exact hf hx
      refine .acknowledges hop ⟨hopen, ?_, hd, ht, hroom⟩ ?_ ?_ ?_
        (congrArg Books.droppedRanges hb)
      · exact StateCell.durablePoisoned_of_true
          (Reply.bool.inj ((CellCall.out_acknowledgeDurable hop).symm.trans hr)) hd ht
      · rw [hstate]
      · rw [hdurable]
        exact ⟨hdn, hnT, hsub, hstop⟩
      · rw [hdurable]
        exact congrArg Books.durableOutOfOrder hb
    | @installed f he =>
      have hstate : c.post.state = f.nextState := congrArg Books.state hb
      obtain ⟨hst, hou, hdr⟩ := id he
      refine .installs hop hr ?_ ?_ ?_ ?_
      · exact StateCell.takesCommit_of_true
          (Reply.bool.inj ((CellCall.out_commitCatchUpFinalization hop).symm.trans hr))
      · rw [hstate, f.evidence.next_eq, ← hst]
        rfl
      · rw [hstate, f.evidence.next_eq, ← hst]
        rfl
      · have hf := f.evidence.frontier
        rw [← hst, ← hou, ← hdr] at hf
        rw [hf, show c.post.durableOutOfOrder = _ from congrArg Books.durableOutOfOrder hb,
          show c.post.droppedRanges = _ from congrArg Books.droppedRanges hb]

/-! ## What the ledgers hold -/

/-- The recorded ranges were reserved. -/
def RangesReserved (books : Books) : Prop :=
  ∀ r ∈ books.droppedRanges, 1 ≤ r.1 ∧ r.1 ≤ r.2 ∧ r.2 ≤ books.state.transportSequence

/-- Nothing in the ledgers is durable already. -/
structure OutstandingOnly (books : Books) : Prop where
  outOfOrder : ∀ s ∈ books.durableOutOfOrder, books.state.durableSequence < s
  dropped : ∀ s, Covered books.droppedRanges s → books.state.durableSequence < s

/-- A ledger with room for one range: it is empty, or it holds one. -/
theorem ranges_cases {ranges : List (ℕ × ℕ)} (hl : ranges.length ≤ maxDroppedRanges) :
    ranges = [] ∨ ∃ first last, ranges = [(first, last)] := by
  match ranges, hl with
  | [], _ => exact .inl rfl
  | [(first, last)], _ => exact .inr ⟨first, last, rfl⟩
  | _ :: _ :: _, hl =>
    simp only [maxDroppedRanges, List.length_cons] at hl
    omega

theorem recordDrop_nil (range : TransportSequenceRange) :
    StateCell.recordDrop [] range = some [(range.first, range.last)] := rfl

/-- A ledger that holds a range takes only the one that continues it. -/
theorem recordDrop_singleton {first previousLast : ℕ} {range : TransportSequenceRange}
    (hmax : range.first ≤ u64Max) :
    StateCell.recordDrop [(first, previousLast)] range =
      if previousLast + 1 = range.first then some [(first, range.last)] else none := by
  have hnext : checkedAdd previousLast 1 = some range.first ↔ previousLast + 1 = range.first := by
    rw [checkedAdd_eq_some]
    omega
  simp [StateCell.recordDrop, maxDroppedRanges, hnext]

theorem covered_singleton {first last s : ℕ} :
    Covered [(first, last)] s ↔ first ≤ s ∧ s ≤ last := by
  simp [Covered]

theorem not_covered_nil (s : ℕ) : ¬ Covered [] s := by
  simp [Covered]

/-- What is covered starts at the first sequence of a range. -/
theorem RangesReserved.dropped_iff {books : Books} (h : RangesReserved books) {n : ℕ} :
    (∀ s, Covered books.droppedRanges s → n < s) ↔ ∀ r ∈ books.droppedRanges, n < r.1 := by
  constructor
  · intro hc r hr
    exact hc r.1 ⟨r, hr, le_rfl, (h r hr).2.1⟩
  · rintro hr s ⟨r, hm, hle, -⟩
    exact (hr r hm).trans_le hle

theorem RangesReserved.call {c : CellCall} (hs : Sound c.pre.books)
    (h : RangesReserved c.pre.books) : RangesReserved c.post.books := by
  cases CellCall.ledgerMove hs with
  | rests ht hd ho hr =>
    intro r hm
    have hm : r ∈ c.pre.droppedRanges := hr ▸ hm
    exact ⟨(h r hm).1, (h r hm).2.1, (h r hm).2.2.trans ht⟩
  | @drops range hi hout htakes ht hd ho hr =>
    obtain ⟨hz, hle, hmax⟩ := htakes.2.2
    have hnew : 1 ≤ range.first ∧ range.first ≤ range.last ∧
        range.last ≤ c.post.state.transportSequence :=
      ⟨Nat.one_le_iff_ne_zero.2 hz, hle, ht.symm ▸ hmax⟩
    intro r hm
    have hm : r ∈ c.post.droppedRanges := hm
    rcases ranges_cases hs.dropped_length with he | ⟨first, last, he⟩ <;>
      have he : c.pre.droppedRanges = _ := he <;> rw [he] at hr
    · rw [recordDrop_nil] at hr
      rw [← Option.some.inj hr, List.mem_singleton] at hm
      rw [hm]
      exact hnew
    · rw [recordDrop_singleton (hle.trans (hmax.trans hs.transport_le))] at hr
      split_ifs at hr with hnext
      rw [← Option.some.inj hr, List.mem_singleton] at hm
      have hold := h (first, last) (by
        show (first, last) ∈ c.pre.droppedRanges
        rw [he]
        exact List.mem_singleton_self _)
      rw [hm]
      refine ⟨hold.1, ?_, hnew.2.2⟩
      have hfirst : first ≤ last := hold.2.1
      show first ≤ range.last
      omega
  | acknowledges hi htakes ht hn ho hr =>
    intro r hm
    have hm : r ∈ c.pre.droppedRanges := hr ▸ hm
    show _ ∧ _ ∧ _ ≤ c.post.state.transportSequence
    rw [ht]
    exact h r hm
  | installs hi hout htakes ht hd hf =>
    intro r hm
    have hm : r ∈ c.pre.droppedRanges := (catchUpFrontier_spec _ hf).2.2.2.subset hm
    show _ ∧ _ ∧ _ ≤ c.post.state.transportSequence
    rw [ht]
    exact h r hm

/-! ## The catch-up of one range -/

/-- Without a range the loop takes what it passes. -/
theorem catchUpFrontier_nil {transportWatermark : ℕ} :
    ∀ (fuel : ℕ) {durableSequence n : ℕ} {acknowledged nextDurable : Finset ℕ}
      {nextDropped : List (ℕ × ℕ)},
      catchUpFrontier transportWatermark fuel durableSequence acknowledged [] =
        some (n, nextDurable, nextDropped) →
      nextDurable = acknowledged \ Finset.Ioc durableSequence n ∧ nextDropped = [] := by
  intro fuel
  induction fuel with
  | zero =>
    intro d n o o' r' h
    cases h
    simp
  | succ fuel ih =>
    intro d n o o' r' h
    unfold catchUpFrontier at h
    by_cases hge : d ≥ transportWatermark
    · rw [if_pos hge] at h
      cases h
      simp
    rw [if_neg hge] at h
    rcases StateCell.nextDurableSequence_cases d with ⟨-, hn⟩ | ⟨-, hn⟩ <;> rw [hn] at h
    swap
    · cases h
    dsimp only at h
    by_cases hm : d + 1 ∈ o
    · rw [if_pos hm] at h
      have hle := (catchUpFrontier_spec _ h).1
      obtain ⟨rfl, rfl⟩ := ih h
      refine ⟨?_, rfl⟩
      ext s
      simp only [Finset.mem_sdiff, Finset.mem_erase, Finset.mem_Ioc]
      by_cases hs : s ∈ o
      · simp only [hs, and_true, true_and]
        omega
      · simp only [hs, and_false, false_and]
    · rw [if_neg hm] at h
      cases h
      simp

/-- With one range that lies ahead, and its own head missing from the acknowledged, a catch-up
    that reaches the watermark leaves what was acknowledged inside the range. -/
theorem catchUpFrontier_singleton {transportWatermark fuel durableSequence first last : ℕ}
    {acknowledged nextDurable : Finset ℕ} {nextDropped : List (ℕ × ℕ)}
    (hd : durableSequence < first) (hle : first ≤ last) (hlast : last ≤ transportWatermark)
    (hhead : durableSequence + 1 ∉ acknowledged)
    (hbound : ∀ s ∈ acknowledged, durableSequence < s ∧ s ≤ transportWatermark)
    (h : catchUpFrontier transportWatermark (fuel + 1) durableSequence acknowledged
      [(first, last)] = some (transportWatermark, nextDurable, nextDropped)) :
    nextDurable = acknowledged.filter (· ∈ Finset.Icc first last) ∧ nextDropped = [] := by
  unfold catchUpFrontier at h
  rw [if_neg (by omega)] at h
  rcases StateCell.nextDurableSequence_cases durableSequence with ⟨-, hn⟩ | ⟨-, hn⟩ <;>
    rw [hn] at h
  swap
  · cases h
  dsimp only at h
  rw [if_neg hhead] at h
  split_ifs at h with hlt hin
  · -- the head was neither acknowledged nor dropped
    have he := congrArg Prod.fst (Option.some.inj h)
    dsimp only at he
    omega
  · rw [min_eq_left hlast] at h
    obtain ⟨rfl, rfl⟩ := catchUpFrontier_nil _ h
    refine ⟨?_, rfl⟩
    ext s
    simp only [Finset.mem_sdiff, Finset.mem_filter, Finset.mem_Ioc, Finset.mem_Icc]
    constructor
    · rintro ⟨hs, hout⟩
      have := hbound s hs
      exact ⟨hs, by omega, by omega⟩
    · rintro ⟨hs, hin⟩
      exact ⟨hs, by omega⟩
  · omega

/-! ## Calls that keep the ledgers apart -/

/-- The call keeps what was dropped and what was acknowledged apart: a first drop is not
    durable yet, an acknowledgement does not reach a dropped range, and a catch-up finds no
    acknowledged sequence in one. -/
def CellCall.Apart (c : CellCall) : Prop :=
  match c.input with
  | .markDropped range =>
    c.pre.takesDrop range → c.pre.droppedRanges = [] →
      c.pre.state.durableSequence < range.first
  | .acknowledgeDurable sequence =>
    c.pre.takesAcknowledgement sequence → ∀ r ∈ c.pre.droppedRanges,
      ¬ Finset.Ioc c.pre.state.durableSequence r.1 ⊆ insert sequence c.pre.durableOutOfOrder
  | .commitCatchUpFinalization f =>
    c.pre.takesCommit f → ∀ s ∈ c.pre.durableOutOfOrder, ¬ Covered c.pre.droppedRanges s
  | _ => True

/-- The call leaves nothing durable in the ledgers, and a commit leaves them empty. -/
structure CellCall.LeavesOutstanding (c : CellCall) : Prop where
  outstanding : OutstandingOnly c.post.books
  emptied : ∀ f, c.input = .commitCatchUpFinalization f → c.out = .bool true →
    c.post.durableOutOfOrder = ∅ ∧ c.post.droppedRanges = []

/-- A call that commits nothing, and leaves only undurable acknowledgements. -/
theorem CellCall.leavesOutstanding_iff {c : CellCall} (hr : RangesReserved c.post.books)
    (hacked : ∀ s ∈ c.post.durableOutOfOrder, c.post.state.durableSequence < s)
    (hcommit : ∀ f, c.input ≠ .commitCatchUpFinalization f) :
    c.LeavesOutstanding ↔ ∀ r ∈ c.post.droppedRanges, c.post.state.durableSequence < r.1 := by
  constructor
  · intro hl
    exact hr.dropped_iff.1 hl.outstanding.dropped
  · intro hl
    exact ⟨⟨hacked, hr.dropped_iff.2 hl⟩, fun f hf => absurd hf (hcommit f)⟩

/-- A commit must leave both ledgers empty, and empty ledgers hold nothing durable. -/
theorem CellCall.leavesOutstanding_iff_empty {c : CellCall}
    {f : AuthenticatedUserCatchUpFinalization} (hi : c.input = .commitCatchUpFinalization f)
    (hout : c.out = .bool true) :
    c.LeavesOutstanding ↔ c.post.durableOutOfOrder = ∅ ∧ c.post.droppedRanges = [] := by
  constructor
  · exact fun hl => hl.emptied f hi hout
  · rintro ⟨ho, hranges⟩
    refine ⟨⟨?_, ?_⟩, fun _ _ _ => ⟨ho, hranges⟩⟩
    · show ∀ s ∈ c.post.durableOutOfOrder, _
      rw [ho]
      exact fun s hm => absurd hm (Finset.notMem_empty s)
    · show ∀ s, Covered c.post.droppedRanges s → _
      rw [hranges]
      exact fun s hc => absurd hc (not_covered_nil s)

/-- One call, from ledgers that hold nothing durable. -/
theorem CellCall.apart_iff {cs : List CellCall} {c : CellCall} (hs : Sound c.pre.books)
    (hb : Backlogged cs c.pre.books) (hr : RangesReserved c.pre.books)
    (h : OutstandingOnly c.pre.books) : c.Apart ↔ c.LeavesOutstanding := by
  have hr' := RangesReserved.call hs hr
  cases CellCall.ledgerMove hs with
  | rests ht hd ho hranges hdrop hack hcommit =>
    refine iff_of_true ?_ ⟨⟨?_, ?_⟩, fun f hi hout => absurd hout (hcommit f hi)⟩
    · unfold CellCall.Apart
      split
      · next range hi =>
        intro htakes he
        have hout := CellCall.out_markDropped hi
        rw [StateCell.markDropped_of_takes htakes, he, recordDrop_nil] at hout
        exact absurd hout (hdrop range hi)
      · next s hi => exact fun htakes => absurd htakes (hack s hi)
      · next f hi =>
        intro htakes
        have hout := CellCall.out_commitCatchUpFinalization hi
        rw [StateCell.commitCatchUpFinalization_of_takes htakes] at hout
        exact absurd hout (hcommit f hi)
      · trivial
    · show ∀ s ∈ c.post.durableOutOfOrder, c.post.state.durableSequence < s
      rw [hd, ho]
      exact h.outOfOrder
    · show ∀ s, Covered c.post.droppedRanges s → c.post.state.durableSequence < s
      rw [hd, hranges]
      exact h.dropped
  | @drops range hi hout htakes ht hd ho hrecord =>
    have hacked : ∀ s ∈ c.post.durableOutOfOrder, c.post.state.durableSequence < s := by
      rw [hd, ho]
      exact h.outOfOrder
    have hnone : ∀ f, c.input ≠ .commitCatchUpFinalization f := by
      rw [hi]
      simp
    rw [CellCall.leavesOutstanding_iff hr' hacked hnone, hd]
    simp only [CellCall.Apart, hi]
    rcases ranges_cases hs.dropped_length with he | ⟨first, last, he⟩ <;>
      have he : c.pre.droppedRanges = _ := he <;> rw [he] at hrecord
    · rw [recordDrop_nil] at hrecord
      rw [← Option.some.inj hrecord]
      simp [htakes, he]
    · rw [recordDrop_singleton (htakes.2.2.2.1.trans (htakes.2.2.2.2.trans hs.transport_le))]
        at hrecord
      split_ifs at hrecord
      rw [← Option.some.inj hrecord]
      have hold := hr.dropped_iff.1 h.dropped (first, last) (by
        show (first, last) ∈ c.pre.droppedRanges
        rw [he]
        exact List.mem_singleton_self _)
      refine iff_of_true (fun _ hnil => ?_) (fun r hm => ?_)
      · rw [he] at hnil
        cases hnil
      · rw [List.mem_singleton.1 hm]
        exact hold
  | @acknowledges sequence hi htakes ht hn ho hranges =>
    -- what is left of the acknowledged lies above the new frontier
    have hacked : ∀ s ∈ c.post.durableOutOfOrder, c.post.state.durableSequence < s := by
      intro s hm
      rw [ho, Finset.mem_sdiff, Finset.mem_insert, Finset.mem_Ioc] at hm
      have hlt : c.pre.state.durableSequence < s := by
        rcases hm.1 with rfl | hm
        · exact htakes.2.2.1
        · exact h.outOfOrder s hm
      omega
    have hnone : ∀ f, c.input ≠ .commitCatchUpFinalization f := by
      rw [hi]
      simp
    rw [CellCall.leavesOutstanding_iff hr' hacked hnone, hranges]
    simp only [CellCall.Apart, hi, htakes, true_implies]
    refine forall₂_congr fun r hm => ⟨fun hsub => ?_, fun hlt hsub => ?_⟩
    · by_contra hle
      exact hsub ((Finset.Ioc_subset_Ioc_right (not_lt.1 hle)).trans hn.reached)
    · have hle := (hr r hm).2.1.trans (hr r hm).2.2
      have hle : r.1 ≤ c.pre.state.transportSequence := hle
      have hge := hn.durable_le
      rcases hn.stops with hstop | hstop
      · omega
      · exact hstop (hsub (Finset.mem_Ioc.2 ⟨by omega, hlt⟩))
  | @installs f hi hout htakes ht hd hf =>
    rw [CellCall.leavesOutstanding_iff_empty hi hout]
    simp only [CellCall.Apart, hi, htakes, true_implies]
    have hbound : ∀ s ∈ c.pre.durableOutOfOrder, c.pre.state.durableSequence < s ∧
        s ≤ c.pre.state.transportSequence := fun s hm => ⟨h.outOfOrder s hm, hb.le_transport s hm⟩
    rcases ranges_cases hs.dropped_length with he | ⟨first, last, he⟩ <;>
      have he : c.pre.droppedRanges = _ := he <;> rw [he] at hf ⊢
    · obtain ⟨ho, hranges⟩ := catchUpFrontier_nil _ hf
      refine iff_of_true (fun s _ => not_covered_nil s) ⟨?_, hranges⟩
      rw [ho, Finset.sdiff_eq_empty_iff_subset]
      exact fun s hm => Finset.mem_Ioc.2 (hbound s hm)
    · have hfuel : c.pre.state.frontierFuel [(first, last)] =
          c.pre.state.transportSequence - c.pre.state.durableSequence + 1 := rfl
      have hmem : (first, last) ∈ c.pre.droppedRanges := by
        rw [he]
        exact List.mem_singleton_self _
      have hreserved := hr _ hmem
      rw [hfuel] at hf
      obtain ⟨ho, hranges⟩ := catchUpFrontier_singleton (hr.dropped_iff.1 h.dropped _ hmem)
        hreserved.2.1 hreserved.2.2 hb.head hbound hf
      rw [ho, Finset.filter_eq_empty_iff]
      simp only [covered_singleton, Finset.mem_Icc, hranges, and_true]
      exact Iff.rfl

/-! ## Runs -/

section
variable {credentialIdentity : AuthenticatedCredentialIdentity} {cs : List CellCall}
  {cell : StateCell}

theorem CellRun.rangesReserved (h : CellRun credentialIdentity cs cell) :
    RangesReserved cell.books := by
  induction h with
  | nil => exact fun r hm => absurd hm List.not_mem_nil
  | @snoc cs s op h _ ih => exact RangesReserved.call (c := ⟨s, op⟩) (CellRun.sound h) ih

/-- What every call left outstanding is so at the end. -/
theorem CellRun.outstandingOnly (h : CellRun credentialIdentity cs cell)
    (hl : ∀ c ∈ cs, CellCall.LeavesOutstanding c) : OutstandingOnly cell.books := by
  cases h with
  | nil =>
    exact ⟨fun s hm => absurd hm (Finset.notMem_empty s),
      fun s hc => absurd hc (not_covered_nil s)⟩
  | @snoc cs s op _ _ => exact (hl ⟨s, op⟩ (by simp)).outstanding

/-- A run leaves nothing durable in its ledgers, and empty ledgers behind its commits, exactly
    when its calls keep what is dropped and what is acknowledged apart. -/
theorem ledgers_outstanding_iff (h : CellRun credentialIdentity cs cell) :
    (∀ c ∈ cs, CellCall.Apart c) ↔
      OutstandingOnly cell.books ∧ ∀ c ∈ cs, CellCall.LeavesOutstanding c := by
  suffices hsteps : (∀ c ∈ cs, CellCall.Apart c) ↔ ∀ c ∈ cs, CellCall.LeavesOutstanding c by
    rw [hsteps]
    exact ⟨fun hl => ⟨CellRun.outstandingOnly h hl, hl⟩, And.right⟩
  induction h with
  | nil => simp
  | @snoc cs s op h _ ih =>
    have hstep : (∀ c ∈ cs, CellCall.LeavesOutstanding c) →
        (CellCall.Apart ⟨s, op⟩ ↔ CellCall.LeavesOutstanding ⟨s, op⟩) := fun hl =>
      CellCall.apart_iff (c := ⟨s, op⟩) (CellRun.sound h) (CellRun.backlogged h)
        (CellRun.rangesReserved h) (CellRun.outstandingOnly h hl)
    simp only [List.forall_mem_append, List.forall_mem_singleton]
    rw [ih]
    exact and_congr_right hstep

end

/-! ## An acknowledgement inside a dropped range -/

/-- Three sequences are reserved, the last two are dropped, `acknowledged` are acknowledged, and
    the catch-up is ready to be prepared. -/
def droppedOps (acknowledged : List ℕ) : List Op :=
  [.tryMarkConnected, .markSubscriptionWritten 1, .markServerLivenessProven 1,
    .reserveTransportSequences 3, .markDropped ⟨2, 3⟩] ++
  acknowledged.map .acknowledgeDurable ++
  [.markAuthenticatedRestProven ⟨1, 2, {}⟩ (sampleAuthority 0), .markServerLivenessProven 1]

def droppedPrepare (acknowledged : List ℕ) : CellCall :=
  ⟨cellMachine.exec (.newWithIdentity {}) (droppedOps acknowledged),
    .prepareCatchUpFinalization ⟨1, 2, {}⟩ (sampleAuthority 0) 3 1⟩

def droppedFinalization (acknowledged : List ℕ) : Option AuthenticatedUserCatchUpFinalization :=
  ((droppedPrepare acknowledged).pre.prepareCatchUpFinalization ⟨1, 2, {}⟩ (sampleAuthority 0)
    3 1).result

def droppedCommit (acknowledged : List ℕ) (f : AuthenticatedUserCatchUpFinalization) : CellCall :=
  ⟨(droppedPrepare acknowledged).post, .commitCatchUpFinalization f⟩

theorem dropped_run {acknowledged : List ℕ} {f : AuthenticatedUserCatchUpFinalization}
    (hf : droppedFinalization acknowledged = some f) :
    CellRun {} (cellMachine.calls (.newWithIdentity {}) (droppedOps acknowledged) ++
      [droppedPrepare acknowledged] ++ [droppedCommit acknowledged f])
      (droppedCommit acknowledged f).post := by
  have hfree : ∀ op ∈ droppedOps acknowledged, ∀ cs, op.available cs := by
    intro op hm cs
    simp only [droppedOps, List.mem_append, List.mem_map] at hm
    rcases hm with (hm | ⟨s, -, rfl⟩) | hm
    · fin_cases hm <;> trivial
    · trivial
    · fin_cases hm <;> trivial
  exact prepared_run hfree (fun _ => trivial) (congrArg Reply.finalization hf)

/-- The one acknowledgement is below the dropped range, and durable at once. -/
theorem dropped_apart {f : AuthenticatedUserCatchUpFinalization} :
    ∀ c ∈ cellMachine.calls (.newWithIdentity {}) (droppedOps [1]) ++ [droppedPrepare [1]] ++
      [droppedCommit [1] f], CellCall.Apart c := by
  have hdrop : CellCall.Apart ⟨cellMachine.exec (.newWithIdentity {}) ((droppedOps [1]).take 4),
      .markDropped ⟨2, 3⟩⟩ := fun _ _ => by decide
  have hack : CellCall.Apart ⟨cellMachine.exec (.newWithIdentity {}) ((droppedOps [1]).take 5),
      .acknowledgeDurable 1⟩ := by
    intro _
    decide
  have hcommit : (droppedCommit [1] f).Apart := by
    intro _ s hs
    have hnone : (droppedPrepare [1]).post.durableOutOfOrder = ∅ := by decide
    exact absurd (hnone ▸ hs) (Finset.notMem_empty s)
  rw [List.forall_mem_append, List.forall_mem_append, List.forall_mem_singleton,
    List.forall_mem_singleton]
  refine ⟨⟨?_, trivial⟩, hcommit⟩
  intro c hc
  fin_cases hc
  case «4» => exact hdrop
  case «5» => exact hack
  all_goals trivial

/-- The dropped range is caught up, and nothing was acknowledged in it: the ledgers end empty. -/
theorem ledgers_outstanding_iff_caughtUp : ∃ (cs : List CellCall) (c : CellCall),
    CellRun {} (cs ++ [c]) c.post ∧ (∃ f, c.input = .commitCatchUpFinalization f) ∧
      c.out = .bool true ∧ c.post.state.durableSequence = 3 ∧
      (∀ d ∈ cs, d.LeavesOutstanding) ∧ c.post.durableOutOfOrder = ∅ ∧
      c.post.droppedRanges = [] := by
  obtain ⟨f, hf, hresult, hdurable⟩ : ∃ f, droppedFinalization [1] = some f ∧
      ((droppedCommit [1] f).pre.commitCatchUpFinalization f).result = true ∧
      (droppedCommit [1] f).post.state.durableSequence = 3 :=
    ⟨(droppedFinalization [1]).get (by decide), (Option.some_get _).symm, by decide, by decide⟩
  have hout : (droppedCommit [1] f).out = .bool true := congrArg Reply.bool hresult
  obtain ⟨-, hleaves⟩ := (ledgers_outstanding_iff (dropped_run hf)).1 dropped_apart
  obtain ⟨hcalls, hcommit⟩ := List.forall_mem_append.1 hleaves
  exact ⟨_, _, dropped_run hf, ⟨f, rfl⟩, hout, hdurable, hcalls,
    (hcommit _ (List.mem_singleton_self _)).emptied f rfl hout⟩

/-- Sequence 3 is dropped and acknowledged: the catch-up leaves it in the ledger. -/
theorem ledgers_not_outstanding : ∃ (cs : List CellCall) (c : CellCall),
    CellRun {} (cs ++ [c]) c.post ∧ (∃ f, c.input = .commitCatchUpFinalization f) ∧
    c.out = .bool true ∧ c.post.state.durableSequence = 3 ∧ 3 ∈ c.post.durableOutOfOrder ∧
    ¬ OutstandingOnly c.post.books ∧ ¬ c.LeavesOutstanding := by
  obtain ⟨f, hf, hresult, hdurable, hleft⟩ : ∃ f, droppedFinalization [3, 1] = some f ∧
      ((droppedCommit [3, 1] f).pre.commitCatchUpFinalization f).result = true ∧
      (droppedCommit [3, 1] f).post.state.durableSequence = 3 ∧
      3 ∈ (droppedCommit [3, 1] f).post.durableOutOfOrder :=
    ⟨(droppedFinalization [3, 1]).get (by decide), (Option.some_get _).symm, by decide, by decide,
      by decide⟩
  have hnot : ¬ OutstandingOnly (droppedCommit [3, 1] f).post.books := by
    intro h
    have hlt : (droppedCommit [3, 1] f).post.state.durableSequence < 3 := h.outOfOrder 3 hleft
    omega
  exact ⟨_, _, dropped_run hf, ⟨f, rfl⟩, congrArg Reply.bool hresult, hdurable, hleft, hnot,
    fun h => hnot h.outstanding⟩

end Rspm
