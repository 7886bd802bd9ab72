/-
  Every reserved sequence is delivered.

  The transport sequence is the end of the last range that was reserved, and the
  ranges of a run cover all that lies below it (`CellRun.reserved`).  A batch
  hands out each sequence of its range, so acknowledging what was delivered
  takes the durable frontier to the transport sequence.
-/
import Rspm.Ws.Batch

namespace Rspm

/-! ## Reservations -/

/-- The call hands out `range` for so many events. -/
def CellCall.Reserves (c : CellCall) (eventCount : ℕ) (range : TransportSequenceRange) : Prop :=
  c.input = .reserveTransportSequences eventCount ∧ c.out = .range (some range)

namespace AuthenticatedUserWsState

/-- The range starts after the transport sequence, or the counter is exhausted. -/
theorem reserveTransportSequences_cases (state : AuthenticatedUserWsState) (eventCount : ℕ) :
    state.transportSequence + 1 + (eventCount - 1) ≤ u64Max ∧
      state.reserveTransportSequences eventCount =
        ({ state with transportSequence := state.transportSequence + 1 + (eventCount - 1) },
          some ⟨state.transportSequence + 1, state.transportSequence + 1 + (eventCount - 1)⟩) ∨
    u64Max < state.transportSequence + 1 + (eventCount - 1) ∧
      state.reserveTransportSequences eventCount =
        (state.failCounter .transportSequence, none) := by
  unfold reserveTransportSequences
  cases hn : checkedAdd state.transportSequence 1 with
  | none =>
    rw [checkedAdd_eq_none] at hn
    exact .inr ⟨by omega, rfl⟩
  | some next =>
    obtain ⟨-, rfl⟩ := checkedAdd_eq_some.1 hn
    dsimp only
    cases hl : checkedAdd (state.transportSequence + 1) (eventCount - 1) with
    | none => exact .inr ⟨checkedAdd_eq_none.1 hl, rfl⟩
    | some last =>
      obtain ⟨hle, rfl⟩ := checkedAdd_eq_some.1 hl
      exact .inl ⟨hle, rfl⟩

end AuthenticatedUserWsState

/-- Only a reservation moves the transport sequence. -/
theorem Op.transition_transport {op : Op} {state state' : AuthenticatedUserWsState} {r : Reply}
    (h : op.transition state = some (state', r))
    (hop : ∀ eventCount, op ≠ .reserveTransportSequences eventCount) :
    state'.transportSequence = state.transportSequence := by
  have hgap : ∀ state' : AuthenticatedUserWsState,
      state'.advanceGapVersion.1.transportSequence = state'.transportSequence := by
    intro state'
    have hcounters := state'.advanceGapVersion_ledgerCounters
    simp only [AuthenticatedUserWsState.ledgerCounters, Prod.mk.injEq] at hcounters
    exact hcounters.1
  cases op <;> simp only [Op.transition, reduceCtorEq, Option.some.injEq, Prod.mk.injEq,
    Option.ite_none_left_eq_some, Option.ite_none_right_eq_some] at h
  case reserveTransportSequences eventCount => exact absurd rfl (hop eventCount)
  case tryMarkConnected =>
    obtain ⟨rfl, rfl⟩ := h
    unfold AuthenticatedUserWsState.tryMarkConnected
    split
    · rfl
    · split
      · rfl
      · dsimp only
        split_ifs <;> exact hgap _
  case markServerLivenessProven generation =>
    obtain ⟨rfl, rfl⟩ := h
    unfold AuthenticatedUserWsState.markServerLivenessProven
    split_ifs
    · split <;> rfl
    · rfl
  case markEnqueued range =>
    obtain ⟨rfl, rfl⟩ := h
    unfold AuthenticatedUserWsState.markEnqueued
    split_ifs
    · rfl
    · exact hgap _
  case retainRawFrame =>
    obtain ⟨-, rfl, rfl⟩ := h
    exact hgap _
  case markConnecting =>
    obtain ⟨rfl, rfl⟩ := h
    unfold AuthenticatedUserWsState.markConnecting
    split_ifs <;> rfl
  case markSubscriptionWritten generation =>
    obtain ⟨rfl, rfl⟩ := h
    unfold AuthenticatedUserWsState.markSubscriptionWritten
    split_ifs <;> rfl
  case markAuthenticatedRestProven token credentialAuthority =>
    obtain ⟨rfl, rfl⟩ := h
    unfold AuthenticatedUserWsState.markAuthenticatedRestProven
    split_ifs <;> rfl
  case reserveRawFrameSequence =>
    obtain ⟨rfl, rfl⟩ := h
    unfold AuthenticatedUserWsState.reserveRawFrameSequence
    split <;> rfl
  all_goals
    obtain ⟨rfl, rfl⟩ := h
    exact hgap _

/-- What a reservation hands out. -/
structure CellCall.Extends (c : CellCall) (eventCount : ℕ) (range : TransportSequenceRange) :
    Prop where
  pos : eventCount ≠ 0
  first : range.first = c.pre.state.transportSequence + 1
  last : range.last = range.first + (eventCount - 1)
  last_le : range.last ≤ u64Max
  transport : c.post.state.transportSequence = range.last

/-- A call leaves the transport sequence alone, or reserves the range that starts after it. -/
theorem CellCall.transport_cases (c : CellCall) :
    c.post.state.transportSequence = c.pre.state.transportSequence ∧
        (∀ eventCount range, ¬ c.Reserves eventCount range) ∨
      ∃ eventCount range, c.Reserves eventCount range ∧ c.Extends eventCount range := by
  have ho := c.outcome
  generalize hb : c.post.books = books, hr : c.out = r, hop : c.input = op at ho
  have hstate : c.post.state = books.state := congrArg Books.state hb
  have hleft : ∀ state : AuthenticatedUserWsState,
      books.state.ledgerCounters = state.ledgerCounters →
      state.transportSequence = c.pre.state.transportSequence →
      (∀ range, r ≠ .range (some range)) →
      c.post.state.transportSequence = c.pre.state.transportSequence ∧
        (∀ eventCount range, ¬ c.Reserves eventCount range) := by
    intro state hcounters ht hrange
    simp only [AuthenticatedUserWsState.ledgerCounters, Prod.mk.injEq] at hcounters
    refine ⟨?_, fun eventCount range hres => hrange range (hr.symm.trans hres.2)⟩
    rw [hstate, hcounters.1, ht]
  cases ho with
  | refused hg hu =>
    refine .inl (hleft _ c.pre.failClosedAfterPoison_ledgerCounters rfl ?_)
    rintro range rfl
    cases hg
  | answers ha =>
    refine .inl (hleft _ rfl rfl ?_)
    rintro range rfl
    cases ha with
    | nothing hg => cases hg
  | acts hopen ha =>
    cases ha with
    | @update op state r hu =>
      by_cases hres : ∃ eventCount, op = .reserveTransportSequences eventCount
      · obtain ⟨eventCount, rfl⟩ := hres
        simp only [Op.transition, Option.ite_none_left_eq_some, Option.some.injEq,
          Prod.mk.injEq] at hu
        obtain ⟨hpos, rfl, rfl⟩ := hu
        rcases c.pre.state.reserveTransportSequences_cases eventCount with ⟨hle, he⟩ | ⟨-, he⟩
        · refine .inr ⟨eventCount, _, ⟨hop, hr.trans (by rw [he])⟩, hpos, rfl, rfl, hle, ?_⟩
          rw [hstate, he]
        · refine .inl ⟨?_, fun eventCount' range h => ?_⟩
          · rw [hstate, he]
            rfl
          · have hnone := hr.symm.trans h.2
            rw [he] at hnone
            cases hnone
      · refine .inl ⟨?_, fun eventCount range h => hres ⟨eventCount, hop.symm.trans h.1⟩⟩
        rw [hstate]
        exact Op.transition_transport hu fun eventCount he => hres ⟨eventCount, he⟩
    | retained | released => exact .inl (hleft _ rfl rfl (by simp))
    | replaced | strangerDropped | dropped | dropOverflowed | acknowledgeOverflowed =>
      exact .inl (hleft _ (AuthenticatedUserWsState.advanceGapVersion_ledgerCounters _) rfl
        (by simp))
    | @acknowledged sequence durableSequence durableOutOfOrder exhausted hd ht hf ha =>
      refine .inl ⟨?_, fun eventCount range h => ?_⟩
      · rw [hstate]
        dsimp only
        split_ifs <;> rfl
      · cases hop.symm.trans h.1
    | @installed f he =>
      refine .inl ⟨?_, fun eventCount range h => ?_⟩
      · rw [hstate, f.evidence.next_eq, ← he.1]
        rfl
      · cases hop.symm.trans h.1

/-- Every sequence up to the transport sequence lies in a range that was handed out. -/
theorem CellRun.reserved {credentialIdentity : AuthenticatedCredentialIdentity}
    {cs : List CellCall} {cell : StateCell} (h : CellRun credentialIdentity cs cell) :
    ∀ s, 1 ≤ s → s ≤ cell.state.transportSequence → ∃ c ∈ cs, ∃ eventCount range,
      CellCall.Reserves c eventCount range ∧ CellCall.Extends c eventCount range ∧
      range.first ≤ s ∧ s ≤ range.last := by
  induction h with
  | nil =>
    intro s h1 h2
    exact absurd (h1.trans h2) (Nat.not_succ_le_zero 0)
  | @snoc cs cell op _ _ ih =>
    intro s h1 h2
    have hearlier : s ≤ cell.state.transportSequence →
        ∃ c ∈ cs ++ [⟨cell, op⟩], ∃ eventCount range, CellCall.Reserves c eventCount range ∧
          CellCall.Extends c eventCount range ∧ range.first ≤ s ∧ s ≤ range.last := by
      intro hle
      obtain ⟨c, hc, hrest⟩ := ih s h1 hle
      exact ⟨c, List.mem_append_left _ hc, hrest⟩
    rcases CellCall.transport_cases ⟨cell, op⟩ with ⟨ht, -⟩ | ⟨eventCount, range, hres, hext⟩
    · exact hearlier (h2.trans ht.le)
    · by_cases hle : s ≤ cell.state.transportSequence
      · exact hearlier hle
      · refine ⟨_, List.mem_append_right _ (List.mem_singleton_self _), eventCount, range, hres,
          hext, ?_, h2.trans hext.transport.le⟩
        rw [hext.first]
        exact not_le.1 hle

/-! ## Acknowledging what is outstanding -/

/-- Acknowledgements of all that is outstanding, in any order that finds room, take the durable
    frontier to the transport sequence. -/
theorem acks_reach_transport {cell : StateCell} (h : Acknowledgeable cell)
    (hhead : cell.state.durableSequence + 1 ∉ cell.durableOutOfOrder) {l : List ℕ} (hnd : l.Nodup)
    (hs : ∀ s, s ∈ l ↔ Outstanding cell s) (hroom : InRoom cell l) :
    (acks cell l).state.durableSequence = cell.state.transportSequence := by
  by_cases hl : l = []
  · -- nothing is outstanding, not even the head
    subst hl
    have hdurable : cell.state.durableSequence ≤ cell.state.transportSequence := h.durable_le
    by_contra hne
    have hne : cell.state.durableSequence ≠ cell.state.transportSequence := hne
    exact absurd ((hs _).2 ⟨Nat.lt_succ_self _, by omega, hhead⟩) List.not_mem_nil
  · obtain ⟨n, hn, hfrontier⟩ := acks_in_room h hl (fun s hm => (hs s).1 hm) hnd hroom
    rw [hn]
    show n = cell.state.transportSequence
    rcases hfrontier.stops with hstop | hstop
    · exact hstop
    · by_contra hne
      have hle := hfrontier.le_transport
      have hge := hfrontier.durable_le
      rw [Finset.mem_union, List.mem_toFinset, not_or, hs] at hstop
      exact hstop.2 ⟨by omega, by omega, hstop.1⟩

/-- In the order of the sequences the head comes first, and leaves the backlog no larger. -/
theorem inRoom_of_sorted {l : List ℕ} :
    ∀ {cell : StateCell}, Acknowledgeable cell →
      cell.state.durableSequence + 1 ∉ cell.durableOutOfOrder →
      (∀ a ∈ cell.durableOutOfOrder, a ≤ cell.state.transportSequence) →
      cell.durableOutOfOrder.card < maxDurableOutOfOrder → l.Pairwise (· < ·) →
      (∀ s, s ∈ l ↔ Outstanding cell s) → InRoom cell l := by
  induction l with
  | nil => exact fun _ _ _ _ _ _ => trivial
  | cons s l ih =>
    intro cell h hhead hmax hcard hsorted hs
    obtain ⟨hlt, hle, hout⟩ := (hs s).1 List.mem_cons_self
    have hmin := (List.pairwise_cons.1 hsorted).1
    obtain rfl : s = cell.state.durableSequence + 1 := by
      have hmem := (hs (cell.state.durableSequence + 1)).2
        ⟨Nat.lt_succ_self _, by omega, hhead⟩
      rcases List.mem_cons.1 hmem with he | hm
      · exact he.symm
      · have := hmin _ hm
        omega
    obtain ⟨n, hstep, hn, hnext, hrest⟩ := h.step (fun a ha => (hs a).1 ha)
      (hsorted.imp fun hab => hab.ne) hcard
    -- the head is passed, so nothing new stays in the backlog
    have hpassed : cell.state.durableSequence + 1 ≤ n := by
      have hge := hn.durable_le
      rcases hn.stops with hstop | hstop
      · omega
      · by_contra hlt
        refine hstop ?_
        rw [show n = cell.state.durableSequence by omega]
        exact Finset.mem_insert_self _ _
    have hsub : insert (cell.state.durableSequence + 1) cell.durableOutOfOrder \
        Finset.Ioc cell.state.durableSequence n ⊆ cell.durableOutOfOrder := by
      intro a ha
      rw [Finset.mem_sdiff, Finset.mem_insert, Finset.mem_Ioc] at ha
      exact ha.1.resolve_left fun he => ha.2 (by omega)
    rw [hstep] at hnext hrest
    refine ⟨hcard, ?_⟩
    rw [hstep]
    refine ih hnext ?_ (fun a ha => hmax a (hsub ha)) ((Finset.card_le_card hsub).trans_lt hcard)
      hsorted.of_cons fun a => ⟨hrest a, ?_⟩
    · intro hin
      have hbound : n + 1 ≤ cell.state.transportSequence := hmax _ (hsub hin)
      rcases hn.stops with hstop | hstop
      · omega
      · exact hstop (Finset.mem_sdiff.1 hin).1
    · rintro ⟨hgt, hle', hnot⟩
      have hgt : n < a := hgt
      have hnot : a ∉ insert (cell.state.durableSequence + 1) cell.durableOutOfOrder := by
        intro hin
        exact hnot (Finset.mem_sdiff.2 ⟨hin, by rw [Finset.mem_Ioc]; omega⟩)
      rw [Finset.mem_insert, not_or] at hnot
      have hmem := (hs a).2 ⟨by omega, hle', hnot.2⟩
      exact (List.mem_cons.1 hmem).resolve_left hnot.1

instance (cell : StateCell) (s : ℕ) : Decidable (Outstanding cell s) :=
  inferInstanceAs (Decidable (_ ∧ _))

/-- The outstanding sequences, in their order. -/
def outstandingSequences (cell : StateCell) : List ℕ :=
  (List.range' (cell.state.durableSequence + 1)
    (cell.state.transportSequence - cell.state.durableSequence)).filter
    (· ∉ cell.durableOutOfOrder)

theorem mem_outstandingSequences {cell : StateCell} {s : ℕ} :
    s ∈ outstandingSequences cell ↔ Outstanding cell s := by
  simp only [outstandingSequences, List.mem_filter, List.mem_range'_1, decide_eq_true_eq,
    Outstanding]
  constructor
  · rintro ⟨⟨hlt, hle⟩, hm⟩
    exact ⟨by omega, by omega, hm⟩
  · rintro ⟨hlt, hle, hm⟩
    exact ⟨⟨by omega, by omega⟩, hm⟩

theorem outstandingSequences_sorted (cell : StateCell) :
    (outstandingSequences cell).Pairwise (· < ·) :=
  List.Pairwise.filter _ List.pairwise_lt_range'

/-! ## What a batch delivers -/

/-- A sequence of the batch that its consumer sees: that of an event, or the one that the raw
    evidence reports for a frame without events. -/
def AuthenticatedUserEventBatch.Delivers (batch : AuthenticatedUserEventBatch) (s : ℕ) : Prop :=
  (∃ events, batch.intoSequencedEvents = some events ∧ s ∈ events.map Prod.fst) ∨
    batch.events = [] ∧ ∃ evidence, batch.rawEvidence = some evidence ∧
      evidence.firstTransportSequence = s

/-- The batch of an accepted frame, in the range that was reserved for its events. -/
def Sent (json : List UInt8 → Option FrameValue) (batch : AuthenticatedUserEventBatch)
    (eventCount : ℕ) (range : TransportSequenceRange) : Prop :=
  ∃ frame decoded receipt frameSequence socketGeneration socketGapVersion,
    AuthenticatedUserEventBatch.decodeFrame json frame = .ok decoded ∧
    decoded.sequenceWidth = eventCount ∧
    batch = decoded.withTransportContext receipt frameSequence range.first socketGeneration
      socketGapVersion

variable {json : List UInt8 → Option FrameValue}

/-- What the consumer of an accepted frame sees: the exact bytes, the events in wire order, and
    the sequences of the range, of which a frame without events has one. -/
structure Numbered (json : List UInt8 → Option FrameValue) (frame : List UInt8) (first : ℕ)
    (decoded : AuthenticatedUserEventBatch) (evidence : AuthenticatedUserRawFrame)
    (events : List (ℕ × ℕ × ℕ × AuthenticatedUserEvent)) : Prop where
  bytes : evidence.bytes = frame
  first_eq : evidence.firstTransportSequence = first
  last_eq : evidence.lastTransportSequence = first + (decoded.sequenceWidth - 1)
  events_eq : events.map (fun item => item.2.2.2) = decoded.events
  wire : ∃ wire, (json frame).bind FrameValue.events = some wire ∧
    List.Forall₂ (fun w e => AuthenticatedUserEvent.tryFrom w = .ok e) wire decoded.events
  sequences : events ≠ [] → events.map Prod.fst = List.range' evidence.firstTransportSequence
    (evidence.lastTransportSequence + 1 - evidence.firstTransportSequence)
  empty : events = [] → evidence.lastTransportSequence = evidence.firstTransportSequence

theorem numbered {frame : List UInt8} {decoded : AuthenticatedUserEventBatch}
    (h : AuthenticatedUserEventBatch.decodeFrame json frame = .ok decoded)
    (receipt : AuthenticatedUserFrameReceipt)
    (frameSequence first socketGeneration socketGapVersion : ℕ)
    (hfirst : first + (decoded.sequenceWidth - 1) ≤ u64Max) :
    ∃ evidence events,
      (decoded.withTransportContext receipt frameSequence first socketGeneration
        socketGapVersion).rawEvidence = some evidence ∧
      (decoded.withTransportContext receipt frameSequence first socketGeneration
        socketGapVersion).intoSequencedEvents = some events ∧
      Numbered json frame first decoded evidence events := by
  obtain ⟨wire, hwire, hevents, hbytes, -⟩ := AuthenticatedUserEventBatch.decodeFrame_eq_ok h
  let batch := decoded.withTransportContext receipt frameSequence first socketGeneration
    socketGapVersion
  have hrange : batch.firstTransportSequence + (batch.sequenceWidth - 1) ≤ u64Max := hfirst
  refine ⟨_, _, batch.rawEvidence_eq rfl hrange, batch.intoSequencedEvents_eq hrange, hbytes, rfl,
    rfl, ?_, ⟨wire, hwire, hevents⟩, fun hne => ?_, fun he => ?_⟩
  · rw [List.map_map]
    exact List.zipIdx_map_fst 0 decoded.events
  · have hne : decoded.events ≠ [] := by
      rintro he
      exact hne (by simp [show batch.events = [] from he])
    rw [List.map_map]
    refine batch.sequences_eq.trans ?_
    have hlen := List.length_pos_iff.2 hne
    have hwidth : batch.sequenceWidth = decoded.events.length :=
      AuthenticatedUserEventBatch.sequenceWidth_of_events hne
    show List.range' first decoded.events.length = List.range' first (first + (_ - 1) + 1 - first)
    rw [hwidth]
    congr 1
    omega
  · have he : batch.events = [] := by simpa using he
    have hwidth := AuthenticatedUserEventBatch.sequenceWidth_of_empty he
    show first + (batch.sequenceWidth - 1) = first
    rw [hwidth, Nat.sub_self, Nat.add_zero]

/-- Each sequence of a reserved range is delivered by the batch it was reserved for. -/
theorem Sent.delivers {c : CellCall} {batch : AuthenticatedUserEventBatch} {eventCount s : ℕ}
    {range : TransportSequenceRange} (h : Sent json batch eventCount range)
    (hext : c.Extends eventCount range) (hfirst : range.first ≤ s) (hlast : s ≤ range.last) :
    batch.Delivers s := by
  obtain ⟨frame, decoded, receipt, frameSequence, generation, gapVersion, hdec, rfl, rfl⟩ := h
  obtain ⟨evidence, events, hevidence, hevents, hn⟩ := numbered hdec receipt frameSequence
    range.first generation gapVersion (hext.last ▸ hext.last_le)
  have hl := hn.last_eq.trans hext.last.symm
  by_cases he : events = []
  · right
    have hone := hn.empty he
    have hnone : decoded.events = [] := by rw [← hn.events_eq, he, List.map_nil]
    refine ⟨hnone, evidence, hevidence, ?_⟩
    rw [hl, hn.first_eq] at hone
    rw [hn.first_eq]
    omega
  · refine .inl ⟨events, hevents, ?_⟩
    rw [hn.sequences he, List.mem_range'_1, hn.first_eq, hl]
    omega

/-- A consumer of accepted frames sees every reserved sequence: the events of each frame bear the
    sequences of its range, in wire order, and a frame without events has one sequence, which its
    raw evidence reports.  Acknowledging all of it, in any order that finds room, takes the
    durable frontier to the transport sequence; the order of the sequences finds room. -/
theorem reserved_sequences_delivered (json : List UInt8 → Option FrameValue) :
    (∀ frame decoded receipt frameSequence first socketGeneration socketGapVersion,
      AuthenticatedUserEventBatch.decodeFrame json frame = .ok decoded →
      first + (decoded.sequenceWidth - 1) ≤ u64Max →
      ∃ evidence events,
        (decoded.withTransportContext receipt frameSequence first socketGeneration
          socketGapVersion).rawEvidence = some evidence ∧
        (decoded.withTransportContext receipt frameSequence first socketGeneration
          socketGapVersion).intoSequencedEvents = some events ∧
        Numbered json frame first decoded evidence events) ∧
    ∀ credentialIdentity cs cell, CellRun credentialIdentity cs cell → cell.isOpen →
      cell.durablePoisoned = false → ∀ batches : List AuthenticatedUserEventBatch,
      (∀ c ∈ cs, ∀ eventCount range, CellCall.Reserves c eventCount range →
        ∃ batch ∈ batches, Sent json batch eventCount range) →
      (∀ l : List ℕ, l.Nodup → (∀ s ∈ l, Outstanding cell s) →
        (∀ batch ∈ batches, ∀ s, batch.Delivers s → Outstanding cell s → s ∈ l) →
        InRoom cell l → (acks cell l).state.durableSequence = cell.state.transportSequence) ∧
      (cell.durableOutOfOrder.card < maxDurableOutOfOrder →
        InRoom cell (outstandingSequences cell)) := by
  refine ⟨fun frame decoded receipt frameSequence first generation gapVersion hdec hfirst =>
    numbered hdec receipt frameSequence first generation gapVersion hfirst, ?_⟩
  intro credentialIdentity cs cell h ho hp batches hbatches
  have ha := CellRun.acknowledgeable h ho hp
  have hb := CellRun.backlogged h
  refine ⟨fun l hnd hs hall hroom => ?_, fun hcard => ?_⟩
  · refine acks_reach_transport ha hb.head hnd (fun s => ⟨hs s, fun hout => ?_⟩) hroom
    obtain ⟨c, hc, eventCount, range, hres, hext, hfirst, hlast⟩ :=
      CellRun.reserved h s (Nat.one_le_of_lt hout.1) hout.2.1
    obtain ⟨batch, hbatch, hsent⟩ := hbatches c hc eventCount range hres
    exact hall batch hbatch s (hsent.delivers hext hfirst hlast) hout
  · exact inRoom_of_sorted ha hb.head hb.le_transport hcard (outstandingSequences_sorted cell)
      fun s => mem_outstandingSequences

/-! ## A frame of two orders, and the frame `[]` -/

def emptyFrame : List UInt8 := [91, 93]

/-- An order for a half, as a frame has it. -/
def orderText (id : String) : String :=
  "\x7b\"event_type\":\"order\",\"id\":\"" ++ id ++ "\",\"market\":" ++
    "\"0x0000000000000000000000000000000000000000000000000000000000000002\"," ++
    "\"asset_id\":\"42\",\"side\":\"BUY\",\"price\":\"0.5\"\x7d"

def pairFrame : List UInt8 :=
  ("[" ++ orderText "1a" ++ "," ++ orderText "1b" ++ "]").toUTF8.toList

def halfOrder (id : String) : Wire.WireOrder :=
  ⟨id, 2, 42, .buy, 1 / 2, none, none, none, none, none, none, none, none, none, none, none, none,
    none⟩

def halfUserOrder (id : String) : AuthenticatedUserOrder :=
  ⟨id, 2, 42, .buy, 1 / 2, none, none, none, none, none, none, none, none, none, none, none, none,
    none⟩

/-- Reads the two frames, and no other. -/
def pairJson (frame : List UInt8) : Option FrameValue :=
  if frame = emptyFrame then some (.seq [])
  else if frame = pairFrame then
    some (.seq [some (.order (halfOrder "1a")), some (.order (halfOrder "1b"))])
  else none

def emptyBatch (first : ℕ) : AuthenticatedUserEventBatch :=
  { rawFrame := emptyFrame : AuthenticatedUserEventBatch }.withTransportContext ⟨0, 1, 1⟩ 1 first
    1 1

def pairDecoded : AuthenticatedUserEventBatch where
  rawFrame := pairFrame
  events := [.order (halfUserOrder "1a"), .order (halfUserOrder "1b")]

def pairBatch (first : ℕ) : AuthenticatedUserEventBatch :=
  pairDecoded.withTransportContext ⟨0, 1, 1⟩ 1 first 1 1

theorem emptyFrame_decodes :
    AuthenticatedUserEventBatch.decodeFrame pairJson emptyFrame = .ok { rawFrame := emptyFrame } :=
  rfl

theorem halfOrder_accepted {id : String} (h : venueIdentifierIsValid id = true) :
    AuthenticatedUserOrder.tryFrom (halfOrder id) = .ok (halfUserOrder id) := by
  unfold AuthenticatedUserOrder.tryFrom
  dsimp only
  rw [if_neg]
  · rfl
  · simp [halfOrder, h, Wire.WireOrder.sizeValid, optionalOutcomeIsValid]
    norm_num

theorem pairFrame_decodes :
    AuthenticatedUserEventBatch.decodeFrame pairJson pairFrame = .ok pairDecoded := by
  have hlength : (pairFrame.isEmpty || decide (pairFrame.length > maxFrameBytes)) = false := by
    decide +kernel
  have hjson : pairJson pairFrame =
      some (.seq [some (.order (halfOrder "1a")), some (.order (halfOrder "1b"))]) := by
    rw [pairJson, if_neg (by decide +kernel), if_pos rfl]
  have hevents : [Wire.WireUserEvent.order (halfOrder "1a"), .order (halfOrder "1b")].mapM
      AuthenticatedUserEvent.tryFrom = .ok pairDecoded.events := by
    rw [Decoding.mapM_eq_ok]
    refine .cons ?_ (.cons ?_ .nil) <;>
      rw [AuthenticatedUserEvent.tryFrom, halfOrder_accepted (by decide +kernel)] <;> rfl
  rw [AuthenticatedUserEventBatch.decodeFrame, hlength, hjson]
  show ([Wire.WireUserEvent.order (halfOrder "1a"), .order (halfOrder "1b")].mapM
    AuthenticatedUserEvent.tryFrom >>= _) = _
  rw [hevents]
  rfl

/-- A sequence for each order of `pairFrame`, and one for `emptyFrame`. -/
def pairOps : List Op := [.reserveTransportSequences 2, .reserveTransportSequences 1]

/-- A frame of two events and one without: the two events bear the first two sequences, in wire
    order, and all three sequences are acknowledged, and durable. -/
theorem reserved_sequences_delivered_pair :
    (∃ evidence events, (pairBatch 1).rawEvidence = some evidence ∧
      (pairBatch 1).intoSequencedEvents = some events ∧
      Numbered pairJson pairFrame 1 pairDecoded evidence events) ∧
    (acks (cellAfter pairOps) [3, 1, 2]).state.durableSequence =
      (cellAfter pairOps).state.transportSequence := by
  have hrun : CellRun {} (cellMachine.calls (.newWithIdentity {}) pairOps) (cellAfter pairOps) :=
    cellAfter_run (by simp [pairOps, Op.available])
  have hsent : ∀ c ∈ cellMachine.calls (.newWithIdentity {}) pairOps,
      ∀ eventCount range, CellCall.Reserves c eventCount range →
        ∃ batch ∈ [pairBatch 1, emptyBatch 3], Sent pairJson batch eventCount range := by
    rintro c hc eventCount range ⟨hi, hout⟩
    obtain rfl | hc := List.mem_cons.1 hc
    · cases hi
      have hrange : some range = some ⟨1, 2⟩ := Reply.range.inj (hout.symm.trans rfl)
      cases hrange
      exact ⟨_, .head _, pairFrame, _, _, _, _, _, pairFrame_decodes, rfl, rfl⟩
    · obtain rfl := List.mem_singleton.1 hc
      cases hi
      have hrange : some range = some ⟨3, 3⟩ := Reply.range.inj (hout.symm.trans rfl)
      cases hrange
      exact ⟨_, .tail _ (.head _), emptyFrame, _, _, _, _, _, emptyFrame_decodes, rfl, rfl⟩
  have hout : ∀ s ∈ [3, 1, 2], Outstanding (cellAfter pairOps) s := by decide +kernel
  have hroom : InRoom (cellAfter pairOps) [3, 1, 2] :=
    ⟨by decide +kernel, by decide +kernel, by decide +kernel, trivial⟩
  refine ⟨(reserved_sequences_delivered pairJson).1 pairFrame pairDecoded ⟨0, 1, 1⟩ 1 1 1 1
      pairFrame_decodes (by decide +kernel),
    ((reserved_sequences_delivered pairJson).2 _ _ _ hrun (by decide +kernel) (by decide +kernel)
      [pairBatch 1, emptyBatch 3] hsent).1 [3, 1, 2] (by decide) hout ?_ hroom⟩
  intro batch _ s _ hs
  have hlt : 0 < s := hs.1
  have hle : s ≤ 3 := hs.2.1
  simp only [List.mem_cons, List.not_mem_nil, or_false]
  omega

/-- A frame without events is accepted; its raw evidence reports one sequence, no event bears it,
    and without it the durable frontier stays behind. -/
theorem empty_frame_undelivered :
    (∃ decoded evidence, AuthenticatedUserEventBatch.decodeFrame pairJson emptyFrame =
        .ok decoded ∧
      (decoded.withTransportContext ⟨0, 1, 1⟩ 1 23 1 1).rawEvidence = some evidence ∧
      evidence.firstTransportSequence = 23 ∧ evidence.lastTransportSequence = 23 ∧
      (decoded.withTransportContext ⟨0, 1, 1⟩ 1 23 1 1).intoSequencedEvents = some []) ∧
    (emptyBatch 1).intoSequencedEvents = some [] ∧
    (acks (cellAfter [.reserveTransportSequences 1]) []).state.durableSequence <
      (cellAfter [.reserveTransportSequences 1]).state.transportSequence :=
  ⟨⟨_, _, rfl, rfl, rfl, rfl, rfl⟩, rfl, by decide⟩

end Rspm
