/-
  The passage of a frame, from its poll to its batch.

  Each step of the stages keeps the invariant (`Kept.own`).  A reservation or a
  retention that fails leaves a dead cell, and a dead cell connects no socket:
  no frame follows a frame that was lost.
-/
import Rspm.Ws.Owed

namespace Rspm

/-! ## The width of a batch -/

/-- An element of a JSON array takes at least one byte. -/
def JsonBounded (json : List UInt8 → Option FrameValue) : Prop :=
  ∀ frame events, json frame = some (.seq events) → events.length ≤ frame.length

namespace AuthenticatedUserEventBatch

variable {json : List UInt8 → Option FrameValue}

theorem rawFrame_captureTextFrame (json : List UInt8 → Option FrameValue) (frame : List UInt8) :
    (captureTextFrame json frame).rawFrame = frame := by
  unfold captureTextFrame
  cases h : decodeFrame json frame with
  | error e => rfl
  | ok batch =>
    obtain ⟨-, -, -, hraw, -⟩ := decodeFrame_eq_ok h
    exact hraw

theorem width_decodeFrame (hjson : JsonBounded json) {frame : List UInt8}
    {batch : AuthenticatedUserEventBatch} (h : decodeFrame json frame = .ok batch) :
    batch.sequenceWidth ≤ u64Max := by
  obtain ⟨wire, hwire, hevents, -, -⟩ := decodeFrame_eq_ok h
  have hframe : frame.length ≤ maxFrameBytes := by
    unfold decodeFrame at h
    split_ifs at h with hlen
    simp only [Bool.or_eq_true, decide_eq_true_eq, not_or, not_lt] at hlen
    exact hlen.2
  have hle : wire.length ≤ max frame.length 1 := by
    obtain ⟨value, hvalue, hev⟩ := Option.bind_eq_some_iff.1 hwire
    cases value with
    | other => cases hev
    | map event =>
      obtain ⟨e, -, rfl⟩ := Option.map_eq_some_iff.1 hev
      exact le_max_right _ _
    | seq events =>
      rw [Decoding.length_of_mapM hev]
      exact le_max_of_le_left (hjson frame events hvalue)
  rw [sequenceWidth, ← hevents.length_eq]
  simp only [maxFrameBytes, u64Max] at hframe ⊢
  omega

end AuthenticatedUserEventBatch

namespace Connection

variable {x x' : Connection} {json : List UInt8 → Option FrameValue} {w w' : Stage}

/-! ## Sockets and permits -/

theorem level_of_free {generation : Option ℕ} (h : (Stage.free generation).Owes json x) :
    x.Level := by
  cases generation with
  | none => exact h
  | some generation => exact h.1

theorem Kept.connected {before : Option ℕ} {generation : ℕ} (h : x.Kept json (.free before))
    (hdoes : (x.call .tryMarkConnected).out = .connection (.ok generation)) :
    (x.after .tryMarkConnected (.ok generation)).Kept json (.free (some generation)) := by
  have hout := (x.call .tryMarkConnected).handsOut
  rw [hdoes] at hout
  obtain ⟨hlt, hpost⟩ := hout
  refine h.still ?_ ?_ rfl rfl (by simp) rfl (.inl rfl) rfl fun hsteady howes => ?_
  · rintro op reply ⟨⟩
    exact hdoes
  · rintro op reply ⟨⟩
    rfl
  · refine ⟨level_of_free howes, hpost.le, fun b hb => ?_⟩
    have hb' : b ∈ x.sent := by simpa [sent_after, Entry.sent] using hb
    have hle := (h.counted b hb').2
    have hnew : b.socketGeneration < generation := hle.trans_lt hlt
    exact ⟨hnew.le, fun _ => hnew⟩

theorem Kept.unconnected {before : Option ℕ} {exhaustion : AuthenticatedUserCounterExhaustion}
    (h : x.Kept json (.free before))
    (hdoes : (x.call .tryMarkConnected).out = .connection (.error exhaustion)) :
    (x.after .tryMarkConnected (.error exhaustion)).Kept json (.free none) := by
  refine h.still ?_ ?_ rfl rfl (by simp) rfl (.inl rfl) rfl fun _ howes => level_of_free howes
  · rintro op reply ⟨⟩
    exact hdoes
  · rintro op reply ⟨⟩
    rfl

theorem Kept.stranded {arrival : Arrival} {held : ℕ}
    {exhaustion : AuthenticatedUserCounterExhaustion} (h : x.Kept json (.lost arrival held))
    (hdoes : (x.call .tryMarkConnected).out = .connection (.error exhaustion)) :
    (x.after .tryMarkConnected (.error exhaustion)).Kept json (.lost arrival held) := by
  refine h.still ?_ ?_ rfl rfl (by simp) rfl (.inl rfl) rfl fun _ => id
  · rintro op reply ⟨⟩
    exact hdoes
  · rintro op reply ⟨⟩
    rfl

theorem Kept.granted {generation : ℕ} (h : x.Kept json (.free (some generation)))
    (hdoes : (x.call .reserveRawFrameCapacity).out = .bool true) :
    (x.after .reserveRawFrameCapacity (.capacity true)).Kept json (.ready generation) := by
  refine h.still ?_ ?_ rfl rfl (by simp) rfl (.inl rfl) rfl fun _ => id
  · rintro op reply ⟨⟩
    exact hdoes
  · rintro op reply ⟨⟩
    rfl

theorem Kept.waited {generation : Option ℕ} {r : CapacityArm}
    (h : x.Kept json (.free generation)) (hr : r ≠ .capacity true) :
    (x.after .reserveRawFrameCapacity r).Kept json (.free generation) := by
  have hcall : ConnectionAct.cellCall .reserveRawFrameCapacity r = none ∧
      ConnectionAct.holds .reserveRawFrameCapacity r 0 = 0 := by
    rcases r with closing | - | granted
    · exact ⟨rfl, rfl⟩
    · exact ⟨rfl, rfl⟩
    · cases granted with
      | true => exact absurd rfl hr
      | false => exact ⟨rfl, rfl⟩
  refine h.still ?_ ?_ ?_ rfl (by simp) rfl (.inl rfl) hcall.2 fun _ => id
  · intro op reply hc
    rw [hcall.1] at hc
    cases hc
  · intro op reply hc
    rw [hcall.1] at hc
    cases hc
  · rw [PermitsMove, hcall.1]
    exact hcall.2

theorem Kept.dropped {generation : ℕ} (h : x.Kept json (.ready generation)) :
    (x.after .dropRawCapacity ()).Kept json (.free (some generation)) := by
  refine h.still ?_ ?_ rfl rfl (by simp) rfl (.inl rfl) rfl fun _ => id
  · rintro op reply ⟨⟩
    rfl
  · rintro op reply ⟨⟩
    rfl

theorem Kept.released {arrival : Arrival} {held : ℕ} (h : x.Kept json (.lost arrival held))
    (hh : 0 < held) : (x.after .dropRawCapacity ()).Kept json (.lost arrival (held - 1)) := by
  refine h.still ?_ ?_ ?_ rfl (by simp) rfl (.inl rfl) rfl fun _ => id
  · rintro op reply ⟨⟩
    rfl
  · rintro op reply ⟨⟩
    rfl
  · change held - 1 + 1 = held
    omega

/-! ## A frame -/

theorem data_of_capture {message : Message} {batch : AuthenticatedUserEventBatch}
    (h : message.capture json = some batch) : message.data = some batch.rawFrame := by
  cases message with
  | text bytes =>
    simp only [Message.capture, Option.ite_none_left_eq_some, Option.some.injEq] at h
    obtain ⟨hpong, rfl⟩ := h
    rw [Message.data, if_neg hpong, AuthenticatedUserEventBatch.rawFrame_captureTextFrame]
  | binary bytes =>
    obtain rfl := Option.some.inj h
    rfl
  | frame payload =>
    obtain rfl := Option.some.inj h
    rfl
  | ping | pong | close => cases h

theorem data_of_no_capture {message : Message} (h : message.capture json = none) :
    message.data = none := by
  cases message with
  | text bytes =>
    by_cases hpong : bytes = pongText
    · exact if_pos hpong
    · rw [Message.capture, if_neg hpong] at h
      cases h
  | binary | frame => cases h
  | ping | pong | close => rfl

theorem Kept.arrived {generation : ℕ} {message : Message} {receipt : AuthenticatedUserFrameReceipt}
    {batch : AuthenticatedUserEventBatch} (h : x.Kept json (.ready generation))
    (hm : message.capture json = some batch) :
    (x.after .poll (.received (some (.ok message)) (some receipt))).Kept json
      (.received ⟨generation, receipt, message, batch⟩) := by
  have hdata := data_of_capture hm
  have hcall : ∀ op reply, ConnectionAct.cellCall .poll
      (.received (some (.ok message)) (some receipt)) ≠ some (op, reply) := by
    intro op reply hc
    cases hc
  refine h.still (fun op reply hc => absurd hc (hcall op reply))
    (fun op reply hc => absurd hc (hcall op reply)) rfl rfl (by simp) ?_ (.inr rfl) rfl
    fun _ howes => ?_
  · simp [Stage.unsent, Entry.received, hdata]
  · exact ⟨howes.1, howes.2, hm⟩

theorem Kept.polled {generation : ℕ} {r : PollArm} (h : x.Kept json (.ready generation))
    (hr : ∀ message receipt, r = .received (some (.ok message)) (some receipt) →
      message.capture json = none) :
    (x.after .poll r).Kept json (.ready generation) := by
  have hcall : ∀ op reply, ConnectionAct.cellCall .poll r ≠ some (op, reply) := by
    intro op reply hc
    cases hc
  refine h.still (fun op reply hc => absurd hc (hcall op reply))
    (fun op reply hc => absurd hc (hcall op reply)) rfl rfl (by simp) ?_ (.inl rfl) rfl fun _ => id
  have hnone : (Entry.own ⟨.poll, r⟩).received = none := by
    rcases r with - | ⟨_ | _ | message, _ | receipt⟩ | -
    case received.some.ok.some => exact data_of_no_capture (hr message receipt rfl)
    all_goals rfl
  rw [hnone]
  rfl

/-- An action that makes a call, and sends and receives nothing. -/
theorem Kept.calls (h : x.Kept json w) {e : ConnectionAct} {r : e.Answer} {op : Op} {reply : Reply}
    (hcall : e.cellCall r = some (op, reply)) (hout : (x.call op).out = reply)
    (hpermits : e.holds r w.held + op.gives = w.held + op.takes reply)
    (hfresh : ∀ evidence, op = .retainRawFrame evidence →
      x.cell.rawFrames.contains evidence.frameSequence = false ∧
        evidence.frameSequence ≤ x.cell.state.rawFrameSequence)
    (hsent : (Entry.own ⟨e, r⟩).sent = none) (hreceived : (Entry.own ⟨e, r⟩).received = none)
    (hpanic : e ≠ .panic) (hunsent : w'.unsent = w.unsent)
    (hsteps : w'.steps = [] ∨ w'.steps = w.steps ++ [⟨e, r⟩])
    (hheld : e.holds r w.held = w'.held)
    (howes : (x.after e r).cell = (x.call op).post → (x.after e r).sent = x.sent →
      w'.Owes json (x.after e r)) : (x.after e r).Kept json w' := by
  have hcell : (x.after e r).cell = (x.call op).post := ConnectionAct.cellAfter_call hcall
  have hledger : (x.after e r).Ledger := by
    refine h.ledger.own ?_ ?_ ?_
    · intro op' reply' hc
      cases hcall.symm.trans hc
      exact hout
    · rw [PermitsMove, hcall, h.held]
      exact hpermits
    · intro evidence reply' hc
      cases hcall.symm.trans hc
      exact hfresh evidence rfl
  refine h.silent hledger ?_ hsent hpanic ?_ hsteps hheld (howes hcell ?_)
  · rw [hcell]
    exact (x.call op).grows
  · rw [hreceived, hunsent, Option.toList_none, List.append_nil]
  · rw [sent_after, hsent, Option.toList_none, List.append_nil]

theorem OnSocket.grows {x x' : Connection} {generation : ℕ} (h : x.OnSocket generation)
    (hg : Grows x.cell.state x'.cell.state) (hs : x'.sent = x.sent) : x'.OnSocket generation where
  le := h.le.trans hg.generation
  sent := hs ▸ h.sent

theorem Kept.ranged {arrival : Arrival} {range : TransportSequenceRange}
    (h : x.Kept json (.received arrival))
    (hdoes : (x.call (.reserveTransportSequences arrival.batch.sequenceWidth)).out =
      .range (some range)) :
    (x.after (.reserveTransportSequences arrival.batch.sequenceWidth) (some range)).Kept json
      (.ranged arrival range) := by
  obtain ⟨hlevel, hsocket, hcaptured⟩ := h.owes
  refine h.calls rfl hdoes rfl (by simp) rfl rfl (by simp) rfl (.inr rfl) rfl fun hcell hs => ?_
  have hgrows := (x.call (.reserveTransportSequences arrival.batch.sequenceWidth)).grows
  rw [← hcell] at hgrows
  refine ⟨?_, hsocket.grows hgrows hs, hcaptured⟩
  rcases (x.call (.reserveTransportSequences arrival.batch.sequenceWidth)).transport_cases with
    ⟨-, hno⟩ | ⟨eventCount, range', ⟨hi, hr⟩, hext⟩
  · exact absurd ⟨rfl, hdoes⟩ (hno _ range)
  · cases hr.symm.trans hdoes
    cases hi
    have hfirst := hext.first
    have hpost := hext.transport
    rw [← hcell] at hpost
    change range.first = x.cell.state.transportSequence + 1 at hfirst
    rw [hlevel] at hfirst
    exact ⟨by rw [hs]; exact hfirst, hext.last, hext.last_le, hpost⟩

theorem Kept.unranged {arrival : Arrival} (h : x.Kept json (.received arrival))
    (hdoes : (x.call (.reserveTransportSequences arrival.batch.sequenceWidth)).out =
      .range none) :
    (x.after (.reserveTransportSequences arrival.batch.sequenceWidth) none).Kept json
      (.lost arrival 1) := by
  have hwidth := arrival.batch.sequenceWidth_pos
  refine h.calls rfl hdoes rfl (by simp) rfl rfl (by simp) rfl (.inl rfl) rfl fun hcell _ => ?_
  change AuthenticatedUserWsState.Dead _
  rw [hcell]
  exact CellCall.dead_of_no_range (by omega) rfl hdoes

theorem Kept.numbered {arrival : Arrival} {range : TransportSequenceRange} {n : ℕ}
    (h : x.Kept json (.ranged arrival range))
    (hdoes : (x.call .reserveRawFrameSequence).out = .sequence (some n)) :
    (x.after .reserveRawFrameSequence (some n)).Kept json (.numbered arrival range n) := by
  obtain ⟨hreserved, hsocket, hcaptured⟩ := h.owes
  have hout := (x.call .reserveRawFrameSequence).handsOut
  rw [hdoes] at hout
  obtain ⟨hlt, hpost⟩ := hout
  have hsteady : x.cell.Steady (x.call .reserveRawFrameSequence).post :=
    CellCall.steady (c := x.call .reserveRawFrameSequence) h.ledger.coherent rfl
  refine h.calls rfl hdoes rfl (by simp) rfl rfl (by simp) rfl (.inr rfl) rfl fun hcell hs => ?_
  rw [← hcell] at hsteady hpost
  refine ⟨hreserved.steady hsteady hs, hsocket.steady hsteady hs, hcaptured,
    ⟨(Nat.zero_lt_of_lt hlt).ne', hpost.le, fun b hb => ?_⟩, ?_⟩
  · rw [hs] at hb
    exact (h.counted b hb).1.trans_lt hlt
  · refine hsteady.frames n ?_
    by_contra hn
    rw [Bool.not_eq_false] at hn
    exact absurd (h.ledger.keys n hn) (not_le.2 hlt)

theorem Kept.unnumbered {arrival : Arrival} {range : TransportSequenceRange}
    (h : x.Kept json (.ranged arrival range))
    (hdoes : (x.call .reserveRawFrameSequence).out = .sequence none) :
    (x.after .reserveRawFrameSequence none).Kept json (.lost arrival 1) := by
  refine h.calls rfl hdoes rfl (by simp) rfl rfl (by simp) rfl (.inl rfl) rfl fun hcell _ => ?_
  change AuthenticatedUserWsState.Dead _
  rw [hcell]
  exact CellCall.dead_of_no_sequence rfl hdoes

theorem Kept.stamped {arrival : Arrival} {range : TransportSequenceRange} {n : ℕ}
    {state : AuthenticatedUserWsState} (h : x.Kept json (.numbered arrival range n))
    (hdoes : (x.call .snapshot).out = .state state) :
    (x.after .snapshot state).Kept json (.stamped arrival range n state) := by
  refine h.still ?_ ?_ rfl rfl (by simp) rfl (.inr rfl) rfl fun _ => id
  · rintro op reply ⟨⟩
    exact hdoes
  · rintro op reply ⟨⟩
    rfl

/-! ## The evidence -/

theorem Reserved.rawEvidence {arrival : Arrival} {range : TransportSequenceRange}
    (h : x.Reserved arrival range) (n : ℕ) (state : AuthenticatedUserWsState) :
    (arrival.stamp range n state).rawEvidence = some (arrival.evidence range n state) := by
  have hlast : range.first + ((arrival.stamp range n state).sequenceWidth - 1) = range.last :=
    h.last.symm
  have hle : (arrival.stamp range n state).firstTransportSequence +
      ((arrival.stamp range n state).sequenceWidth - 1) ≤ u64Max := hlast.trans_le h.last_le
  rw [AuthenticatedUserEventBatch.rawEvidence_eq rfl hle]
  simp only [Arrival.evidence, ← hlast]
  rfl

theorem Kept.retained {arrival : Arrival} {range : TransportSequenceRange} {n : ℕ}
    {state : AuthenticatedUserWsState} {evidence : AuthenticatedUserRawFrame}
    (h : x.Kept json (.stamped arrival range n state))
    (he : (arrival.stamp range n state).rawEvidence = some evidence)
    (hdoes : (x.call (.retainRawFrame evidence)).out = .bool true) :
    (x.after (.retainRawFrame evidence) true).Kept json
      (.retained arrival range n state evidence) := by
  obtain ⟨hreserved, hsocket, hcaptured, hnumbered, hfree⟩ := h.owes
  have hseq : evidence = arrival.evidence range n state :=
    Option.some.inj (he.symm.trans (hreserved.rawEvidence n state))
  refine h.calls rfl hdoes rfl ?_ rfl rfl (by simp) rfl (.inr rfl) rfl fun hcell hs => ?_
  · rintro evidence' ⟨⟩
    rw [hseq]
    exact ⟨hfree, hnumbered.le⟩
  · have hgrows := (x.call (.retainRawFrame evidence)).grows
    rw [← hcell] at hgrows
    have htransport : (x.after (.retainRawFrame evidence) true).cell.state.transportSequence =
        x.cell.state.transportSequence := by
      rw [hcell]
      rcases (x.call (.retainRawFrame evidence)).transport_cases with ⟨ht, -⟩ | ⟨_, _, ⟨hi, -⟩, -⟩
      · exact ht
      · cases hi
    refine ⟨⟨hs ▸ hreserved.first, hreserved.last, hreserved.last_le,
      htransport.trans hreserved.transport⟩, hsocket.grows hgrows hs, hcaptured,
      ⟨hnumbered.pos, hnumbered.le.trans hgrows.rawFrameSequence, hs ▸ hnumbered.sent⟩, he⟩

theorem Kept.unretained {arrival : Arrival} {range : TransportSequenceRange} {n : ℕ}
    {state : AuthenticatedUserWsState} {evidence : AuthenticatedUserRawFrame}
    (h : x.Kept json (.stamped arrival range n state))
    (he : (arrival.stamp range n state).rawEvidence = some evidence)
    (hdoes : (x.call (.retainRawFrame evidence)).out = .bool false) :
    (x.after (.retainRawFrame evidence) false).Kept json (.lost arrival 0) := by
  obtain ⟨hreserved, hsocket, hcaptured, hnumbered, hfree⟩ := h.owes
  have hseq : evidence = arrival.evidence range n state :=
    Option.some.inj (he.symm.trans (hreserved.rawEvidence n state))
  have hpos : evidence.frameSequence ≠ 0 := by rw [hseq]; exact hnumbered.pos
  have hnew : x.cell.rawFrames.contains evidence.frameSequence = false := by
    rw [hseq]; exact hfree
  refine h.calls rfl hdoes rfl ?_ rfl rfl (by simp) rfl (.inl rfl) rfl fun hcell _ => ?_
  · rintro evidence' ⟨⟩
    exact ⟨hnew, by rw [hseq]; exact hnumbered.le⟩
  · change AuthenticatedUserWsState.Dead _
    rw [hcell]
    exact CellCall.dead_of_not_retained hpos hnew rfl hdoes

/-- The batch that is sent is the one of the frame that was received last. -/
theorem Kept.sends_exact {arrival : Arrival} {range : TransportSequenceRange} {n : ℕ}
    {state : AuthenticatedUserWsState} {evidence : AuthenticatedUserRawFrame}
    (h : x.Kept json (.retained arrival range n state evidence)) :
    Sends x.own (arrival.stamp range n state) arrival.message arrival.receipt range n evidence := by
  obtain ⟨hreserved, -, hcaptured, -, he⟩ := h.owes
  have hseq : evidence = arrival.evidence range n state :=
    Option.some.inj (he.symm.trans (hreserved.rawEvidence n state))
  obtain ⟨earlier, hown⟩ := h.steps
  refine ⟨⟨earlier, state, hown⟩, he, ?_, ?_, ?_, ?_, ?_⟩
  · rw [hseq]; rfl
  · rw [hseq]; rfl
  · rw [hseq]; rfl
  · rw [hseq]; rfl
  · rw [hseq]; exact data_of_capture hcaptured

theorem Kept.sends {arrival : Arrival} {range : TransportSequenceRange} {n : ℕ}
    {state : AuthenticatedUserWsState} {evidence : AuthenticatedUserRawFrame}
    (h : x.Kept json (.retained arrival range n state evidence)) :
    (x.after (.send (arrival.stamp range n state)) ()).Kept json
      (.free (if (arrival.stamp range n state).frameGap.isSome then none
        else some arrival.generation)) := by
  have hexact := h.sends_exact
  obtain ⟨hreserved, hsocket, hcaptured, hnumbered, -⟩ := h.owes
  generalize hb : arrival.stamp range n state = batch at hexact ⊢
  have hfirst : batch.firstTransportSequence = range.first := hb ▸ rfl
  have hwidth : batch.sequenceWidth = arrival.batch.sequenceWidth := hb ▸ rfl
  have hseq : batch.frameSequence = n := hb ▸ rfl
  have hgen : batch.socketGeneration = arrival.generation := hb ▸ rfl
  have hraw : batch.rawFrame = arrival.batch.rawFrame := hb ▸ rfl
  have hsent : (x.after (.send batch) ()).sent = x.sent ++ [batch] := by
    rw [sent_after]
    rfl
  have hlevel : (x.after (.send batch) ()).Level := by
    have hpos := batch.sequenceWidth_pos
    have hr := hreserved.first
    have hl := hreserved.last
    have ht := hreserved.transport
    rw [Level, hsent, reach_snoc]
    change x.cell.state.transportSequence = _
    omega
  exact {
    ledger := by
      refine h.ledger.stay rfl rfl rfl fun evidence he => ?_
      cases he
    held := h.held
    steps := ⟨_, (List.append_nil _).symm⟩
    sequenced := by
      rw [hsent]
      refine h.sequenced.snoc (hfirst.trans hreserved.first) (fun a ha => ?_) fun a ha => ?_
      · rw [hseq]
        exact hnumbered.sent a ha
      · rw [hgen]
        exact hsocket.sent a ha
    counted := by
      intro b hb
      rw [hsent] at hb
      rcases List.mem_append.1 hb with hb | hb
      · exact h.counted b hb
      · obtain rfl := List.mem_singleton.1 hb
        rw [hseq, hgen]
        exact ⟨hnumbered.le, hsocket.le⟩
    exact := by
      intro before b r after hsplit
      rcases Machine.split_concat hsplit with ⟨rfl, he, -⟩ | ⟨rest, -, hold⟩
      · cases he
        exact ⟨_, _, _, _, _, hexact⟩
      · exact h.exact before b r rest hold
    received := by
      have hreceived := h.received
      rw [received_after, hsent, List.map_append, List.map_singleton, hraw]
      exact (List.append_nil _).trans (hreceived.trans (List.append_nil _).symm)
    unpanicked := by
      intro r hr
      rcases List.mem_append.1 hr with hr | hr
      · exact h.unpanicked r hr
      · cases List.mem_singleton.1 hr
    owes := by
      cases hgap : batch.frameGap.isSome with
      | true => exact hlevel
      | false =>
        refine ⟨hlevel, hsocket.le, fun b hb => ?_⟩
        rw [hsent] at hb
        rcases List.mem_append.1 hb with hb | hb
        · exact hsocket.sent b hb
        · obtain rfl := List.mem_singleton.1 hb
          refine ⟨hgen.le, fun hsome => ?_⟩
          rw [hgap] at hsome
          cases hsome }

/-- The captured batch of a frame is not too wide. -/
theorem width_of_capture (hjson : JsonBounded json) {message : Message}
    {batch : AuthenticatedUserEventBatch} (h : message.capture json = some batch) :
    batch.sequenceWidth ≤ u64Max := by
  cases message with
  | text bytes =>
    simp only [Message.capture, Option.ite_none_left_eq_some, Option.some.injEq] at h
    obtain ⟨-, rfl⟩ := h
    unfold AuthenticatedUserEventBatch.captureTextFrame
    split
    · exact AuthenticatedUserEventBatch.width_decodeFrame hjson ‹_›
    · exact (AuthenticatedUserEventBatch.sequenceWidth_of_empty rfl).trans_le (by decide)
  | binary bytes =>
    obtain rfl := Option.some.inj h
    exact (AuthenticatedUserEventBatch.sequenceWidth_of_empty rfl).trans_le (by decide)
  | frame payload =>
    obtain rfl := Option.some.inj h
    exact (AuthenticatedUserEventBatch.sequenceWidth_of_empty rfl).trans_le (by decide)
  | ping | pong | close => cases h

/-- Each action of the task keeps the invariant. -/
theorem Kept.own (hjson : JsonBounded json) (h : x.Kept json w) {e : ConnectionAct} {r : e.Answer}
    (hd : connectionWorld.does () e x r x')
    (hnext : (Stage.stages json).next w ⟨e, r⟩ = some w') : x'.Kept json w' := by
  obtain ⟨hdoes, rfl⟩ := hd
  cases Stage.next_cases hnext with
  | quiet hw he => exact h.quiet hw he hdoes
  | connected => exact h.connected (hdoes _ _ rfl)
  | unconnected => exact h.unconnected (hdoes _ _ rfl)
  | reconnected =>
    have hdead : x.cell.state.Dead := h.owes
    exact absurd (hdoes _ _ rfl) (CellCall.not_connected_of_dead h.ledger.coherent hdead _)
  | stranded => exact h.stranded (hdoes _ _ rfl)
  | granted => exact h.granted (hdoes _ _ rfl)
  | waited hr => exact h.waited hr
  | dropped => exact h.dropped
  | released hh => exact h.released hh
  | arrived hm => exact h.arrived hm
  | polled hr => exact h.polled hr
  | ranged => exact h.ranged (hdoes _ _ rfl)
  | unranged => exact h.unranged (hdoes _ _ rfl)
  | numbered => exact h.numbered (hdoes _ _ rfl)
  | unnumbered => exact h.unnumbered (hdoes _ _ rfl)
  | stamped => exact h.stamped (hdoes _ _ rfl)
  | retained he => exact h.retained he (hdoes _ _ rfl)
  | unretained he => exact h.unretained he (hdoes _ _ rfl)
  | sent hb =>
    subst hb
    exact h.sends
  | tooWide hwide => exact absurd (width_of_capture hjson h.owes.2.2) (not_le.2 hwide)
  | unproven hnone => cases hnone.symm.trans (h.owes.1.rawEvidence _ _)
  | panicked => exact h.owes.elim

end Connection

end Rspm
