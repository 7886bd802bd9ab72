/-
  What the cell and the event channel owe a stage.

  The transport sequence is the end of what was sent, or of the range that is
  about to be sent; a lost frame leaves a dead cell (`Stage.Owes`).  The calls of
  other parties keep this, and so do the actions of the task that place no frame
  (`Kept.bystander`, `Kept.still`).
-/
import Rspm.Ws.Stages
import Rspm.Ws.Trace

namespace Rspm

/-! ## What a stage owes -/

/-- The frame came as it says. -/
def Arrival.Captured (json : List UInt8 → Option FrameValue) (arrival : Arrival) : Prop :=
  arrival.message.capture json = some arrival.batch

/-- What the batch reports of its frame. -/
def Arrival.evidence (arrival : Arrival) (range : TransportSequenceRange)
    (frameSequence : ℕ) (state : AuthenticatedUserWsState) : AuthenticatedUserRawFrame where
  frameSequence
  firstTransportSequence := range.first
  lastTransportSequence := range.last
  socketGeneration := arrival.generation
  socketGapVersion := state.gapVersion
  receipt := arrival.receipt
  encoding := arrival.batch.encoding
  gap := arrival.batch.frameGap
  bytes := arrival.batch.rawFrame

/-- The poll that received the frame. -/
def Arrival.polled (arrival : Arrival) : Σ e : ConnectionAct, e.Answer :=
  ⟨.poll, .received (some (.ok arrival.message)) (some arrival.receipt)⟩

/-- The reservation of its range. -/
def Arrival.reserved (arrival : Arrival) (range : TransportSequenceRange) :
    Σ e : ConnectionAct, e.Answer :=
  ⟨.reserveTransportSequences arrival.batch.sequenceWidth, some range⟩

namespace Connection

variable (x : Connection)

/-- All the reserved sequences were sent. -/
def Level : Prop := x.cell.state.transportSequence = reach x.sent

/-- The socket of the generation is the newest, and no frame with a gap came from it. -/
structure OnSocket (generation : ℕ) : Prop where
  le : generation ≤ x.cell.state.generation
  sent : ∀ b ∈ x.sent, b.socketGeneration ≤ generation ∧
    (b.frameGap.isSome → b.socketGeneration < generation)

/-- The range comes next, and is as wide as the batch. -/
structure Reserved (arrival : Arrival) (range : TransportSequenceRange) : Prop where
  first : range.first = reach x.sent + 1
  last : range.last = range.first + (arrival.batch.sequenceWidth - 1)
  last_le : range.last ≤ u64Max
  transport : x.cell.state.transportSequence = range.last

/-- The number is new. -/
structure Numbered (frameSequence : ℕ) : Prop where
  pos : frameSequence ≠ 0
  le : frameSequence ≤ x.cell.state.rawFrameSequence
  sent : ∀ b ∈ x.sent, b.frameSequence < frameSequence

end Connection

namespace Stage

def held : Stage → ℕ
  | free _ | retained .. | panicked => 0
  | ready _ | received _ | ranged .. | numbered .. | stamped .. => 1
  | lost _ held => held

/-- The payload of the frame that is under way. -/
def unsent : Stage → List (List UInt8)
  | free _ | ready _ | panicked => []
  | received arrival | ranged arrival _ | numbered arrival _ _ | stamped arrival _ _ _
  | retained arrival _ _ _ _ | lost arrival _ => [arrival.batch.rawFrame]

/-- The actions that led to a stage from the receipt of its frame. -/
def steps : Stage → List (Σ e : ConnectionAct, e.Answer)
  | received arrival => [arrival.polled]
  | ranged arrival range => [arrival.polled, arrival.reserved range]
  | numbered arrival range frameSequence =>
    [arrival.polled, arrival.reserved range, ⟨.reserveRawFrameSequence, some frameSequence⟩]
  | stamped arrival range frameSequence state =>
    [arrival.polled, arrival.reserved range, ⟨.reserveRawFrameSequence, some frameSequence⟩,
      ⟨.snapshot, state⟩]
  | retained arrival range frameSequence state evidence =>
    [arrival.polled, arrival.reserved range, ⟨.reserveRawFrameSequence, some frameSequence⟩,
      ⟨.snapshot, state⟩, ⟨.retainRawFrame evidence, true⟩]
  | free _ | ready _ | lost _ _ | panicked => []

/-- What the cell and the event channel owe a stage. -/
def Owes (json : List UInt8 → Option FrameValue) (x : Connection) : Stage → Prop
  | free none => x.Level
  | free (some generation) | ready generation => x.Level ∧ x.OnSocket generation
  | received arrival => x.Level ∧ x.OnSocket arrival.generation ∧ arrival.Captured json
  | ranged arrival range =>
    x.Reserved arrival range ∧ x.OnSocket arrival.generation ∧ arrival.Captured json
  | numbered arrival range frameSequence | stamped arrival range frameSequence _ =>
    x.Reserved arrival range ∧ x.OnSocket arrival.generation ∧ arrival.Captured json ∧
      x.Numbered frameSequence ∧ x.cell.rawFrames.contains frameSequence = false
  | retained arrival range frameSequence state evidence =>
    x.Reserved arrival range ∧ x.OnSocket arrival.generation ∧ arrival.Captured json ∧
      x.Numbered frameSequence ∧
      (arrival.stamp range frameSequence state).rawEvidence = some evidence
  | lost _ _ => x.cell.state.Dead
  | panicked => False

end Stage

/-! ## Steady calls -/

/-- The calls that give a frame its range, or retain it. -/
def Op.placesFrame : Op → Bool
  | .reserveTransportSequences _ | .retainRawFrame _ => true
  | _ => false

theorem Op.placesFrame_of_admits {op : Op} (h : op.admits = false) : op.placesFrame = false := by
  cases op with
  | reserveTransportSequences | retainRawFrame => cases h
  | _ => rfl

/-- What the other calls keep. -/
structure StateCell.Steady (cell cell' : StateCell) : Prop where
  transport : cell'.state.transportSequence = cell.state.transportSequence
  frames : ∀ n, cell.rawFrames.contains n = false → cell'.rawFrames.contains n = false
  grows : Grows cell.state cell'.state
  dead : cell.state.Dead → cell'.state.Dead

theorem StateCell.Steady.refl (cell : StateCell) : cell.Steady cell :=
  ⟨rfl, fun _ => id, .refl _, id⟩

theorem CellCall.steady {c : CellCall} (hc : Coherent c.pre) (h : c.input.placesFrame = false) :
    c.pre.Steady c.post where
  transport := by
    rcases c.transport_cases with ⟨ht, -⟩ | ⟨eventCount, range, ⟨hi, -⟩, -⟩
    · exact ht
    · rw [hi] at h
      cases h
  frames n hn := by
    cases c.rawMove with
    | kept hk => rwa [hk]
    | released hi hr hm hk =>
      rw [hk, Std.TreeMap.contains_erase, hn, Bool.and_false]
    | retained hi | replaced hi =>
      rw [hi] at h
      cases h
  grows := c.grows
  dead := (CellCall.kept hc).dead

namespace Connection

variable {x x' : Connection} {json : List UInt8 → Option FrameValue} {w : Stage}

theorem OnSocket.steady {generation : ℕ} (h : x.OnSocket generation)
    (hc : x.cell.Steady x'.cell) (hs : x'.sent = x.sent) : x'.OnSocket generation where
  le := h.le.trans hc.grows.generation
  sent := hs ▸ h.sent

theorem Reserved.steady {arrival : Arrival} {range : TransportSequenceRange}
    (h : x.Reserved arrival range) (hc : x.cell.Steady x'.cell) (hs : x'.sent = x.sent) :
    x'.Reserved arrival range where
  first := hs ▸ h.first
  last := h.last
  last_le := h.last_le
  transport := hc.transport.trans h.transport

theorem Numbered.steady {n : ℕ} (h : x.Numbered n) (hc : x.cell.Steady x'.cell)
    (hs : x'.sent = x.sent) : x'.Numbered n where
  pos := h.pos
  le := h.le.trans hc.grows.rawFrameSequence
  sent := hs ▸ h.sent

theorem Level.steady (h : x.Level) (hc : x.cell.Steady x'.cell) (hs : x'.sent = x.sent) :
    x'.Level := by
  rw [Level, hs, hc.transport]
  exact h

/-- A steady call keeps what is owed. -/
theorem owes_steady (h : w.Owes json x) (hc : x.cell.Steady x'.cell) (hs : x'.sent = x.sent) :
    w.Owes json x' := by
  cases w with
  | free generation =>
    cases generation with
    | none => exact Level.steady h hc hs
    | some generation => exact ⟨h.1.steady hc hs, h.2.steady hc hs⟩
  | ready generation => exact ⟨h.1.steady hc hs, h.2.steady hc hs⟩
  | received arrival => exact ⟨h.1.steady hc hs, h.2.1.steady hc hs, h.2.2⟩
  | ranged arrival range => exact ⟨h.1.steady hc hs, h.2.1.steady hc hs, h.2.2⟩
  | numbered arrival range n =>
    obtain ⟨hr, ho, hcap, hn, hf⟩ := h
    exact ⟨hr.steady hc hs, ho.steady hc hs, hcap, hn.steady hc hs, hc.frames n hf⟩
  | stamped arrival range n state =>
    obtain ⟨hr, ho, hcap, hn, hf⟩ := h
    exact ⟨hr.steady hc hs, ho.steady hc hs, hcap, hn.steady hc hs, hc.frames n hf⟩
  | retained arrival range n state evidence =>
    obtain ⟨hr, ho, hcap, hn, he⟩ := h
    exact ⟨hr.steady hc hs, ho.steady hc hs, hcap, hn.steady hc hs, he⟩
  | lost arrival held => exact hc.dead h
  | panicked => exact h

end Connection

/-! ## The invariant -/

/-- What holds of a run whose task is at the stage. -/
structure Connection.Kept (json : List UInt8 → Option FrameValue) (w : Stage) (x : Connection) :
    Prop where
  ledger : x.Ledger
  held : x.held = w.held
  steps : ∃ earlier, x.own = earlier ++ w.steps
  sequenced : Sequenced x.sent
  counted : ∀ b ∈ x.sent, b.frameSequence ≤ x.cell.state.rawFrameSequence ∧
    b.socketGeneration ≤ x.cell.state.generation
  exact : ∀ before batch r after, x.trace = before ++ .own ⟨.send batch, r⟩ :: after →
    ∃ message receipt range frameSequence evidence,
      Sends (before.filterMap Entry.ownAct) batch message receipt range frameSequence evidence
  received : x.received = x.sent.map AuthenticatedUserEventBatch.rawFrame ++ w.unsent
  unpanicked : ∀ r, Entry.own ⟨.panic, r⟩ ∉ x.trace
  owes : w.Owes json x

namespace Connection

variable {x x' : Connection} {json : List UInt8 → Option FrameValue} {w w' : Stage}

/-- A call of another party keeps the invariant. -/
theorem Kept.bystander (h : x.Kept json w) (hs : Bystander x x') : x'.Kept json w := by
  cases hs with
  | @call op hop =>
    have hsteady : x.cell.Steady (x.call op).post :=
      CellCall.steady (c := x.call op) h.ledger.coherent (Op.placesFrame_of_admits hop)
    have hrecords : (Entry.other (x.call op)).Records (x.call op) := by
      refine ⟨fun evidence he => ?_, fun n hi hr => ⟨hi, hr⟩⟩
      cases he
    have hpermits : op.gives = 0 ∧ op.takes (x.call op).out = 0 := by
      generalize (x.call op).out = r
      cases op <;> simp_all [Op.admits, Op.gives, Op.takes]
    have hretain : ∀ evidence, op ≠ .retainRawFrame evidence := by
      rintro evidence rfl
      cases hop
    generalize hx : ({ x with cell := (x.call op).post, trace := x.trace ++ [.other (x.call op)] } :
      Connection) = x'
    have hcell : x'.cell = (x.call op).post := hx ▸ rfl
    have ht : x'.trace = x.trace ++ [.other (x.call op)] := hx ▸ rfl
    have hheld : x'.held = x.held := hx ▸ rfl
    have hown : x'.own = x.own := by simp [own, ht, Entry.ownAct]
    have hsent : x'.sent = x.sent := by simp [sent, ht, Entry.sent]
    have hreceived : x'.received = x.received := by
      simp [Connection.received, ht, Entry.received]
    rw [← hcell] at hsteady
    exact {
      ledger := by
        refine h.ledger.call rfl hcell ht hrecords ?_ fun evidence he =>
          absurd he (hretain evidence)
        change x'.held + op.gives = x.held + op.takes (x.call op).out
        rw [hheld, hpermits.1, hpermits.2]
      held := hheld.trans h.held
      steps := hown ▸ h.steps
      sequenced := hsent ▸ h.sequenced
      counted := by
        intro b hb
        rw [hsent] at hb
        obtain ⟨hn, hg⟩ := h.counted b hb
        exact ⟨hn.trans hsteady.grows.rawFrameSequence, hg.trans hsteady.grows.generation⟩
      exact := by
        intro before batch r after hsplit
        rw [ht] at hsplit
        rcases Machine.split_concat hsplit with ⟨-, he, -⟩ | ⟨rest, -, hold⟩
        · cases he
        · exact h.exact before batch r rest hold
      received := by rw [hreceived, hsent]; exact h.received
      unpanicked := by
        intro r hr
        rw [ht] at hr
        rcases List.mem_append.1 hr with hr | hr
        · exact h.unpanicked r hr
        · cases List.mem_singleton.1 hr
      owes := owes_steady h.owes hsteady hsent }

/-! ## The steps of the task -/

theorem own_after (x : Connection) (e : ConnectionAct) (r : e.Answer) :
    (x.after e r).own = x.own ++ [⟨e, r⟩] := List.filterMap_append

theorem sent_after (x : Connection) (e : ConnectionAct) (r : e.Answer) :
    (x.after e r).sent = x.sent ++ (Entry.own ⟨e, r⟩).sent.toList := by
  cases h : (Entry.own ⟨e, r⟩).sent <;> simp [sent, after, h]

theorem received_after (x : Connection) (e : ConnectionAct) (r : e.Answer) :
    (x.after e r).received = x.received ++ (Entry.own ⟨e, r⟩).received.toList := by
  cases h : (Entry.own ⟨e, r⟩).received <;> simp [received, after, h]

/-- The entry of an action tells of its call. -/
theorem records_own {e : ConnectionAct} {r : e.Answer} {op : Op} {reply : Reply}
    (h : e.cellCall r = some (op, reply)) (ho : (x.call op).out = reply) :
    (Entry.own ⟨e, r⟩).Records (x.call op) where
  retained evidence he := by
    cases he
    cases h
    exact ⟨rfl, ho⟩
  acknowledged n hi hr := by
    have hop : op = .acknowledgeRawFrameDurable n := hi
    have hreply : reply = .bool true := ho.symm.trans hr
    subst hop hreply
    cases e with
    | reserveRawFrameCapacity =>
      rcases r with closing | - | granted
      · cases h
      · cases h
      · cases granted <;> cases h
    | _ => cases h

/-- The permits of the task and of the cell, after an action. -/
def PermitsMove (e : ConnectionAct) (r : e.Answer) (held : ℕ) : Prop :=
  match e.cellCall r with
  | some (op, reply) => e.holds r held + op.gives = held + op.takes reply
  | none => e.holds r held = held

/-- An action keeps the ledger, if what it retains has a new number. -/
theorem Ledger.own (h : x.Ledger) {e : ConnectionAct} {r : e.Answer}
    (hdoes : ∀ op reply, e.cellCall r = some (op, reply) → (x.call op).out = reply)
    (hpermits : PermitsMove e r x.held)
    (hfresh : ∀ evidence reply, e.cellCall r = some (.retainRawFrame evidence, reply) →
      x.cell.rawFrames.contains evidence.frameSequence = false ∧
        evidence.frameSequence ≤ x.cell.state.rawFrameSequence) : (x.after e r).Ledger := by
  cases hc : e.cellCall r with
  | none =>
    rw [PermitsMove, hc] at hpermits
    refine h.stay (ConnectionAct.cellAfter_none hc) hpermits rfl fun evidence he => ?_
    cases he
    cases hc
  | some call =>
    obtain ⟨op, reply⟩ := call
    have hout := hdoes op reply hc
    rw [PermitsMove, hc] at hpermits
    refine h.call (c := x.call op) rfl (ConnectionAct.cellAfter_call hc) rfl
      (records_own hc hout) ?_ ?_
    · rw [hout]
      exact hpermits
    · intro evidence hi
      have hop : op = .retainRawFrame evidence := hi
      exact hfresh evidence reply (hop ▸ hc)

/-- An action that sends nothing keeps the invariant. -/
theorem Kept.silent (h : x.Kept json w) {e : ConnectionAct} {r : e.Answer}
    (hledger : (x.after e r).Ledger) (hgrows : Grows x.cell.state (x.after e r).cell.state)
    (hsent : (Entry.own ⟨e, r⟩).sent = none) (hpanic : e ≠ .panic)
    (hreceived : w.unsent ++ (Entry.own ⟨e, r⟩).received.toList = w'.unsent)
    (hsteps : w'.steps = [] ∨ w'.steps = w.steps ++ [⟨e, r⟩])
    (hheld : e.holds r w.held = w'.held) (howes : w'.Owes json (x.after e r)) :
    (x.after e r).Kept json w' := by
  have hkept : (x.after e r).sent = x.sent := by
    rw [sent_after, hsent, Option.toList_none, List.append_nil]
  exact {
    ledger := hledger
    held := by
      rw [← hheld, ← h.held]
      rfl
    steps := by
      rw [own_after]
      rcases hsteps with hs | hs <;> rw [hs]
      · exact ⟨_, (List.append_nil _).symm⟩
      · obtain ⟨earlier, he⟩ := h.steps
        exact ⟨earlier, by rw [he, List.append_assoc]⟩
    sequenced := hkept ▸ h.sequenced
    counted := by
      intro b hb
      rw [hkept] at hb
      obtain ⟨hn, hg⟩ := h.counted b hb
      exact ⟨hn.trans hgrows.rawFrameSequence, hg.trans hgrows.generation⟩
    exact := by
      intro before batch r' after hsplit
      rcases Machine.split_concat hsplit with ⟨-, he, -⟩ | ⟨rest, -, hold⟩
      · rw [he] at hsent
        cases hsent
      · exact h.exact before batch r' rest hold
    received := by
      rw [received_after, hkept, h.received, List.append_assoc, hreceived]
    unpanicked := by
      intro r' hr
      rcases List.mem_append.1 hr with hr | hr
      · exact h.unpanicked r' hr
      · cases List.mem_singleton.1 hr
        exact hpanic rfl
    owes := howes }

/-- The cell after an action that gives no frame its range, and retains none. -/
theorem steady_after (hc : Coherent x.cell) {e : ConnectionAct} {r : e.Answer}
    (h : ∀ op reply, e.cellCall r = some (op, reply) → op.placesFrame = false) :
    x.cell.Steady (x.after e r).cell := by
  cases hcall : e.cellCall r with
  | none =>
    rw [after, ConnectionAct.cellAfter_none hcall]
    exact .refl _
  | some call =>
    obtain ⟨op, reply⟩ := call
    rw [after, ConnectionAct.cellAfter_call hcall]
    exact CellCall.steady (c := x.call op) hc (h op reply hcall)

/-- An action that sends nothing, and places no frame. -/
theorem Kept.still (h : x.Kept json w) {e : ConnectionAct} {r : e.Answer}
    (hdoes : ∀ op reply, e.cellCall r = some (op, reply) → (x.call op).out = reply)
    (hplaces : ∀ op reply, e.cellCall r = some (op, reply) → op.placesFrame = false)
    (hpermits : PermitsMove e r w.held)
    (hsent : (Entry.own ⟨e, r⟩).sent = none) (hpanic : e ≠ .panic)
    (hreceived : w.unsent ++ (Entry.own ⟨e, r⟩).received.toList = w'.unsent)
    (hsteps : w'.steps = [] ∨ w'.steps = w.steps ++ [⟨e, r⟩])
    (hheld : e.holds r w.held = w'.held)
    (howes : x.cell.Steady (x.after e r).cell → w.Owes json (x.after e r) →
      w'.Owes json (x.after e r)) : (x.after e r).Kept json w' := by
  have hsteady : x.cell.Steady (x.after e r).cell := steady_after h.ledger.coherent hplaces
  have hledger : (x.after e r).Ledger := by
    refine h.ledger.own hdoes (h.held.symm ▸ hpermits) fun evidence reply hc => ?_
    cases hplaces _ _ hc
  refine h.silent hledger hsteady.grows hsent hpanic hreceived hsteps hheld (howes hsteady ?_)
  refine owes_steady h.owes hsteady ?_
  rw [sent_after, hsent, Option.toList_none, List.append_nil]

theorem quiet_call {e : ConnectionAct} (he : e.quiet = true) (r : e.Answer) :
    e.cellCall r = none ∨ ∃ op, e.cellCall r = some (op, .unit) ∧ op.admits = false := by
  cases e with
  | call op => exact .inr ⟨op, rfl, by simpa [ConnectionAct.quiet] using he⟩
  | borrowShutdown | connect | write | reserveSlot | pingOverdue | sendMessage | closeSocket
  | waitOrShutdown => exact .inl rfl
  | _ => cases he

theorem Kept.quiet (h : x.Kept json w) (hw : w.Settled) {e : ConnectionAct} {r : e.Answer}
    (he : e.quiet = true)
    (hdoes : ∀ op reply, e.cellCall r = some (op, reply) → (x.call op).out = reply) :
    (x.after e r).Kept json w := by
  have hcall := quiet_call he r
  have hholds : e.holds r w.held = w.held := by
    cases e with
    | reserveRawFrameCapacity | retainRawFrame | dropRawCapacity => cases he
    | _ => rfl
  have hsteps : w.steps = [] := by
    cases w with
    | free | ready | lost | panicked => rfl
    | _ => exact hw.elim
  have hadmits : ∀ op reply, e.cellCall r = some (op, reply) →
      op.admits = false ∧ reply = .unit := by
    intro op reply hc
    rcases hcall with hn | ⟨op', hs, hop⟩
    · rw [hn] at hc
      cases hc
    · rw [hs] at hc
      cases hc
      exact ⟨hop, rfl⟩
  refine h.still hdoes (fun op reply hc => Op.placesFrame_of_admits (hadmits op reply hc).1) ?_
    ?_ ?_ ?_ (.inl hsteps) hholds fun _ => id
  · unfold PermitsMove
    cases hc : e.cellCall r with
    | none => exact hholds
    | some call =>
      obtain ⟨op, reply⟩ := call
      obtain ⟨hop, rfl⟩ := hadmits op reply hc
      dsimp only
      rw [hholds]
      cases op <;> first | rfl | cases hop
  · cases e with
    | send batch => cases he
    | _ => rfl
  · rintro rfl
    cases he
  · cases e with
    | poll => cases he
    | _ => exact List.append_nil _

end Connection

end Rspm
