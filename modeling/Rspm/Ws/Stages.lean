/-
  How far the connection task has come with a frame.

  `Stage` is read off the actions of the task by a monitor (`stages`): a frame is
  received under a raw capacity permit, gets its range and its number, is
  stamped, retained and sent; a step that fails leaves the frame `lost`.
  `turn_follows`: whatever its actions answer, the loop takes these steps in
  this order.
-/
import Rspm.Ws.Admission

namespace Rspm

open Prog

/-- The batch of a data frame. -/
def Message.capture (json : List UInt8 → Option FrameValue) :
    Message → Option AuthenticatedUserEventBatch
  | .text bytes => if bytes = pongText then none else some (.captureTextFrame json bytes)
  | .binary bytes => some (.captureBinaryFrame bytes)
  | .frame payload => some (.captureRawFrame payload)
  | .ping _ | .pong _ | .close => none

/-- A data frame as the task received it. -/
structure Arrival where
  generation : ℕ
  receipt : AuthenticatedUserFrameReceipt
  message : Message
  batch : AuthenticatedUserEventBatch

/-- The batch with its transport context. -/
def Arrival.stamp (arrival : Arrival) (range : TransportSequenceRange) (frameSequence : ℕ)
    (state : AuthenticatedUserWsState) : AuthenticatedUserEventBatch :=
  arrival.batch.withTransportContext arrival.receipt frameSequence range.first
    arrival.generation state.gapVersion

inductive Stage where
  /-- no permit is held; a frame may be received on the socket of the generation -/
  | free (generation : Option ℕ)
  /-- the permit for the next frame is held -/
  | ready (generation : ℕ)
  | received (arrival : Arrival)
  | ranged (arrival : Arrival) (range : TransportSequenceRange)
  | numbered (arrival : Arrival) (range : TransportSequenceRange) (frameSequence : ℕ)
  | stamped (arrival : Arrival) (range : TransportSequenceRange) (frameSequence : ℕ)
      (state : AuthenticatedUserWsState)
  | retained (arrival : Arrival) (range : TransportSequenceRange) (frameSequence : ℕ)
      (state : AuthenticatedUserWsState) (evidence : AuthenticatedUserRawFrame)
  /-- the frame cannot be sent; `held` says how many permits are left to drop -/
  | lost (arrival : Arrival) (held : ℕ)
  | panicked

/-- The actions that take no part in the admission of a frame. -/
def ConnectionAct.quiet : ConnectionAct → Bool
  | .call op => !op.admits
  | .borrowShutdown | .connect | .write | .reserveSlot | .pingOverdue | .sendMessage
  | .closeSocket | .waitOrShutdown _ => true
  | _ => false

namespace Stage

/-! ## The monitor -/

def freeNext (generation : Option ℕ) : (Σ e : ConnectionAct, e.Answer) → Option Stage
  | ⟨.tryMarkConnected, r⟩ => some (.free r.toOption)
  | ⟨.reserveRawFrameCapacity, .capacity true⟩ => generation.map .ready
  | ⟨.reserveRawFrameCapacity, _⟩ => some (.free generation)
  | ⟨e, _⟩ => if e.quiet then some (.free generation) else none

def readyNext (json : List UInt8 → Option FrameValue) (generation : ℕ) :
    (Σ e : ConnectionAct, e.Answer) → Option Stage
  | ⟨.dropRawCapacity, _⟩ => some (.free (some generation))
  | ⟨.poll, .received (some (.ok message)) (some receipt)⟩ =>
    match message.capture json with
    | some batch => some (.received ⟨generation, receipt, message, batch⟩)
    | none => some (.ready generation)
  | ⟨.poll, _⟩ => some (.ready generation)
  | ⟨e, _⟩ => if e.quiet then some (.ready generation) else none

def receivedNext (arrival : Arrival) : (Σ e : ConnectionAct, e.Answer) → Option Stage
  | ⟨.reserveTransportSequences eventCount, r⟩ =>
    if eventCount = arrival.batch.sequenceWidth then
      match r with
      | some range => some (.ranged arrival range)
      | none => some (.lost arrival 1)
    else none
  | ⟨.panic, _⟩ => if u64Max < arrival.batch.sequenceWidth then some .panicked else none
  | _ => none

def rangedNext (arrival : Arrival) (range : TransportSequenceRange) :
    (Σ e : ConnectionAct, e.Answer) → Option Stage
  | ⟨.reserveRawFrameSequence, some frameSequence⟩ =>
    some (.numbered arrival range frameSequence)
  | ⟨.reserveRawFrameSequence, none⟩ => some (.lost arrival 1)
  | _ => none

def numberedNext (arrival : Arrival) (range : TransportSequenceRange) (frameSequence : ℕ) :
    (Σ e : ConnectionAct, e.Answer) → Option Stage
  | ⟨.snapshot, state⟩ => some (.stamped arrival range frameSequence state)
  | _ => none

def stampedNext (arrival : Arrival) (range : TransportSequenceRange) (frameSequence : ℕ)
    (state : AuthenticatedUserWsState) : (Σ e : ConnectionAct, e.Answer) → Option Stage
  | ⟨.retainRawFrame evidence, r⟩ =>
    if (arrival.stamp range frameSequence state).rawEvidence = some evidence then
      if r then some (.retained arrival range frameSequence state evidence)
      else some (.lost arrival 0)
    else none
  | ⟨.panic, _⟩ =>
    if (arrival.stamp range frameSequence state).rawEvidence = none then some .panicked else none
  | _ => none

open Classical in
noncomputable def retainedNext (arrival : Arrival) (range : TransportSequenceRange)
    (frameSequence : ℕ) (state : AuthenticatedUserWsState) :
    (Σ e : ConnectionAct, e.Answer) → Option Stage
  | ⟨.send batch, _⟩ =>
    if batch = arrival.stamp range frameSequence state then
      -- the socket of a frame with a gap is left
      some (.free (if batch.frameGap.isSome then none else some arrival.generation))
    else none
  | _ => none

def lostNext (arrival : Arrival) (held : ℕ) :
    (Σ e : ConnectionAct, e.Answer) → Option Stage
  | ⟨.tryMarkConnected, .ok generation⟩ => some (.free (some generation))
  | ⟨.tryMarkConnected, .error _⟩ => some (.lost arrival held)
  | ⟨.dropRawCapacity, _⟩ => if 0 < held then some (.lost arrival (held - 1)) else none
  | ⟨e, _⟩ => if e.quiet then some (.lost arrival held) else none

noncomputable def next (json : List UInt8 → Option FrameValue) :
    Stage → (Σ e : ConnectionAct, e.Answer) → Option Stage
  | .free generation => freeNext generation
  | .ready generation => readyNext json generation
  | .received arrival => receivedNext arrival
  | .ranged arrival range => rangedNext arrival range
  | .numbered arrival range frameSequence => numberedNext arrival range frameSequence
  | .stamped arrival range frameSequence state => stampedNext arrival range frameSequence state
  | .retained arrival range frameSequence state _ =>
    retainedNext arrival range frameSequence state
  | .lost arrival held => lostNext arrival held
  -- nothing is said of a task after a failed `expect`
  | .panicked => fun _ => some .panicked

/-- The stages of the task. -/
noncomputable def stages (json : List UInt8 → Option FrameValue) :
    Monitor Stage (Σ e : ConnectionAct, e.Answer) := ⟨next json⟩

/-- No frame is under way, or it is lost. -/
def Settled : Stage → Prop
  | free _ | ready _ | lost _ _ | panicked => True
  | _ => False

/-- No permit is held for another frame. -/
def Apart : Stage → Prop
  | free _ | lost _ _ | panicked => True
  | _ => False

theorem Apart.settled {w : Stage} (h : w.Apart) : w.Settled := by
  cases w with
  | free | lost | panicked => trivial
  | _ => exact h.elim

/-- Where a turn of the frame loop ends. -/
def Turned (generation : ℕ) : Turn → Stage → Prop
  | .again _, w => w = free (some generation)
  | .leave, w => w.Apart

/-- Where a turn begins. -/
def At : LoopPoint → Stage → Prop
  | .connect _ _, w => w.Apart
  | .socket generation _, w => w = free (some generation) ∨ w = panicked

variable {json : List UInt8 → Option FrameValue} {w w' : Stage}

/-- The steps of the stages, one for each case of the monitor. -/
inductive Next (json : List UInt8 → Option FrameValue) :
    Stage → (e : ConnectionAct) → e.Answer → Stage → Prop
  | quiet {w : Stage} {e : ConnectionAct} {r : e.Answer} (hw : w.Settled)
      (he : e.quiet = true) : Next json w e r w
  | connected {generation : ℕ} {before : Option ℕ} :
      Next json (.free before) .tryMarkConnected (.ok generation) (.free (some generation))
  | unconnected {exhaustion : AuthenticatedUserCounterExhaustion} {before : Option ℕ} :
      Next json (.free before) .tryMarkConnected (.error exhaustion) (.free none)
  | reconnected {generation : ℕ} {arrival : Arrival} {held : ℕ} :
      Next json (.lost arrival held) .tryMarkConnected (.ok generation) (.free (some generation))
  | stranded {exhaustion : AuthenticatedUserCounterExhaustion} {arrival : Arrival} {held : ℕ} :
      Next json (.lost arrival held) .tryMarkConnected (.error exhaustion) (.lost arrival held)
  | granted {generation : ℕ} :
      Next json (.free (some generation)) .reserveRawFrameCapacity (.capacity true)
        (.ready generation)
  | waited {generation : Option ℕ} {r : CapacityArm} (hr : r ≠ .capacity true) :
      Next json (.free generation) .reserveRawFrameCapacity r (.free generation)
  | dropped {generation : ℕ} :
      Next json (.ready generation) .dropRawCapacity () (.free (some generation))
  | released {arrival : Arrival} {held : ℕ} (hh : 0 < held) :
      Next json (.lost arrival held) .dropRawCapacity () (.lost arrival (held - 1))
  | arrived {generation : ℕ} {message : Message} {receipt : AuthenticatedUserFrameReceipt}
      {batch : AuthenticatedUserEventBatch} (h : message.capture json = some batch) :
      Next json (.ready generation) .poll (.received (some (.ok message)) (some receipt))
        (.received ⟨generation, receipt, message, batch⟩)
  | polled {generation : ℕ} {r : PollArm}
      (hr : ∀ message receipt, r = .received (some (.ok message)) (some receipt) →
        message.capture json = none) :
      Next json (.ready generation) .poll r (.ready generation)
  | ranged {arrival : Arrival} {range : TransportSequenceRange} :
      Next json (.received arrival) (.reserveTransportSequences arrival.batch.sequenceWidth)
        (some range) (.ranged arrival range)
  | unranged {arrival : Arrival} :
      Next json (.received arrival) (.reserveTransportSequences arrival.batch.sequenceWidth)
        none (.lost arrival 1)
  | numbered {arrival : Arrival} {range : TransportSequenceRange} {frameSequence : ℕ} :
      Next json (.ranged arrival range) .reserveRawFrameSequence (some frameSequence)
        (.numbered arrival range frameSequence)
  | unnumbered {arrival : Arrival} {range : TransportSequenceRange} :
      Next json (.ranged arrival range) .reserveRawFrameSequence none (.lost arrival 1)
  | stamped {arrival : Arrival} {range : TransportSequenceRange} {frameSequence : ℕ}
      {state : AuthenticatedUserWsState} :
      Next json (.numbered arrival range frameSequence) .snapshot state
        (.stamped arrival range frameSequence state)
  | retained {arrival : Arrival} {range : TransportSequenceRange} {frameSequence : ℕ}
      {state : AuthenticatedUserWsState} {evidence : AuthenticatedUserRawFrame}
      (h : (arrival.stamp range frameSequence state).rawEvidence = some evidence) :
      Next json (.stamped arrival range frameSequence state) (.retainRawFrame evidence) true
        (.retained arrival range frameSequence state evidence)
  | unretained {arrival : Arrival} {range : TransportSequenceRange} {frameSequence : ℕ}
      {state : AuthenticatedUserWsState} {evidence : AuthenticatedUserRawFrame}
      (h : (arrival.stamp range frameSequence state).rawEvidence = some evidence) :
      Next json (.stamped arrival range frameSequence state) (.retainRawFrame evidence) false
        (.lost arrival 0)
  | sent {arrival : Arrival} {range : TransportSequenceRange} {frameSequence : ℕ}
      {state : AuthenticatedUserWsState} {evidence : AuthenticatedUserRawFrame}
      {batch : AuthenticatedUserEventBatch} (h : batch = arrival.stamp range frameSequence state) :
      Next json (.retained arrival range frameSequence state evidence) (.send batch) ()
        (.free (if batch.frameGap.isSome then none else some arrival.generation))
  | tooWide {arrival : Arrival} (h : u64Max < arrival.batch.sequenceWidth) :
      Next json (.received arrival) .panic () .panicked
  | unproven {arrival : Arrival} {range : TransportSequenceRange} {frameSequence : ℕ}
      {state : AuthenticatedUserWsState}
      (h : (arrival.stamp range frameSequence state).rawEvidence = none) :
      Next json (.stamped arrival range frameSequence state) .panic () .panicked
  | panicked {e : ConnectionAct} {r : e.Answer} : Next json .panicked e r .panicked

theorem Next.of_quiet {e : ConnectionAct} {r : e.Answer} (hw : w.Settled)
    (h : (if e.quiet then some w else none) = some w') : Next json w e r w' := by
  split_ifs at h with he
  obtain rfl := Option.some.inj h
  exact .quiet hw he

theorem freeNext_cases {generation : Option ℕ} {e : ConnectionAct} {r : e.Answer}
    (h : freeNext generation ⟨e, r⟩ = some w') : Next json (.free generation) e r w' := by
  cases e with
  | tryMarkConnected =>
    obtain rfl := Option.some.inj h
    cases r with
    | ok generation => exact .connected
    | error exhaustion => exact .unconnected
  | reserveRawFrameCapacity =>
    rcases r with closing | - | granted
    · obtain rfl := Option.some.inj h
      exact .waited (by simp)
    · obtain rfl := Option.some.inj h
      exact .waited (by simp)
    · cases granted with
      | false =>
        obtain rfl := Option.some.inj h
        exact .waited (by simp)
      | true =>
        cases generation with
        | none => cases h
        | some generation =>
          obtain rfl := Option.some.inj h
          exact .granted
  | _ => exact .of_quiet trivial h

theorem readyNext_cases {generation : ℕ} {e : ConnectionAct} {r : e.Answer}
    (h : readyNext json generation ⟨e, r⟩ = some w') : Next json (.ready generation) e r w' := by
  cases e with
  | dropRawCapacity =>
    obtain rfl := Option.some.inj h
    exact .dropped
  | poll =>
    rcases r with - | ⟨output, receipt⟩ | -
    · obtain rfl := Option.some.inj h
      exact .polled (by simp)
    · rcases output with _ | _ | message
      · obtain rfl := Option.some.inj h
        exact .polled (by simp)
      · obtain rfl := Option.some.inj h
        exact .polled (by simp)
      · cases receipt with
        | none =>
          obtain rfl := Option.some.inj h
          exact .polled (by simp)
        | some receipt =>
          simp only [readyNext] at h
          split at h
          · obtain rfl := Option.some.inj h
            exact .arrived ‹_›
          · obtain rfl := Option.some.inj h
            exact .polled (by simpa)
    · obtain rfl := Option.some.inj h
      exact .polled (by simp)
  | _ => exact .of_quiet trivial h

theorem lostNext_cases {arrival : Arrival} {held : ℕ} {e : ConnectionAct} {r : e.Answer}
    (h : lostNext arrival held ⟨e, r⟩ = some w') : Next json (.lost arrival held) e r w' := by
  cases e with
  | tryMarkConnected =>
    cases r with
    | ok generation =>
      obtain rfl := Option.some.inj h
      exact .reconnected
    | error exhaustion =>
      obtain rfl := Option.some.inj h
      exact .stranded
  | dropRawCapacity =>
    obtain ⟨hh, h⟩ := Option.ite_none_right_eq_some.1 h
    obtain rfl := Option.some.inj h
    exact .released hh
  | _ => exact .of_quiet trivial h

/-- The monitor takes no other step. -/
theorem next_cases {e : ConnectionAct} {r : e.Answer}
    (h : (stages json).next w ⟨e, r⟩ = some w') : Next json w e r w' := by
  cases w with
  | free generation => exact freeNext_cases h
  | ready generation => exact readyNext_cases h
  | received arrival =>
    cases e with
    | reserveTransportSequences eventCount =>
      simp only [stages, next, receivedNext, Option.ite_none_right_eq_some] at h
      obtain ⟨rfl, h⟩ := h
      cases r with
      | none =>
        obtain rfl := Option.some.inj h
        exact .unranged
      | some range =>
        obtain rfl := Option.some.inj h
        exact .ranged
    | panic =>
      obtain ⟨hwide, h⟩ := Option.ite_none_right_eq_some.1 h
      obtain rfl := Option.some.inj h
      exact .tooWide hwide
    | _ => cases h
  | ranged arrival range =>
    cases e with
    | reserveRawFrameSequence =>
      cases r with
      | none =>
        obtain rfl := Option.some.inj h
        exact .unnumbered
      | some frameSequence =>
        obtain rfl := Option.some.inj h
        exact .numbered
    | _ => cases h
  | numbered arrival range frameSequence =>
    cases e with
    | snapshot =>
      obtain rfl := Option.some.inj h
      exact .stamped
    | _ => cases h
  | stamped arrival range frameSequence state =>
    cases e with
    | retainRawFrame evidence =>
      obtain ⟨hevidence, h⟩ := Option.ite_none_right_eq_some.1 h
      cases r with
      | false =>
        obtain rfl := Option.some.inj h
        exact .unretained hevidence
      | true =>
        obtain rfl := Option.some.inj h
        exact .retained hevidence
    | panic =>
      obtain ⟨hnone, h⟩ := Option.ite_none_right_eq_some.1 h
      obtain rfl := Option.some.inj h
      exact .unproven hnone
    | _ => cases h
  | retained arrival range frameSequence state evidence =>
    cases e with
    | send batch =>
      obtain ⟨hbatch, h⟩ := Option.ite_none_right_eq_some.1 h
      obtain rfl := Option.some.inj h
      exact .sent hbatch
    | _ => cases h
  | lost arrival held => exact lostNext_cases h
  | panicked =>
    obtain rfl := Option.some.inj h
    exact .panicked

/-- A quiet action leaves a settled stage. -/
theorem next_quiet (hw : w.Settled) {e : ConnectionAct} (he : e.quiet = true) (r : e.Answer) :
    (stages json).next w ⟨e, r⟩ = some w := by
  cases w with
  | free generation => cases e <;> simp_all [stages, next, freeNext, ConnectionAct.quiet]
  | ready generation => cases e <;> simp_all [stages, next, readyNext, ConnectionAct.quiet]
  | lost arrival held => cases e <;> simp_all [stages, next, lostNext, ConnectionAct.quiet]
  | panicked => rfl
  | _ => exact hw.elim

/-- After a failed `expect` anything follows. -/
theorem follows_panicked {α : Type} {Q : α → Stage → Prop} (hQ : ∀ a, Q a .panicked)
    (p : ConnectionLoop α) : p.Follows (stages json) Q .panicked := by
  induction p with
  | ret a => exact hQ a
  | act e k ih => exact fun r => ⟨.panicked, rfl, ih r⟩

end Stage

/-! ## Quiet programs -/

namespace ConnectionLoop

open Stage

variable {json : List UInt8 → Option FrameValue} {config : AuthenticatedUserWsConfig}
  {w : Stage} {α β : Type}

/-- All the actions of the program are quiet. -/
def Quiet (p : ConnectionLoop α) : Prop := p.All fun e => e.quiet = true

theorem Quiet.follows {p : ConnectionLoop α} (hp : Quiet p) (hw : w.Settled) :
    p.Follows (stages json) (fun _ w' => w' = w) w :=
  All.follows (fun _ r he => next_quiet hw he r) hp

theorem Quiet.bind {p : ConnectionLoop α} {f : α → ConnectionLoop β} (hp : Quiet p)
    (hf : ∀ a, Quiet (f a)) : Quiet (p >>= f) := All.bind hp hf

theorem quiet_ret (a : α) : Quiet (.ret a) := trivial

theorem quiet_step {e : ConnectionAct} (he : e.quiet = true) : Quiet (step e) := ⟨he, quiet_ret⟩

theorem quiet_closeSocket : Quiet closeSocket := by
  refine ⟨rfl, fun r => ?_⟩
  cases r with
  | true => exact quiet_ret ()
  | false => exact quiet_step rfl

theorem quiet_onShutdown (closing outstandingPing : Bool) :
    Quiet (onShutdown closing outstandingPing) := by
  cases closing with
  | true => exact quiet_closeSocket.bind fun _ => quiet_ret _
  | false => exact quiet_ret _

theorem quiet_heartbeat (outstandingPing : Bool) : Quiet (heartbeat outstandingPing) := by
  cases outstandingPing <;>
  · refine ⟨rfl, fun r => ?_⟩
    cases r <;> exact quiet_ret _

/-! ## The turns -/

theorem follows_quiet {Q : α → Stage → Prop} {p : ConnectionLoop α} (hp : Quiet p)
    (hw : w.Settled) (hQ : ∀ a, Q a w) : p.Follows (stages json) Q w := by
  refine (hp.follows hw).mono fun a w' hw' => ?_
  rw [hw']
  exact hQ a

theorem follows_after {Q : β → Stage → Prop} {p : ConnectionLoop α} {f : α → ConnectionLoop β}
    (hp : Quiet p) (hw : w.Settled) (hf : ∀ a, (f a).Follows (stages json) Q w) :
    (p >>= f).Follows (stages json) Q w := by
  refine Follows.bind (fun a w' hw' => ?_) (hp.follows hw)
  rw [hw']
  exact hf a

/-- The permit is dropped at the end of a turn. -/
theorem follows_drop {Q : Turn → Stage → Prop} {w' : Stage} {t : Turn}
    (hnext : (stages json).next w ⟨.dropRawCapacity, ()⟩ = some w') (hQ : Q t w') :
    (do step .dropRawCapacity; return t : ConnectionLoop Turn).Follows (stages json) Q w :=
  fun _ => ⟨w', hnext, hQ⟩

theorem admitFrame_follows (arrival : Arrival) (outstandingPing : Bool) :
    (admitFrame arrival.generation outstandingPing arrival.receipt arrival.batch).Follows
      (stages json) (Turned arrival.generation) (.received arrival) := by
  have hlost : ∀ held, (Stage.lost arrival held).Settled := fun _ => trivial
  have hfree : ∀ generation, (Stage.free generation).Settled := fun _ => trivial
  unfold admitFrame
  simp only [perform_bind]
  split_ifs with hw
  · intro r
    cases r with
    | none =>
      refine ⟨.lost arrival 1, if_pos rfl, fun r => ?_⟩
      refine ⟨.lost arrival 1, next_quiet (hlost 1) rfl r, ?_⟩
      refine follows_after quiet_closeSocket (hlost 1) fun _ => ?_
      exact follows_drop rfl trivial
    | some range =>
      refine ⟨.ranged arrival range, if_pos rfl, fun r => ?_⟩
      cases r with
      | none =>
        refine ⟨.lost arrival 1, rfl, fun r => ?_⟩
        refine ⟨.lost arrival 1, next_quiet (hlost 1) rfl r, ?_⟩
        exact follows_drop rfl trivial
      | some frameSequence =>
        refine ⟨.numbered arrival range frameSequence, rfl, fun state => ?_⟩
        refine ⟨.stamped arrival range frameSequence state, rfl, ?_⟩
        have hstamp : arrival.batch.withTransportContext arrival.receipt frameSequence range.first
          arrival.generation state.gapVersion = arrival.stamp range frameSequence state := rfl
        simp only [hstamp]
        cases he : (arrival.stamp range frameSequence state).rawEvidence with
        | none => exact fun _ => ⟨.panicked, if_pos he, trivial⟩
        | some evidence =>
          intro r
          cases r with
          | false =>
            refine ⟨.lost arrival 0, if_pos he, fun r => ?_⟩
            exact ⟨.lost arrival 0, next_quiet (hlost 0) rfl r, trivial⟩
          | true =>
            refine ⟨.retained arrival range frameSequence state evidence, if_pos he, fun _ => ?_⟩
            refine ⟨.free (if (arrival.stamp range frameSequence state).frameGap.isSome then none
              else some arrival.generation), if_pos rfl, fun r => ?_⟩
            refine ⟨_, next_quiet (hfree _) rfl r, ?_⟩
            cases (arrival.stamp range frameSequence state).frameGap.isSome with
            | false => exact rfl
            | true =>
              refine fun r => ⟨.free none, next_quiet (hfree _) rfl r, ?_⟩
              exact follows_after quiet_closeSocket (hfree _) fun _ => trivial
  · exact fun _ => ⟨.panicked, if_pos (by omega), trivial⟩

theorem receive_follows (generation : ℕ) (outstandingPing : Bool)
    (receipt : AuthenticatedUserFrameReceipt) (message : Message) :
    (receive json generation outstandingPing receipt message).Follows (stages json)
      (Turned generation)
      (match message.capture json with
        | some batch => .received ⟨generation, receipt, message, batch⟩
        | none => .ready generation) := by
  have hready : (Stage.ready generation).Settled := trivial
  cases message with
  | text bytes =>
    by_cases hpong : bytes = pongText
    · simp only [receive, Message.capture, if_pos hpong]
      cases outstandingPing with
      | true => exact fun r => ⟨.ready generation, next_quiet hready rfl r, follows_drop rfl rfl⟩
      | false => exact follows_drop rfl rfl
    · simp only [receive, Message.capture, if_neg hpong]
      exact admitFrame_follows ⟨generation, receipt, .text bytes, .captureTextFrame json bytes⟩ _
  | binary bytes =>
    exact admitFrame_follows ⟨generation, receipt, .binary bytes, .captureBinaryFrame bytes⟩ _
  | frame payload =>
    exact admitFrame_follows ⟨generation, receipt, .frame payload, .captureRawFrame payload⟩ _
  | pong payload => exact follows_drop rfl rfl
  | close => exact follows_drop rfl trivial
  | ping payload =>
    refine fun sent => ⟨.ready generation, next_quiet hready rfl sent, ?_⟩
    refine follows_drop rfl ?_
    cases sent with
    | true => exact rfl
    | false => exact trivial

/-- However a turn ends, its socket may be left. -/
theorem turned_free {generation : ℕ} {t : Turn} :
    Turned generation t (.free (some generation)) := by
  cases t with
  | again outstandingPing => exact rfl
  | leave => exact trivial

theorem pollSocket_follows (generation : ℕ) (outstandingPing : Bool) :
    (pollSocket json generation outstandingPing).Follows (stages json) (Turned generation)
      (.ready generation) := by
  have hready : (Stage.ready generation).Settled := trivial
  unfold pollSocket
  simp only [perform_bind]
  intro r
  cases r with
  | heartbeat =>
    refine ⟨.ready generation, rfl, ?_⟩
    refine follows_after (quiet_heartbeat _) hready fun t => ?_
    exact follows_drop rfl turned_free
  | shutdown =>
    refine ⟨.ready generation, rfl, ?_⟩
    refine follows_after quiet_closeSocket hready fun _ => ?_
    exact follows_drop rfl trivial
  | received output receipt =>
    cases receipt with
    | none =>
      refine ⟨.ready generation, by rcases output with - | - | message <;> rfl, fun r => ?_⟩
      refine ⟨.ready generation, next_quiet hready rfl r, ?_⟩
      exact follows_drop rfl trivial
    | some receipt =>
      rcases output with - | - | message
      · exact ⟨.ready generation, rfl, follows_drop rfl trivial⟩
      · exact ⟨.ready generation, rfl, follows_drop rfl trivial⟩
      · refine ⟨_, ?_, receive_follows generation outstandingPing receipt message⟩
        simp only [stages, Stage.next, readyNext]
        split <;> rfl

theorem frameTurn_follows (generation : ℕ) (outstandingPing : Bool) :
    (frameTurn json generation outstandingPing).Follows (stages json) (Turned generation)
      (.free (some generation)) := by
  have hfree : (Stage.free (some generation)).Settled := trivial
  unfold frameTurn
  simp only [perform_bind]
  refine fun r => ⟨_, next_quiet hfree rfl r, ?_⟩
  cases r with
  | true => exact follows_after quiet_closeSocket hfree fun _ => trivial
  | false =>
    refine fun r => ⟨_, next_quiet hfree rfl r, ?_⟩
    cases r with
    | consumerClosed => exact fun r => ⟨_, next_quiet hfree rfl r, trivial⟩
    | shutdown closing => exact follows_quiet (quiet_onShutdown _ _) hfree fun _ => turned_free
    | heartbeat => exact follows_quiet (quiet_heartbeat _) hfree fun _ => turned_free
    | permit granted =>
      cases granted with
      | false => exact fun r => ⟨_, next_quiet hfree rfl r, trivial⟩
      | true =>
        intro r
        cases r with
        | shutdown closing =>
          refine ⟨_, rfl, ?_⟩
          exact follows_quiet (quiet_onShutdown _ _) hfree fun _ => turned_free
        | heartbeat =>
          refine ⟨_, rfl, ?_⟩
          exact follows_quiet (quiet_heartbeat _) hfree fun _ => turned_free
        | capacity granted =>
          cases granted with
          | false => exact ⟨_, rfl, fun r => ⟨_, next_quiet hfree rfl r, trivial⟩⟩
          | true => exact ⟨_, rfl, pollSocket_follows generation outstandingPing⟩

/-- The next turn begins where a monitor may expect it. -/
def Leads (next : Option LoopPoint) (w : Stage) : Prop := ∀ k, next = some k → At k w

theorem leads_none : Leads none w := nofun

theorem leads_some {k : LoopPoint} (h : At k w) : Leads (some k) w := by
  intro k' hk'
  obtain rfl := Option.some.inj hk'
  exact h

theorem finish_follows (hw : w.Settled) : finish.Follows (stages json) Leads w :=
  fun r => ⟨w, next_quiet hw rfl r, leads_none⟩

theorem reconnect_follows (ha : w.Apart) (reconnectAttempt : ℕ) (reconnectDelay : Duration) :
    (reconnect config reconnectAttempt reconnectDelay).Follows (stages json) Leads w := by
  have hw := ha.settled
  have hfail : (do step (.call .markEvidenceGap); finish : ConnectionLoop _).Follows
      (stages json) Leads w := fun r => ⟨w, next_quiet hw rfl r, finish_follows hw⟩
  unfold reconnect
  cases nextReconnectAttempt reconnectAttempt with
  | none => exact hfail
  | some nextAttempt =>
    dsimp only
    split_ifs
    · exact finish_follows hw
    · refine fun r => ⟨w, next_quiet hw rfl r, ?_⟩
      cases r with
      | true => exact finish_follows hw
      | false =>
        cases doubledDelay reconnectDelay config.maxReconnectDelay with
        | none => exact hfail
        | some nextDelay => exact leads_some ha

theorem afterSocket_follows (ha : w.Apart) (reconnectAttempt : ℕ) (reconnectDelay : Duration) :
    (afterSocket config reconnectAttempt reconnectDelay).Follows (stages json) Leads w := by
  refine fun r => ⟨w, next_quiet ha.settled rfl r, ?_⟩
  cases r with
  | true => exact finish_follows ha.settled
  | false => exact reconnect_follows ha reconnectAttempt reconnectDelay

theorem openSocket_follows (generation reconnectAttempt : ℕ) (reconnectDelay : Duration) :
    (openSocket config generation reconnectAttempt reconnectDelay).Follows (stages json) Leads
      (.free (some generation)) := by
  have hapart : (Stage.free (some generation)).Apart := trivial
  have hfree := hapart.settled
  have hafter : (afterSocket config reconnectAttempt reconnectDelay).Follows (stages json) Leads
      (.free (some generation)) := afterSocket_follows hapart reconnectAttempt reconnectDelay
  unfold openSocket
  simp only [perform_bind]
  refine fun r => ⟨_, next_quiet hfree rfl r, ?_⟩
  cases r with
  | shutdown failed =>
    cases failed with
    | true =>
      refine fun r => ⟨_, next_quiet hfree rfl r, fun r => ?_⟩
      exact ⟨_, next_quiet hfree rfl r, finish_follows hfree⟩
    | false => exact fun r => ⟨_, next_quiet hfree rfl r, finish_follows hfree⟩
  | done written =>
    cases written with
    | false => exact fun r => ⟨_, next_quiet hfree rfl r, hafter⟩
    | true =>
      refine fun r => ⟨_, next_quiet hfree rfl r, fun r => ?_⟩
      refine ⟨_, next_quiet hfree rfl r, ?_⟩
      cases r with
      | done written =>
        cases written with
        | true => exact leads_some (.inl rfl)
        | false => exact fun r => ⟨_, next_quiet hfree rfl r, hafter⟩
      | shutdown failed =>
        cases failed with
        | true =>
          refine fun r => ⟨_, next_quiet hfree rfl r, fun r => ?_⟩
          exact ⟨_, next_quiet hfree rfl r, hafter⟩
        | false => exact fun r => ⟨_, next_quiet hfree rfl r, hafter⟩

theorem connectTurn_follows (ha : w.Apart) (hp : w ≠ .panicked) (reconnectAttempt : ℕ)
    (reconnectDelay : Duration) :
    (connectTurn config reconnectAttempt reconnectDelay).Follows (stages json) Leads w := by
  have hw := ha.settled
  unfold connectTurn
  simp only [perform_bind]
  refine fun r => ⟨w, next_quiet hw rfl r, ?_⟩
  cases r with
  | true => exact finish_follows hw
  | false =>
    refine fun r => ⟨w, next_quiet hw rfl r, fun r => ?_⟩
    refine ⟨w, next_quiet hw rfl r, ?_⟩
    cases r with
    | shutdown failed =>
      cases failed with
      | true => exact fun r => ⟨w, next_quiet hw rfl r, finish_follows hw⟩
      | false => exact finish_follows hw
    | done connected =>
      cases connected with
      | false =>
        refine fun r => ⟨w, next_quiet hw rfl r, ?_⟩
        cases r with
        | true => exact finish_follows hw
        | false => exact fun r => ⟨w, next_quiet hw rfl r, reconnect_follows ha _ _⟩
      | true =>
        intro r
        cases w with
        | free generation =>
          cases r with
          | error exhaustion => exact ⟨.free none, rfl, finish_follows trivial⟩
          | ok generation => exact ⟨_, rfl, openSocket_follows generation _ _⟩
        | lost arrival held =>
          cases r with
          | error exhaustion => exact ⟨.lost arrival held, rfl, finish_follows trivial⟩
          | ok generation => exact ⟨_, rfl, openSocket_follows generation _ _⟩
        | panicked => exact absurd rfl hp
        | _ => exact ha.elim

/-- Every turn goes through the stages, and ends where the next turn may begin. -/
theorem turn_follows (k : LoopPoint) (hk : At k w) :
    (turn json config k).Follows (stages json) Leads w := by
  by_cases hp : w = .panicked
  · subst hp
    refine follows_panicked ?_ _
    rintro next k' -
    cases k' with
    | connect => exact trivial
    | socket => exact .inr rfl
  · cases k with
    | connect reconnectAttempt reconnectDelay => exact connectTurn_follows hk hp _ _
    | socket generation outstandingPing =>
      obtain rfl := hk.resolve_right hp
      refine Follows.bind (fun t w' ht => ?_) (frameTurn_follows generation outstandingPing)
      cases t with
      | again outstandingPing => exact leads_some (.inl ht)
      | leave =>
        refine fun r => ⟨w', next_quiet (Apart.settled ht) rfl r, ?_⟩
        exact afterSocket_follows ht _ _

end ConnectionLoop

end Rspm
