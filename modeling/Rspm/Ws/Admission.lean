/-
  The connection task of a session: `connection_loop`.

  A turn is one pass of the loop over the sockets (`LoopPoint.connect`), or of
  the loop over the frames of a connected socket (`LoopPoint.socket`).  What the
  network, the clock, the shutdown channel and the event channel answer is
  arbitrary; a call of the state cell answers as the cell does, and between two
  actions of the task any other party calls the cell (`Bystander`).

  The raw capacity permit is a local of the source: `dropRawCapacity` stands
  where it goes out of scope.  A task that is aborted ends its run.
-/
import Rspm.Lib.Follow
import Rspm.Ws.Delivery
import Rspm.Clob.Retry

namespace Rspm

structure AuthenticatedUserWsConfig where
  initialReconnectDelay : Duration
  maxReconnectDelay : Duration
  maxReconnectAttempts : Option ℕ

/-- A message of the socket, control frames included. -/
inductive Message where
  | text (bytes : List UInt8)
  | binary (bytes : List UInt8)
  | ping (payload : List UInt8)
  | pong (payload : List UInt8)
  | close
  | frame (payload : List UInt8)

/-- `"PONG"` -/
def pongText : List UInt8 := [80, 79, 78, 71]

/-! ## Actions -/

/-- What a `select!` with the shutdown channel returns; `failed` is `changed.is_err()`. -/
inductive OrShutdown (α : Type) where
  | done (a : α)
  | shutdown (failed : Bool)

/-- The arms of the `select!` around `event_tx.reserve`.  `closing` stands for
    `changed.is_err() || *shutdown_rx.borrow()`. -/
inductive SlotArm where
  | consumerClosed
  | shutdown (closing : Bool)
  | heartbeat
  | permit (granted : Bool)

/-- The arms of the `select!` around `reserve_raw_frame_capacity`. -/
inductive CapacityArm where
  | shutdown (closing : Bool)
  | heartbeat
  | capacity (granted : Bool)

/-- The arms of the `select!` around `receive_or_shutdown`.  A socket that ended gives no
    output, one that failed an error. -/
inductive PollArm where
  | heartbeat
  | received (output : Option (Except Unit Message))
      (receipt : Option AuthenticatedUserFrameReceipt)
  | shutdown

inductive ConnectionAct where
  /-- a call of the cell that returns nothing -/
  | call (op : Op)
  | tryMarkConnected
  | reserveTransportSequences (eventCount : ℕ)
  | reserveRawFrameSequence
  | snapshot
  | retainRawFrame (evidence : AuthenticatedUserRawFrame)
  | dropRawCapacity
  /-- `*shutdown_rx.borrow()` -/
  | borrowShutdown
  /-- `connect_async_with_config` within its timeout -/
  | connect
  /-- the subscription or the first PING, within its timeout -/
  | write
  | reserveSlot
  | reserveRawFrameCapacity
  | poll
  /-- `sent_at.elapsed() >= heartbeat_timeout` -/
  | pingOverdue
  /-- `socket.send`, `false` on an error -/
  | sendMessage
  /-- `close_socket_within` -/
  | closeSocket
  /-- `permit.send` -/
  | send (batch : AuthenticatedUserEventBatch)
  | waitOrShutdown (delay : Duration)
  /-- an `expect` that fails -/
  | panic

abbrev ConnectionAct.Answer : ConnectionAct → Type
  | .tryMarkConnected => Except AuthenticatedUserCounterExhaustion ℕ
  | .reserveTransportSequences _ => Option TransportSequenceRange
  | .reserveRawFrameSequence => Option ℕ
  | .snapshot => AuthenticatedUserWsState
  | .connect | .write => OrShutdown Bool
  | .reserveSlot => SlotArm
  | .reserveRawFrameCapacity => CapacityArm
  | .poll => PollArm
  | .retainRawFrame _ | .borrowShutdown | .pingOverdue | .sendMessage | .closeSocket
  | .waitOrShutdown _ => Bool
  | .call _ | .dropRawCapacity | .send _ | .panic => Unit

abbrev ConnectionLoop := Prog ConnectionAct ConnectionAct.Answer

/-! ## The loop -/

def reconnectExhausted (maxAttempts : Option ℕ) (attempts : ℕ) : Bool :=
  maxAttempts.any fun maximum => attempts ≥ maximum

def nextReconnectAttempt (current : ℕ) : Option ℕ :=
  if current + 1 ≤ u32Max then some (current + 1) else none

def doubledDelay (current maximum : Duration) : Option Duration :=
  if current * 2 ≤ Duration.maximum then some (min (current * 2) maximum) else none

/-- Where the next turn begins. -/
inductive LoopPoint where
  | connect (reconnectAttempt : ℕ) (reconnectDelay : Duration)
  | socket (generation : ℕ) (outstandingPing : Bool)

/-- How a turn of the frame loop ends: `continue`, or `break`. -/
inductive Turn where
  | again (outstandingPing : Bool)
  | leave

namespace ConnectionLoop

/-- One action. -/
abbrev step (e : ConnectionAct) : ConnectionLoop e.Answer := .perform e

/-- The socket is closed in time, or the cell is told so. -/
def closeSocket : ConnectionLoop Unit := do
  if ← step .closeSocket then return () else step (.call .markDisconnected)

/-- The arm of a changed shutdown channel. -/
def onShutdown (closing outstandingPing : Bool) : ConnectionLoop Turn := do
  if closing then
    closeSocket
    return .leave
  else return .again outstandingPing

/-- The arm of a heartbeat tick. -/
def heartbeat (outstandingPing : Bool) : ConnectionLoop Turn := do
  if outstandingPing then
    if ← step .pingOverdue then return .leave else return .again true
  else if ← step .sendMessage then return .again true
  else return .leave

/-- A data frame: its sequences are reserved, its evidence is retained, its batch is sent. -/
def admitFrame (generation : ℕ) (outstandingPing : Bool) (receipt : AuthenticatedUserFrameReceipt)
    (batch : AuthenticatedUserEventBatch) : ConnectionLoop Turn := do
  -- `u64::try_from` and `usize::try_from`, on a target with 64-bit pointers
  if batch.sequenceWidth ≤ u64Max then
    match ← step (.reserveTransportSequences batch.sequenceWidth) with
    | none =>
      step (.call .markDeliveryGap)
      closeSocket
      step .dropRawCapacity
      return .leave
    | some sequenceRange =>
      match ← step .reserveRawFrameSequence with
      | none =>
        step (.call .markEvidenceGap)
        step .dropRawCapacity
        return .leave
      | some frameSequence =>
        let state ← step .snapshot
        let batch := batch.withTransportContext receipt frameSequence sequenceRange.first
          generation state.gapVersion
        match batch.rawEvidence with
        | none =>
          step .panic
          return .leave
        | some evidence =>
          -- the permit moves with the evidence, also where the ledger refuses it
          if ← step (.retainRawFrame evidence) then
            step (.send batch)
            step (.call (.markEnqueued sequenceRange))
            if batch.frameGap.isSome then
              step (.call .markSchemaGap)
              closeSocket
              return .leave
            else return .again outstandingPing
          else
            step (.call .markEvidenceGap)
            return .leave
  else
    step .panic
    return .leave

variable (json : List UInt8 → Option FrameValue)

/-- The arms of a received message. -/
def receive (generation : ℕ) (outstandingPing : Bool) (receipt : AuthenticatedUserFrameReceipt) :
    Message → ConnectionLoop Turn
  | .text bytes =>
    if bytes = pongText then do
      if outstandingPing then step (.call (.markServerLivenessProven generation))
      step .dropRawCapacity
      return .again false
    else admitFrame generation outstandingPing receipt (.captureTextFrame json bytes)
  -- a control-frame Pong cannot prove the generation
  | .pong _ => do
    step .dropRawCapacity
    return .again outstandingPing
  | .ping _ => do
    let sent ← step .sendMessage
    step .dropRawCapacity
    return if sent then .again outstandingPing else .leave
  | .binary bytes => admitFrame generation outstandingPing receipt (.captureBinaryFrame bytes)
  | .frame payload => admitFrame generation outstandingPing receipt (.captureRawFrame payload)
  | .close => do
    step .dropRawCapacity
    return .leave

/-- The last `select!` of a turn, with both permits held. -/
def pollSocket (generation : ℕ) (outstandingPing : Bool) : ConnectionLoop Turn := do
  match ← step .poll with
  | .heartbeat =>
    let turn ← heartbeat outstandingPing
    step .dropRawCapacity
    return turn
  | .shutdown =>
    closeSocket
    step .dropRawCapacity
    return .leave
  | .received _ none =>
    step (.call .markEvidenceGap)
    step .dropRawCapacity
    return .leave
  | .received (some (.ok message)) (some receipt) =>
    receive json generation outstandingPing receipt message
  | .received _ (some _) =>
    step .dropRawCapacity
    return .leave

/-- A turn of the frame loop. -/
def frameTurn (generation : ℕ) (outstandingPing : Bool) : ConnectionLoop Turn := do
  if ← step .borrowShutdown then
    closeSocket
    return .leave
  else
    match ← step .reserveSlot with
    | .shutdown closing => onShutdown closing outstandingPing
    | .heartbeat => heartbeat outstandingPing
    | .consumerClosed | .permit false =>
      step (.call .markConsumerClosed)
      return .leave
    | .permit true =>
      match ← step .reserveRawFrameCapacity with
      | .shutdown closing => onShutdown closing outstandingPing
      | .heartbeat => heartbeat outstandingPing
      | .capacity false =>
        step (.call .markEvidenceGap)
        return .leave
      | .capacity true => pollSocket json generation outstandingPing

/-- After the last turn. -/
def finish : ConnectionLoop (Option LoopPoint) := do
  step (.call .markDisconnected)
  return none

variable (config : AuthenticatedUserWsConfig)

/-- The next attempt, its delay, and the delay after it. -/
def reconnect (reconnectAttempt : ℕ) (reconnectDelay : Duration) :
    ConnectionLoop (Option LoopPoint) := do
  match nextReconnectAttempt reconnectAttempt with
  | none =>
    step (.call .markEvidenceGap)
    finish
  | some nextAttempt =>
    if reconnectExhausted config.maxReconnectAttempts nextAttempt then finish
    else if ← step (.waitOrShutdown reconnectDelay) then finish
    else
      match doubledDelay reconnectDelay config.maxReconnectDelay with
      | none =>
        step (.call .markEvidenceGap)
        finish
      | some nextDelay => return some (.connect nextAttempt nextDelay)

/-- The end of a turn over a socket. -/
def afterSocket (reconnectAttempt : ℕ) (reconnectDelay : Duration) :
    ConnectionLoop (Option LoopPoint) := do
  if ← step .borrowShutdown then finish else reconnect config reconnectAttempt reconnectDelay

/-- The two messages that open a connected socket. -/
def openSocket (generation reconnectAttempt : ℕ) (reconnectDelay : Duration) :
    ConnectionLoop (Option LoopPoint) := do
  match ← step .write with
  | .shutdown failed =>
    if failed then step (.call .markDisconnected)
    step (.call .markDisconnected)
    finish
  | .done false =>
    step (.call .markDisconnected)
    afterSocket config reconnectAttempt reconnectDelay
  | .done true =>
    step (.call (.markSubscriptionWritten generation))
    match ← step .write with
    | .done true => return some (.socket generation true)
    | .done false =>
      step (.call .markDisconnected)
      afterSocket config reconnectAttempt reconnectDelay
    | .shutdown failed =>
      if failed then step (.call .markDisconnected)
      step (.call .markDisconnected)
      afterSocket config reconnectAttempt reconnectDelay

def connectTurn (reconnectAttempt : ℕ) (reconnectDelay : Duration) :
    ConnectionLoop (Option LoopPoint) := do
  if ← step .borrowShutdown then finish
  else
    step (.call .markConnecting)
    match ← step .connect with
    | .shutdown failed =>
      if failed then step (.call .markDisconnected)
      finish
    | .done false =>
      if ← step .borrowShutdown then finish
      else
        step (.call .markDisconnected)
        reconnect config reconnectAttempt reconnectDelay
    | .done true =>
      match ← step .tryMarkConnected with
      | .error _ => finish
      | .ok generation => openSocket config generation reconnectAttempt reconnectDelay

/-- The turn that begins at a point. -/
def turn : LoopPoint → ConnectionLoop (Option LoopPoint)
  | .connect reconnectAttempt reconnectDelay => connectTurn config reconnectAttempt reconnectDelay
  | .socket generation outstandingPing => do
    match ← frameTurn json generation outstandingPing with
    | .again outstandingPing => return some (.socket generation outstandingPing)
    | .leave =>
      step (.call .markDisconnected)
      -- a socket that was opened has reset the attempts
      afterSocket config 0 config.initialReconnectDelay

end ConnectionLoop

/-! ## The cell and the task -/

/-- What happened: an action of the task with its answer, or a call of another party. -/
inductive Entry where
  | own (a : Σ e : ConnectionAct, e.Answer)
  | other (c : CellCall)

structure Connection where
  cell : StateCell
  /-- the raw capacity permits in the hands of the task -/
  held : ℕ := 0
  /-- oldest first -/
  trace : List Entry := []

namespace ConnectionAct

/-- The call of the cell that an action makes, and what it returns there. -/
def cellCall : (e : ConnectionAct) → e.Answer → Option (Op × Reply)
  | .call op, _ => some (op, .unit)
  | .tryMarkConnected, r => some (.tryMarkConnected, .connection r)
  | .reserveTransportSequences eventCount, r =>
    some (.reserveTransportSequences eventCount, .range r)
  | .reserveRawFrameSequence, r => some (.reserveRawFrameSequence, .sequence r)
  | .snapshot, state => some (.snapshot, .state state)
  | .retainRawFrame evidence, r => some (.retainRawFrame evidence, .bool r)
  | .reserveRawFrameCapacity, .capacity true => some (.reserveRawFrameCapacity, .bool true)
  | .dropRawCapacity, _ => some (.dropRawFrameCapacity, .unit)
  | _, _ => none

/-- The cell after an action. -/
def cellAfter (e : ConnectionAct) (r : e.Answer) (cell : StateCell) : StateCell :=
  match e.cellCall r with
  | some (op, _) => (⟨cell, op⟩ : CellCall).post
  | none => cell

theorem cellAfter_call {e : ConnectionAct} {r : e.Answer} {op : Op} {reply : Reply}
    {cell : StateCell} (h : e.cellCall r = some (op, reply)) :
    e.cellAfter r cell = (⟨cell, op⟩ : CellCall).post := by simp only [cellAfter, h]

theorem cellAfter_none {e : ConnectionAct} {r : e.Answer} {cell : StateCell}
    (h : e.cellCall r = none) : e.cellAfter r cell = cell := by simp only [cellAfter, h]

/-- The permits in the hands of the task after an action. -/
def holds : (e : ConnectionAct) → e.Answer → ℕ → ℕ
  | .reserveRawFrameCapacity, .capacity true, held => held + 1
  | .retainRawFrame _, _, held => held - 1
  | .dropRawCapacity, _, held => held - 1
  | _, _, held => held

end ConnectionAct

/-- The calls that only the connection task makes. -/
def Op.admits : Op → Bool
  | .tryMarkConnected | .reserveTransportSequences _ | .reserveRawFrameCapacity
  | .reserveRawFrameSequence | .retainRawFrame _ | .dropRawFrameCapacity => true
  | _ => false

namespace Connection

/-- The call that an operation is now. -/
def call (x : Connection) (op : Op) : CellCall := ⟨x.cell, op⟩

def after (x : Connection) (e : ConnectionAct) (r : e.Answer) : Connection where
  cell := e.cellAfter r x.cell
  held := e.holds r x.held
  trace := x.trace ++ [.own ⟨e, r⟩]

/-- A call of another party. -/
inductive Bystander : Connection → Connection → Prop
  | call {x : Connection} {op : Op} (h : op.admits = false) :
      Bystander x { x with cell := (x.call op).post, trace := x.trace ++ [.other (x.call op)] }

end Connection

/-- A call of the cell answers as the cell does. -/
def connectionWorld : World ConnectionAct ConnectionAct.Answer Connection Unit where
  does _ e x r x' :=
    (∀ op reply, e.cellCall r = some (op, reply) → (x.call op).out = reply) ∧ x' = x.after e r
  crash _ _ _ := False

/-- The task as far as it came, with what is left of its turn. -/
def ConnectionRun (json : List UInt8 → Option FrameValue) (config : AuthenticatedUserWsConfig)
    (credentialIdentity : AuthenticatedCredentialIdentity)
    (task : ConnectionLoop (Option LoopPoint)) (x : Connection) : Prop :=
  Relation.ReflTransGen
    (connectionWorld.Looping () Connection.Bystander (ConnectionLoop.turn json config))
    (.ret (some (.connect 0 config.initialReconnectDelay)),
      { cell := .newWithIdentity credentialIdentity })
    (task, x)

end Rspm
