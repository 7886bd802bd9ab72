/-
  The retirement of session tasks, for any number of sessions of one process.

  Each session has a task (`retirement_custodian`), whose handle and capacity
  permit stand in the session until a call takes them: `shutdown`, `drain`, or
  the drop of the session.  A call that does not join the task hands both to the
  process custodian, whose thread joins one task after the other, or to the
  ledger of failed retirements, which `drain_retirements` reaps.

  `Frame` is where a call stands, with what it owns.  A future that is dropped
  drops its guard, which goes on as a transfer.  The marks of a session's state
  cell go with the step beside them, and are kept in the log.
-/
import Rspm.Ws.Calls

namespace Rspm

def maxProcessRetirements : ℕ := 64

def usizeMax : ℕ := 2 ^ 64 - 1

inductive RetirementState where
  | active | requested | retainedByProcessCustodian | terminalGraceful | terminalCancelled
deriving DecidableEq

def RetirementState.isTerminal : RetirementState → Bool
  | .terminalGraceful | .terminalCancelled => true
  | _ => false

/-- What the join of a task returns. -/
inductive JoinResult where
  | ok | cancelled | panicked
deriving DecidableEq

/-- Where the task of a session stands. -/
inductive TaskPhase where
  | unspawned
  /-- awaits the connection, or the shutdown -/
  | connected
  | shutdownSeen
  /-- awaits the connection, or the end of the grace -/
  | grace
  /-- the disposition is to be published -/
  | disposed (disposition : RetirementState)
  | published (disposition : RetirementState)
  | ended (result : JoinResult)
deriving DecidableEq

structure AuthenticatedUserWsInner where
  phase : TaskPhase := .unspawned
  /-- the value of `retirement_state_tx` -/
  retirementState : RetirementState := .active
  /-- the value of `shutdown_tx` -/
  shutdown : Bool := false
  /-- the mutex `task` holds the handle -/
  task : Bool := false
  /-- the mutex `retirement_slot` holds the permit -/
  retirementSlot : Bool := false

/-! ## The calls -/

inductive CallKind where
  | shutdown | drain
  /-- the last owner of the session drops it -/
  | drop
deriving DecidableEq

/-- Where `transfer_to_known_custodian` stands. -/
inductive TransferPoint where
  | checkTransfers | incrementTransfers | checkRetained | incrementRetained
  /-- an increment failed, and poisons the counters -/
  | poison
  | publish | send
  /-- the send failed -/
  | decrementRetained
deriving DecidableEq

/-- Where `retain_failed_retirement` stands. -/
inductive FailedPoint where
  | abort | publish | push
deriving DecidableEq

/-- The half of a drain that awaits the process custodian. -/
inductive ProcessDrain where
  | start
  | awaiting (barrier : ℕ)
  | loadRetained | loadPoisoned
  | done (drained : Bool)
deriving DecidableEq

/-- The half of a drain that reaps the failed ledger: `scanning` holds its lock. -/
inductive FailedDrain where
  | lock
  | scanning (index : ℕ)
  | loadPoisoned | loadDrainFailed
  | done (drained : Bool)
deriving DecidableEq

inductive RetirementEvent where
  | joined (s : ℕ)
  /-- the capacity permit is back -/
  | released (s : ℕ)
  /-- `retained` was incremented by a transfer -/
  | incremented (s : ℕ)
  | decremented (s : ℕ)
  /-- a decrement of `retained` found zero -/
  | underflowed (s : ℕ)
  /-- the task has published its disposition -/
  | published (s : ℕ) (disposition : RetirementState)
  /-- `RetainedByProcessCustodian` was published -/
  | retained (s : ℕ)
  | aborted (s : ℕ)
  /-- the ledger reaped the task, and published `TerminalCancelled` -/
  | reaped (s : ℕ)
  /-- a call of the session's state cell -/
  | cell (s : ℕ) (op : Op)
  /-- the transfer has returned -/
  | transferred (s : ℕ)
  | drainCalled (t : ℕ)
  | drainReturned (t : ℕ) (drained : Bool)

/-- Where a call stands.  The flag `slot` says that the capacity permit goes with the handle. -/
inductive Frame where
  | idle
  | requestShutdown (kind : CallKind) (s : ℕ)
  | takeTask (kind : CallKind) (s : ℕ)
  | takeSlot (kind : CallKind) (s : ℕ)
  | joining (kind : CallKind) (s : ℕ) (slot : Bool)
  /-- the task was joined with an error -/
  | joinFailed (s : ℕ) (slot : Bool)
  /-- `complete` of the guard -/
  | complete (s : ℕ) (slot : Bool)
  /-- another call has the handle -/
  | waitTerminal (s : ℕ)
  | transfer (s : ℕ) (slot : Bool)
  | known (point : TransferPoint) (s : ℕ)
  | failed (point : FailedPoint) (s : ℕ) (slot : Bool)
  /-- `drain_authenticated_user_ws_retirements`, with the log at its call -/
  | draining (since : List RetirementEvent) (process : ProcessDrain) (failed : FailedDrain)

/-! ## The process -/

inductive ProcessRetirementCommand where
  | retain (s : ℕ)
  | barrier (id : ℕ)
deriving DecidableEq

structure FailedRetirement where
  s : ℕ
  slot : Bool
deriving DecidableEq

/-- The `OnceLock` of the process custodian.  A `disconnected` one has no receiver. -/
inductive CustodianCell where
  | uninit | unavailable | started | disconnected
deriving DecidableEq

/-- Where the thread of the process custodian stands. -/
inductive ThreadState where
  | receiving
  | joining (s : ℕ)
  | joined (s : ℕ) (result : JoinResult)
  /-- `TerminalCancelled` is to be published -/
  | cancelling (s : ℕ)
  | decrementing (s : ℕ)
  | releasing (s : ℕ)
deriving DecidableEq

structure Retirement where
  session : ℕ → AuthenticatedUserWsInner := fun _ => {}
  frame : ℕ → Frame := fun _ => .idle
  custodian : CustodianCell := .uninit
  queue : List ProcessRetirementCommand := []
  thread : ThreadState := .receiving
  retained : ℕ := 0
  transfers : ℕ := 0
  poisoned : Bool := false
  /-- the permits that are available -/
  slots : ℕ := maxProcessRetirements
  nextBarrier : ℕ := 0
  completions : Finset ℕ := ∅
  ledger : List FailedRetirement := []
  ledgerLock : Option ℕ := none
  ledgerPoisoned : Bool := false
  drainFailed : Bool := false
  log : List RetirementEvent := []

namespace Retirement

def goto (r : Retirement) (t : ℕ) (frame : Frame) : Retirement :=
  { r with frame := Function.update r.frame t frame }

def modify (r : Retirement) (s : ℕ)
    (f : AuthenticatedUserWsInner → AuthenticatedUserWsInner) : Retirement :=
  { r with session := Function.update r.session s (f (r.session s)) }

/-- `send_replace` of the session's retirement state. -/
def publish (r : Retirement) (s : ℕ) (state : RetirementState) : Retirement :=
  r.modify s fun session => { session with retirementState := state }

def enter (r : Retirement) (s : ℕ) (phase : TaskPhase) : Retirement :=
  r.modify s fun session => { session with phase }

def happened (r : Retirement) (events : List RetirementEvent) : Retirement :=
  { r with log := r.log ++ events }

/-- The guard drops the permit, if it has one. -/
def release (r : Retirement) (s : ℕ) (slot : Bool) : Retirement :=
  if slot then { r with slots := r.slots + 1 }.happened [.released s] else r

/-- Marks of a session whose evidence is lost. -/
def lost (r : Retirement) (s : ℕ) : Retirement :=
  r.happened [.cell s .markEvidenceGap, .cell s .markDisconnected]

/-- `poison_failed_retirements`, if the mutex of the ledger was poisoned. -/
def lockLedger (r : Retirement) (mutexPoisoned : Bool) : Retirement :=
  { r with
    ledgerPoisoned := r.ledgerPoisoned || mutexPoisoned
    poisoned := r.poisoned || mutexPoisoned &&
      (r.custodian = .started || r.custodian = .disconnected) }

end Retirement

/-- `swap_remove`. -/
def swapRemove {α : Type} (l : List α) (index : ℕ) : List α :=
  match l.getLast? with
  | none => l
  | some last => (l.set index last).dropLast

/-! ## Steps -/

/-- A session begins, or its task moves. -/
inductive TaskStep (s : ℕ) (r : Retirement) : Retirement → Prop where
  | connect (h : (r.session s).phase = .unspawned) (hslots : 0 < r.slots) :
    TaskStep s r ({ r with slots := r.slots - 1 }.modify s fun session =>
      { session with phase := .connected, task := true, retirementSlot := true })
  | connectionDone (h : (r.session s).phase = .connected) :
    TaskStep s r (r.enter s (.disposed .terminalGraceful))
  | shutdownSeen (h : (r.session s).phase = .connected) (hshutdown : (r.session s).shutdown) :
    TaskStep s r (r.enter s .shutdownSeen)
  | requested (h : (r.session s).phase = .shutdownSeen) :
    TaskStep s r (((r.publish s .requested).enter s .grace).happened [.cell s .markDisconnected])
  | graceDone (h : (r.session s).phase = .grace) :
    TaskStep s r ((r.enter s (.disposed .terminalGraceful)).happened [.cell s .markDisconnected])
  | graceTimeout (h : (r.session s).phase = .grace) :
    TaskStep s r ((r.enter s (.disposed .terminalCancelled)).lost s)
  | publish {disposition : RetirementState} (h : (r.session s).phase = .disposed disposition) :
    TaskStep s r (((r.publish s disposition).enter s (.published disposition)).happened
      [.published s disposition])
  | returns {disposition : RetirementState} (h : (r.session s).phase = .published disposition) :
    TaskStep s r (r.enter s (.ended .ok))
  /-- the runtime cancels a task at an await, be it aborted or not; a connection may panic -/
  | stopped {result : JoinResult}
    (h : (r.session s).phase = .connected ∨ (r.session s).phase = .grace) (hr : result ≠ .ok) :
    TaskStep s r (r.enter s (.ended result))

/-- A call of a session moves, up to its transfer. -/
inductive CallStep (t : ℕ) (r : Retirement) : Retirement → Prop where
  | call (kind : CallKind) (s : ℕ) (h : r.frame t = .idle)
    (hs : (r.session s).phase ≠ .unspawned) : CallStep t r (r.goto t (.requestShutdown kind s))
  | requestShutdown {kind : CallKind} {s : ℕ} (h : r.frame t = .requestShutdown kind s) :
    CallStep t r (((r.modify s fun session => { session with shutdown := true }).goto t
      (.takeTask kind s)).happened [.cell s .markDisconnected])
  | takeTask {kind : CallKind} {s : ℕ} (h : r.frame t = .takeTask kind s)
    (htask : (r.session s).task) :
    CallStep t r ((r.modify s fun session => { session with task := false }).goto t
      (.takeSlot kind s))
  | taskTaken {kind : CallKind} {s : ℕ} (h : r.frame t = .takeTask kind s)
    (htask : (r.session s).task = false) :
    CallStep t r (r.goto t (if kind = .drop then .idle else .waitTerminal s))
  | takeSlot {kind : CallKind} {s : ℕ} (h : r.frame t = .takeSlot kind s) :
    CallStep t r ((r.modify s fun session => { session with retirementSlot := false }).goto t
      (if kind = .drop then .transfer s (r.session s).retirementSlot
        else .joining kind s (r.session s).retirementSlot))
  /-- the state is terminal, or the call times out or is dropped -/
  | waited {s : ℕ} (h : r.frame t = .waitTerminal s) : CallStep t r (r.goto t .idle)
  | joined {kind : CallKind} {s : ℕ} {slot : Bool} {result : JoinResult}
    (h : r.frame t = .joining kind s slot) (hended : (r.session s).phase = .ended result) :
    CallStep t r ((r.goto t
      (if result = .ok then .complete s slot else .joinFailed s slot)).happened [.joined s])
  /-- the shutdown times out, or the future is dropped -/
  | dropGuard {kind : CallKind} {s : ℕ} {slot : Bool} (h : r.frame t = .joining kind s slot) :
    CallStep t r (r.goto t (.transfer s slot))
  | joinFailed {s : ℕ} {slot : Bool} (h : r.frame t = .joinFailed s slot) :
    CallStep t r (((r.publish s .terminalCancelled).goto t (.complete s slot)).happened
      [.cell s .markEvidenceGap])
  | complete {s : ℕ} {slot : Bool} (h : r.frame t = .complete s slot) :
    CallStep t r ((r.goto t .idle).release s slot)

/-- A transfer moves: `transfer_to_process_custodian`, `transfer_to_known_custodian` and
    `retain_failed_retirement`. -/
inductive TransferStep (t : ℕ) (r : Retirement) : Retirement → Prop where
  /-- `get_or_init` -/
  | init {cell : CustodianCell} (h : r.custodian = .uninit) (hcell : cell ≠ .uninit) :
    TransferStep t r { r with custodian := cell }
  | known {s : ℕ} (h : r.frame t = .transfer s true)
    (hcustodian : r.custodian = .started ∨ r.custodian = .disconnected) :
    TransferStep t r (r.goto t (.known .checkTransfers s))
  | unknown {s : ℕ} {slot : Bool} (h : r.frame t = .transfer s slot)
    (hcustodian : r.custodian = .unavailable ∨ r.custodian ≠ .uninit ∧ slot = false) :
    TransferStep t r (r.goto t (.failed .abort s slot))
  | checkTransfers {s : ℕ} (h : r.frame t = .known .checkTransfers s) :
    TransferStep t r (r.goto t
      (if r.poisoned then .failed .abort s true else .known .incrementTransfers s))
  | incrementTransfers {s : ℕ} (h : r.frame t = .known .incrementTransfers s)
    (hlt : r.transfers < usizeMax) :
    TransferStep t r ({ r with transfers := r.transfers + 1 }.goto t (.known .checkRetained s))
  | overflowTransfers {s : ℕ} (h : r.frame t = .known .incrementTransfers s)
    (hge : usizeMax ≤ r.transfers) : TransferStep t r (r.goto t (.known .poison s))
  | checkRetained {s : ℕ} (h : r.frame t = .known .checkRetained s) :
    TransferStep t r (r.goto t
      (if r.poisoned then .failed .abort s true else .known .incrementRetained s))
  | incrementRetained {s : ℕ} (h : r.frame t = .known .incrementRetained s)
    (hlt : r.retained < usizeMax) :
    TransferStep t r (({ r with retained := r.retained + 1 }.goto t (.known .publish s)).happened
      [.incremented s])
  | overflowRetained {s : ℕ} (h : r.frame t = .known .incrementRetained s)
    (hge : usizeMax ≤ r.retained) : TransferStep t r (r.goto t (.known .poison s))
  | poison {s : ℕ} (h : r.frame t = .known .poison s) :
    TransferStep t r ({ r with poisoned := true }.goto t (.failed .abort s true))
  | publish {s : ℕ} (h : r.frame t = .known .publish s) :
    TransferStep t r (((r.publish s .retainedByProcessCustodian).goto t (.known .send s)).happened
      [.retained s])
  | send {s : ℕ} (h : r.frame t = .known .send s) (hcustodian : r.custodian = .started)
    (hroom : r.queue.length < maxProcessRetirements) :
    TransferStep t r (({ r with
      queue := r.queue ++ [ProcessRetirementCommand.retain s] }.goto t .idle).happened
        [.transferred s])
  /-- the queue is full, or disconnected -/
  | refused {s : ℕ} (h : r.frame t = .known .send s)
    (hfull : r.custodian = .disconnected ∨ maxProcessRetirements ≤ r.queue.length) :
    TransferStep t r (r.goto t (.known .decrementRetained s))
  | decrementRetained {s : ℕ} (h : r.frame t = .known .decrementRetained s)
    (hpos : 0 < r.retained) :
    TransferStep t r (({ r with retained := r.retained - 1 }.goto t
      (.failed .abort s true)).happened [.decremented s])
  | underflowRetained {s : ℕ} (h : r.frame t = .known .decrementRetained s)
    (hzero : r.retained = 0) :
    TransferStep t r (({ r with poisoned := true }.goto t (.failed .abort s true)).happened
      [.underflowed s])
  | abort {s : ℕ} {slot : Bool} (h : r.frame t = .failed .abort s slot) :
    TransferStep t r (((r.goto t (.failed .publish s slot)).happened [.aborted s]).lost s)
  | publishFailed {s : ℕ} {slot : Bool} (h : r.frame t = .failed .publish s slot) :
    TransferStep t r (((r.publish s .retainedByProcessCustodian).goto t
      (.failed .push s slot)).happened [.retained s])
  /-- under the lock of the ledger; a mutex that was poisoned poisons the process -/
  | push {s : ℕ} {slot : Bool} (mutexPoisoned : Bool) (h : r.frame t = .failed .push s slot)
    (hlock : r.ledgerLock = none) :
    TransferStep t r ((({ r with ledger := r.ledger ++ [FailedRetirement.mk s slot] }.lockLedger
      mutexPoisoned).goto t .idle).happened [.transferred s])

/-- The thread of the process custodian moves. -/
inductive ThreadStep (r : Retirement) : Retirement → Prop where
  | receive {s : ℕ} {queue : List ProcessRetirementCommand} (h : r.thread = .receiving)
    (hstarted : r.custodian = .started) (hqueue : r.queue = .retain s :: queue) :
    ThreadStep r { r with queue, thread := .joining s }
  | barrier {id : ℕ} {queue : List ProcessRetirementCommand} (h : r.thread = .receiving)
    (hstarted : r.custodian = .started) (hqueue : r.queue = .barrier id :: queue) :
    ThreadStep r { r with queue, completions := insert id r.completions }
  | join {s : ℕ} {result : JoinResult} (h : r.thread = .joining s)
    (hended : (r.session s).phase = .ended result) :
    ThreadStep r ({ r with thread := .joined s result }.happened [.joined s])
  | check {s : ℕ} {result : JoinResult} (h : r.thread = .joined s result) :
    ThreadStep r { r with
      thread := if result ≠ .ok ∨ (r.session s).retirementState.isTerminal = false
        then .cancelling s else .decrementing s }
  | cancel {s : ℕ} (h : r.thread = .cancelling s) :
    ThreadStep r (({ r with thread := .decrementing s }.publish s .terminalCancelled).lost s)
  | decrement {s : ℕ} (h : r.thread = .decrementing s) (hpos : 0 < r.retained) :
    ThreadStep r ({ r with thread := .releasing s, retained := r.retained - 1 }.happened
      [.decremented s])
  | underflow {s : ℕ} (h : r.thread = .decrementing s) (hzero : r.retained = 0) :
    ThreadStep r ({ r with thread := .releasing s, poisoned := true }.happened
      [.underflowed s, .cell s .markEvidenceGap])
  | release {s : ℕ} (h : r.thread = .releasing s) :
    ThreadStep r ({ r with thread := .receiving }.release s true)

/-- A drain of the process moves. -/
inductive DrainStep (t : ℕ) (r : Retirement) : Retirement → Prop where
  | call (h : r.frame t = .idle) :
    DrainStep t r ((r.goto t (.draining r.log .start .lock)).happened [.drainCalled t])
  | noCustodian {since : List RetirementEvent} {failed : FailedDrain}
    (h : r.frame t = .draining since .start failed) (hcustodian : r.custodian = .uninit) :
    DrainStep t r (r.goto t (.draining since (.done true) failed))
  | sendBarrier {since : List RetirementEvent} {failed : FailedDrain}
    (h : r.frame t = .draining since .start failed) (hcustodian : r.custodian = .started)
    (hroom : r.queue.length < maxProcessRetirements) :
    DrainStep t r ({ r with
      queue := r.queue ++ [ProcessRetirementCommand.barrier r.nextBarrier]
      nextBarrier := r.nextBarrier + 1 }.goto t (.draining since (.awaiting r.nextBarrier) failed))
  | refused {since : List RetirementEvent} {failed : FailedDrain}
    (h : r.frame t = .draining since .start failed)
    (hfull : r.custodian = .unavailable ∨ r.custodian = .disconnected ∨
      maxProcessRetirements ≤ r.queue.length) :
    DrainStep t r (r.goto t (.draining since (.done false) failed))
  | completed {since : List RetirementEvent} {failed : FailedDrain} {id : ℕ}
    (h : r.frame t = .draining since (.awaiting id) failed) (hid : id ∈ r.completions) :
    DrainStep t r (r.goto t (.draining since .loadRetained failed))
  | loadRetained {since : List RetirementEvent} {failed : FailedDrain}
    (h : r.frame t = .draining since .loadRetained failed) :
    DrainStep t r (r.goto t (.draining since
      (if r.retained = 0 then .loadPoisoned else .done false) failed))
  | loadPoisoned {since : List RetirementEvent} {failed : FailedDrain}
    (h : r.frame t = .draining since .loadPoisoned failed) :
    DrainStep t r (r.goto t (.draining since (.done !r.poisoned) failed))
  | lock {since : List RetirementEvent} {process : ProcessDrain} (mutexPoisoned : Bool)
    (h : r.frame t = .draining since process .lock) (hlock : r.ledgerLock = none) :
    DrainStep t r (({ r with ledgerLock := some t }.lockLedger mutexPoisoned).goto t
      (.draining since process (.scanning 0)))
  /-- a poll may find a task that has ended not ready yet -/
  | notReady {since : List RetirementEvent} {process : ProcessDrain} {index : ℕ}
    (h : r.frame t = .draining since process (.scanning index)) (hlt : index < r.ledger.length) :
    DrainStep t r (r.goto t (.draining since process (.scanning (index + 1))))
  | reap {since : List RetirementEvent} {process : ProcessDrain} {index : ℕ}
    {entry : FailedRetirement} {result : JoinResult}
    (h : r.frame t = .draining since process (.scanning index))
    (hentry : r.ledger[index]? = some entry)
    (hended : (r.session entry.s).phase = .ended result) :
    DrainStep t r ((({ r with
      ledger := swapRemove r.ledger index
      drainFailed := r.drainFailed || decide (result = JoinResult.panicked) }.publish entry.s
        .terminalCancelled).happened
          [.joined entry.s, .cell entry.s .markDisconnected, .reaped entry.s]).release entry.s
            entry.slot)
  | scanned {since : List RetirementEvent} {process : ProcessDrain} {index : ℕ}
    (h : r.frame t = .draining since process (.scanning index)) (hge : r.ledger.length ≤ index) :
    DrainStep t r ({ r with ledgerLock := none }.goto t
      (.draining since process (if r.ledger.length = 0 then .loadPoisoned else .lock)))
  | loadLedgerPoisoned {since : List RetirementEvent} {process : ProcessDrain}
    (h : r.frame t = .draining since process .loadPoisoned) :
    DrainStep t r (r.goto t (.draining since process
      (if r.ledgerPoisoned then .done false else .loadDrainFailed)))
  | loadDrainFailed {since : List RetirementEvent} {process : ProcessDrain}
    (h : r.frame t = .draining since process .loadDrainFailed) :
    DrainStep t r (r.goto t (.draining since process (.done !r.drainFailed)))
  | returns {since : List RetirementEvent} {process failed : Bool}
    (h : r.frame t = .draining since (.done process) (.done failed)) :
    DrainStep t r ((r.goto t .idle).happened [.drainReturned t (process && failed)])
  /-- the drain times out, or is dropped -/
  | dropped {since : List RetirementEvent} {process : ProcessDrain} {failed : FailedDrain}
    (h : r.frame t = .draining since process failed)
    (hfailed : ∀ index, failed ≠ .scanning index) :
    DrainStep t r ((r.goto t .idle).happened [.drainReturned t false])

/-- Any session, call or thread moves. -/
inductive Retirement.Step (r r' : Retirement) : Prop where
  | task (s : ℕ) (h : TaskStep s r r')
  | call (t : ℕ) (h : CallStep t r r')
  | transfer (t : ℕ) (h : TransferStep t r r')
  | thread (h : ThreadStep r r')
  | drain (t : ℕ) (h : DrainStep t r r')

def Retirement.Reachable (r : Retirement) : Prop := Relation.ReflTransGen Retirement.Step {} r

end Rspm
