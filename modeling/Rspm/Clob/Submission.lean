/-
  The submission controller: revocation, activation and attempts.

  Every method is a program over the atomic steps of the source: a lock or an
  unlock of the mutex of `active`, a load or a store of an atomic, a guard of
  the fence, the call of the caller's predicate, the first poll of a transport.
  A step that completes something leaves an event in `log`.

  Handles and leases are borrowed while their methods run; the steps
  `borrowLease` and `returnLease` are that borrow.
-/
import Rspm.Clob.Gate
import Rspm.Lib.Prog

namespace Rspm

structure ActiveSubmissionAuthority where
  revocationEpoch : ℕ
  protocolAuthority : AuthenticatedProtocolAuthority
deriving DecidableEq

/-- One build-sign-POST capability; `id` names the read guard that it retains. -/
structure SubmissionAttemptAuthority where
  id : ℕ
  binding : ℕ
  revocationEpoch : ℕ
  protocolAuthority : AuthenticatedProtocolAuthority
deriving DecidableEq

/-- What a step completed. -/
inductive SubmissionEvent where
  /-- a revocation that found the epoch `epoch` -/
  | revoked (epoch : ℕ)
  | activated (active : ActiveSubmissionAuthority)
  | minted (attempt : SubmissionAttemptAuthority)
  /-- an attempt was found valid under the lock -/
  | validated (attempt : SubmissionAttemptAuthority)
  /-- the transport of an attempt received its first poll -/
  | polled (attempt : SubmissionAttemptAuthority)
  | dropped (id : ℕ)
deriving DecidableEq

/-- The holders of read guards of the fence. -/
inductive FenceReader where
  | task (task : ℕ)
  | attempt (id : ℕ)
deriving DecidableEq

structure SubmissionControllerState where
  revocationEpoch : ℕ := 0
  poisoned : Bool := false
  active : Option ActiveSubmissionAuthority := none
  /-- the task that holds the mutex of `active` -/
  lockedBy : Option ℕ := none
  lockPoisoned : Bool := false
  fenceReaders : Finset FenceReader := ∅
  /-- an activation lease holds the write guard -/
  leased : Bool := false
  leaseUsers : Finset ℕ := ∅
  /-- every controller handle was dropped -/
  released : Bool := false
  nextAttempt : ℕ := 0
  log : List SubmissionEvent := []

inductive TransportPoll where
  | ready | pending | panicked
deriving DecidableEq

/-- The atomic steps. -/
inductive SubmissionAct where
  | lock
  | unlock (done : Option SubmissionEvent)
  | readActive
  | writeActive (active : Option ActiveSubmissionAuthority)
  | loadPoisoned
  | storePoisoned
  | loadEpoch
  | tryUpdateEpoch
  | readFence
  | dropFence
  | writeFence
  | dropLease
  | borrowLease
  | returnLease
  /-- the caller's predicate, `none` when it panics -/
  | authorize
  /-- the lock is dropped, and the read guard of the task moves into a new attempt -/
  | mint (binding revocationEpoch : ℕ) (protocolAuthority : AuthenticatedProtocolAuthority)
  | upgrade
  | pollTransport (attempt : SubmissionAttemptAuthority)
  | dropAttempt (id : ℕ)
  | dropControllers

abbrev SubmissionAct.Answer : SubmissionAct → Type
  | .lock | .loadPoisoned | .upgrade => Bool
  | .readActive => Option ActiveSubmissionAuthority
  | .loadEpoch => ℕ
  | .tryUpdateEpoch => Except ℕ ℕ
  | .authorize => Option Bool
  | .pollTransport _ => TransportPoll
  | _ => Unit

abbrev Submission := Prog SubmissionAct SubmissionAct.Answer

namespace Submission

/-- One atomic step. -/
abbrev step (e : SubmissionAct) : Submission e.Answer := .perform e

/-! ## The controller -/

/-- `lock_active`, with `true` for a guard that is still held. -/
def lockActive : Submission Bool := do
  if ← step .lock then
    step (.writeActive none)
    step .storePoisoned
    step (.unlock none)
    return false
  else if ← step .loadPoisoned then
    step (.writeActive none)
    step (.unlock none)
    return false
  else return true

def poisonAndClearActive : Submission Unit := do
  step .storePoisoned
  let _ ← step .lock
  step (.writeActive none)
  step (.unlock none)

/-- The rest of `request_revocation` once the lock is held. -/
def publishRevocation : Submission Unit := do
  match ← step .tryUpdateEpoch with
  | .ok epoch =>
    step (.writeActive none)
    step (.unlock (some (.revoked epoch)))
  | .error epoch =>
    step .storePoisoned
    step (.writeActive none)
    step (.unlock (some (.revoked epoch)))

def requestRevocation : Submission Unit := do
  if ← step .lock then
    step .storePoisoned
    publishRevocation
  else publishRevocation

/-- `acquire_exclusive`: it waits until every read guard is dropped. -/
def acquireExclusive : Submission Unit := step .writeFence

/-- The refusal of `authorize_if`: it revokes, and drops its read guard. -/
def refuseAttempt : Submission Unit := do
  step (.unlock none)
  requestRevocation
  step .dropFence

def authorizeIf (binding : ℕ) (expectedProtocolAuthority : AuthenticatedProtocolAuthority) :
    Submission Unit := do
  step .readFence
  match ← step .authorize with
  | none =>
    -- the panic goes on after this, and unwinding drops the read guard
    poisonAndClearActive
    step .dropFence
  | some authorized =>
    if ← lockActive then
      let revocationEpoch ← step .loadEpoch
      if !authorized then refuseAttempt
      else if ← step .loadPoisoned then refuseAttempt
      else
        let active ← step .readActive
        if active ≠ some ⟨revocationEpoch, expectedProtocolAuthority⟩ then refuseAttempt
        else step (.mint binding revocationEpoch expectedProtocolAuthority)
    else step .dropFence

/-! ## The activation lease -/

/-- `activate` finds a reason to refuse while it holds the lock. -/
def refuseActivation : Submission Bool := do
  step (.unlock none)
  step .returnLease
  return false

def activate (expectedRevocationEpoch : ℕ)
    (protocolAuthority : AuthenticatedProtocolAuthority) : Submission Bool := do
  step .borrowLease
  if ← step .loadPoisoned then
    step .returnLease
    return false
  else if (← step .loadEpoch) ≠ expectedRevocationEpoch then
    step .returnLease
    return false
  else if ← lockActive then
    if ← step .loadPoisoned then refuseActivation
    else if (← step .readActive).isSome then refuseActivation
    else if (← step .loadEpoch) ≠ expectedRevocationEpoch then refuseActivation
    else
      let active : ActiveSubmissionAuthority := ⟨expectedRevocationEpoch, protocolAuthority⟩
      step (.writeActive (some active))
      step (.unlock (some (.activated active)))
      step .returnLease
      return true
  else
    step .returnLease
    return false

/-! ## Attempts -/

/-- The checks that `revalidate` and `poll_first_transport` share: `true` leaves the lock held
    with the attempt valid. -/
def lockValid (attempt : SubmissionAttemptAuthority) (expectedBinding : ℕ)
    (expectedProtocolAuthority : AuthenticatedProtocolAuthority) : Submission Bool := do
  if attempt.binding ≠ expectedBinding ∨
      attempt.protocolAuthority ≠ expectedProtocolAuthority then return false
  else if ← step .upgrade then
    if ← lockActive then
      if ← step .loadPoisoned then
        step (.unlock none)
        return false
      else if (← step .loadEpoch) ≠ attempt.revocationEpoch then
        step (.unlock none)
        return false
      else if (← step .readActive) ≠
          some ⟨attempt.revocationEpoch, attempt.protocolAuthority⟩ then
        step (.unlock none)
        return false
      else return true
    else return false
  else return false

def revalidate (attempt : SubmissionAttemptAuthority) (expectedBinding : ℕ)
    (expectedProtocolAuthority : AuthenticatedProtocolAuthority) : Submission Bool := do
  if ← lockValid attempt expectedBinding expectedProtocolAuthority then
    step (.unlock (some (.validated attempt)))
    return true
  else return false

/-- `none` is the refusal; a panic of the poll goes on after this. -/
def pollFirstTransport (attempt : SubmissionAttemptAuthority) (expectedBinding : ℕ)
    (expectedProtocolAuthority : AuthenticatedProtocolAuthority) :
    Submission (Option TransportPoll) := do
  if ← lockValid attempt expectedBinding expectedProtocolAuthority then
    match ← step (.pollTransport attempt) with
    | .panicked =>
      step (.writeActive none)
      step .storePoisoned
      step (.unlock none)
      return some .panicked
    | result =>
      step (.unlock none)
      return some result
  else return none

end Submission

/-! ## Callers -/

/-- What a task may call; an attempt is any value, minted or not. -/
inductive SubmissionCall where
  | requestRevocation
  | acquireExclusive
  | dropLease
  | activate (expectedRevocationEpoch : ℕ) (protocolAuthority : AuthenticatedProtocolAuthority)
  | authorizeIf (binding : ℕ) (expectedProtocolAuthority : AuthenticatedProtocolAuthority)
  | revalidate (attempt : SubmissionAttemptAuthority) (expectedBinding : ℕ)
      (expectedProtocolAuthority : AuthenticatedProtocolAuthority)
  | pollFirstTransport (attempt : SubmissionAttemptAuthority) (expectedBinding : ℕ)
      (expectedProtocolAuthority : AuthenticatedProtocolAuthority)
  | dropAttempt (id : ℕ)
  | dropControllers

def SubmissionCall.body : SubmissionCall → Submission Unit
  | .requestRevocation => Submission.requestRevocation
  | .acquireExclusive => Submission.acquireExclusive
  | .dropLease => Submission.step .dropLease
  | .activate epoch authority => do let _ ← Submission.activate epoch authority
  | .authorizeIf binding authority => Submission.authorizeIf binding authority
  | .revalidate attempt binding authority => do
    let _ ← Submission.revalidate attempt binding authority
  | .pollFirstTransport attempt binding authority => do
    let _ ← Submission.pollFirstTransport attempt binding authority
  | .dropAttempt id => Submission.step (.dropAttempt id)
  | .dropControllers => Submission.step .dropControllers

namespace SubmissionControllerState

variable (t : ℕ)

/-- What a step of task `t` does to the controller. -/
def does : (e : SubmissionAct) → SubmissionControllerState → e.Answer →
    SubmissionControllerState → Prop
  | .lock, s, r, s' =>
    s.lockedBy = none ∧ r = s.lockPoisoned ∧ s' = { s with lockedBy := some t }
  | .unlock done, s, _, s' => s' = { s with lockedBy := none, log := s.log ++ done.toList }
  | .readActive, s, r, s' => r = s.active ∧ s' = s
  | .writeActive active, s, _, s' => s' = { s with active }
  | .loadPoisoned, s, r, s' => r = s.poisoned ∧ s' = s
  | .storePoisoned, s, _, s' => s' = { s with poisoned := true }
  | .loadEpoch, s, r, s' => r = s.revocationEpoch ∧ s' = s
  | .tryUpdateEpoch, s, r, s' =>
    match checkedAdd s.revocationEpoch 1 with
    | some next => r = .ok s.revocationEpoch ∧ s' = { s with revocationEpoch := next }
    | none => r = .error s.revocationEpoch ∧ s' = s
  | .readFence, s, _, s' =>
    s.leased = false ∧ s' = { s with fenceReaders := insert (.task t) s.fenceReaders }
  | .dropFence, s, _, s' => s' = { s with fenceReaders := s.fenceReaders.erase (.task t) }
  | .writeFence, s, _, s' =>
    s.leased = false ∧ s.fenceReaders = ∅ ∧ s' = { s with leased := true }
  | .dropLease, s, _, s' =>
    s.leased = true ∧ s.leaseUsers = ∅ ∧ s' = { s with leased := false }
  | .borrowLease, s, _, s' =>
    s.leased = true ∧ s' = { s with leaseUsers := insert t s.leaseUsers }
  | .returnLease, s, _, s' => s' = { s with leaseUsers := s.leaseUsers.erase t }
  | .authorize, s, _, s' => s' = s
  | .mint binding revocationEpoch protocolAuthority, s, _, s' =>
    s' = { s with
      lockedBy := none
      fenceReaders := insert (.attempt s.nextAttempt) (s.fenceReaders.erase (.task t))
      nextAttempt := s.nextAttempt + 1
      log := s.log ++ [.minted ⟨s.nextAttempt, binding, revocationEpoch, protocolAuthority⟩] }
  | .upgrade, s, r, s' => (r = false → s.released = true) ∧ s' = s
  | .pollTransport attempt, s, _, s' => s' = { s with log := s.log ++ [.polled attempt] }
  | .dropAttempt id, s, _, s' =>
    .attempt id ∈ s.fenceReaders ∧ s' = { s with
      fenceReaders := s.fenceReaders.erase (.attempt id)
      log := s.log ++ [.dropped id] }
  | .dropControllers, s, _, s' => s' = { s with released := true }

/-- The holder of the mutex panics: the mutex is poisoned, and unwinding drops its guards. -/
def crash (s s' : SubmissionControllerState) : Prop :=
  s.lockedBy = some t ∧ s' = { s with
    lockedBy := none
    lockPoisoned := true
    fenceReaders := s.fenceReaders.erase (.task t)
    leaseUsers := s.leaseUsers.erase t }

end SubmissionControllerState

/-- Any number of tasks around one controller. -/
def submissionWorld : World SubmissionAct SubmissionAct.Answer SubmissionControllerState ℕ :=
  ⟨SubmissionControllerState.does, SubmissionControllerState.crash⟩

/-- What they reach from a new controller; its epoch may have been advanced before. -/
def SubmissionReachable (revocationEpoch : ℕ) :
    World.Config SubmissionAct SubmissionAct.Answer SubmissionControllerState ℕ → Prop :=
  submissionWorld.Reachable SubmissionCall.body { revocationEpoch }

/-! ## A sample attempt -/

def sampleProtocolAuthority : AuthenticatedProtocolAuthority := ⟨.v2, {}, 1, Nat.one_ne_zero⟩

def sampleAttempt : SubmissionAttemptAuthority := ⟨0, 0, 0, sampleProtocolAuthority⟩

end Rspm
