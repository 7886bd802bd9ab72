/-
  The client: its gate, the protocol authority that is installed, and the calls
  that any number of tasks make of it.

  A refresh and an activation hold the refresh lock, a submission and a
  preparation hold the serial lock, and all but the refresh a read guard of the
  installed authority.  The installation takes the write lock for one action.
  Dropping a task releases what it holds, at any of its actions.

  What the network answers, and the closure of an activation, is arbitrary.
-/
import Rspm.Clob.Stance

namespace Rspm

/-- `try_from`. -/
def ProtocolVersion.tryFrom : ℕ → Option ProtocolVersion
  | 1 => some .v1
  | 2 => some .v2
  | _ => none

/-- Why a refresh or an activation fails. -/
inductive ProtocolAuthorityError where
  | invalidClobConfiguration
  | authentication
  /-- the version lookup failed, twice in a refresh -/
  | version
  | invalidProtocolVersion (value : ℕ)
  | balance
  /-- `request_failed` of the endpoint `ProtocolVersion` -/
  | requestFailed
deriving DecidableEq

/-- `new`: the generation must not be zero. -/
def AuthenticatedProtocolAuthority.new (version : ProtocolVersion) (generation : ℕ)
    (identity : AuthenticatedCredentialIdentity) :
    Except ProtocolAuthorityError AuthenticatedProtocolAuthority :=
  if h : generation = 0 then .error .requestFailed else .ok ⟨version, ⟨identity, generation, h⟩⟩

/-- The generation of the installed authority, zero for none. -/
def installedGeneration (installed : Option AuthenticatedProtocolAuthority) : ℕ :=
  (installed.map (·.generation)).getD 0

/-- The atomic actions of the client. -/
inductive ClientAct where
  /-- an action of a submission or a preparation; an activation reads the client too -/
  | clob (e : ClobAct)
  | chainId
  | providerOrderId (signed : SignedOrder) (chainId : ℕ)
  | lockRefresh
  | unlockRefresh
  | close
  /-- the credentials and the authority, under a guard that is dropped at once -/
  | readInstalled
  /-- `authenticate_declared_authority` -/
  | authenticate
  /-- `version` of the client that is not installed yet -/
  | freshVersion
  | refreshBalance
  | install (authority : AuthenticatedProtocolAuthority)
  /-- `protocol_version` -/
  | observeVersion
  /-- under the lock of the gate: `none` if the gate cannot be activated, else what the closure
      returns -/
  | activate (expected : AuthenticatedProtocolAuthority)

abbrev ClientAct.Answer : ClientAct → Type
  | .clob e => e.Answer
  | .chainId => Option ℕ
  | .providerOrderId .. => Except SdkError String
  | .readInstalled => AuthenticatedCredentialIdentity × Option AuthenticatedProtocolAuthority
  | .authenticate | .refreshBalance => Bool
  | .freshVersion => Option ℕ
  | .observeVersion => Except ProtocolAuthorityError ProtocolVersion
  | .activate _ => Option Bool
  | _ => Unit

abbrev Client := Prog ClientAct ClientAct.Answer

/-- What a preparation is asked for. -/
structure PrepareRequest where
  input : OrderInput
  side : ClobSide
  orderType : OrderType
  clientMarker : String

def maxClientMarkerBytes : ℕ := 128

/-- The marker is not blank, and not too long. -/
def clientMarkerIsValid (clientMarker : String) : Bool :=
  !clientMarker.toList.all isWhitespace && clientMarker.utf8ByteSize ≤ maxClientMarkerBytes

namespace Client

/-- One atomic action. -/
abbrev step (e : ClientAct) : Client e.Answer := .perform e

/-- What a submission does, of this client. -/
def clob {α : Type} (p : Clob α) : Client α := p.lift .clob fun _ r => r

/-! ## Preparing an order -/

/-- The order is built and signed under the guard, and not sent. -/
def prepareUnder (order : LimitOrder) (permit : ProtocolSubmissionPermit) :
    Client (Submitted PreparedClobOrder) := do
  match ← step (.clob (.build order)) with
  | .error error => return .error (classifyOperationError error)
  | .ok signable =>
    match ← step (.clob (.sign signable)) with
    | .error error => return .error (classifyOperationError error)
    | .ok signed =>
      if ← step (.clob (.admits permit)) then
        match ← step .chainId with
        | none => return .error .invalidRequest
        | some chainId =>
          match ← step (.providerOrderId signed chainId) with
          | .error error => return .error (classifyOperationError error)
          | .ok providerOrderId => return .ok ⟨signed, providerOrderId⟩
      else clob (Clob.refuse permit.authority .protocolAuthorityRevoked)

def prepareLocked (order : LimitOrder) : Client (Submitted PreparedClobOrder) := do
  match ← clob Clob.submissionClient with
  | .error error => return .error error
  | .ok (_, permit) =>
    let result ← prepareUnder order permit
    step (.clob .dropClient)
    return result

def prepareLimitOrder (request : PrepareRequest) : Client (Submitted PreparedClobOrder) :=
  if clientMarkerIsValid request.clientMarker then
    match request.input.tid, request.input.priceDec, request.input.sizeDec with
    | some tokenId, some price, some size => do
      step (.clob .lockSubmission)
      let postOnly := request.orderType = .gtc
      let result ← prepareLocked
        ⟨tokenId, price, size, request.side, some request.orderType, postOnly⟩
      step (.clob .unlockSubmission)
      return result
    | _, _, _ => return .error .invalidRequest
  else return .error .invalidRequest

/-! ## The protocol authority -/

/-- The version of the fresh client, with one retry. -/
def freshVersionRetried : Client (Option ℕ) := do
  match ← step .freshVersion with
  | some version => return some version
  | none => step .freshVersion

/-- The fresh client with its version, and the authority that names it. -/
def deriveAuthority (identity : AuthenticatedCredentialIdentity) (nextGeneration : ℕ) :
    Client (Except ProtocolAuthorityError AuthenticatedProtocolAuthority) := do
  if ← step .authenticate then
    match ← freshVersionRetried with
    | none => return .error .version
    | some versionRaw =>
      match ProtocolVersion.tryFrom versionRaw with
      | none => return .error (.invalidProtocolVersion versionRaw)
      | some version => return AuthenticatedProtocolAuthority.new version nextGeneration identity
  else return .error .authentication

/-- The pair is replaced once the balance was refreshed. -/
def installRefreshed (authority : AuthenticatedProtocolAuthority) :
    Client (Except ProtocolAuthorityError AuthenticatedProtocolAuthority) := do
  if ← step .refreshBalance then
    step (.install authority)
    return .ok authority
  else return .error .balance

def refreshLocked : Client (Except ProtocolAuthorityError AuthenticatedProtocolAuthority) := do
  step .close
  let (identity, installed) ← step .readInstalled
  match checkedAdd (installedGeneration installed) 1 with
  | none => return .error .invalidClobConfiguration
  | some nextGeneration =>
    match ← deriveAuthority identity nextGeneration with
    | .error error => return .error error
    | .ok authority => installRefreshed authority

def refreshAuthenticatedCapitalAuthority :
    Client (Except ProtocolAuthorityError AuthenticatedProtocolAuthority) := do
  step .lockRefresh
  let result ← refreshLocked
  step .unlockRefresh
  return result

/-- The checks of an activation under the read guard. -/
def activateUnder (guard : AuthenticatedClientState) (expected : AuthenticatedProtocolAuthority) :
    Client (Except ProtocolAuthorityError Bool) := do
  if guard.protocolAuthority ≠ some expected then return .error .requestFailed
  else
    match ← step .observeVersion with
    | .error error => return .error error
    | .ok observed =>
      if observed ≠ expected.version then return .error .requestFailed
      else
        match ← step (.activate expected) with
        | none => return .error .requestFailed
        | some activated => return .ok activated

def activateAuthenticatedProtocolAuthorityIf (expected : AuthenticatedProtocolAuthority) :
    Client (Except ProtocolAuthorityError Bool) := do
  step .lockRefresh
  let guard ← step (.clob .readClient)
  let result ← activateUnder guard expected
  step (.clob .dropClient)
  step .unlockRefresh
  return result

def revokeAuthenticatedProtocolAuthority : Client Unit := step .close

end Client

/-- What a task may call. -/
inductive ClientCall where
  | submit (call : SubmitCall)
  | prepare (request : PrepareRequest)
  | refresh
  | activateIf (expected : AuthenticatedProtocolAuthority)
  | revoke

def ClientCall.body (policy : RetryPolicy) : ClientCall → Client Unit
  | .submit call => do let _ ← Client.clob (call.body policy)
  | .prepare request => do let _ ← Client.prepareLimitOrder request
  | .refresh => do let _ ← Client.refreshAuthenticatedCapitalAuthority
  | .activateIf expected => do let _ ← Client.activateAuthenticatedProtocolAuthorityIf expected
  | .revoke => Client.revokeAuthenticatedProtocolAuthority

/-! ## The shared state -/

/-- What happens: an action of a task with its answer, or a task that is dropped. -/
inductive ClientEvent where
  | act (task : ℕ) (e : ClientAct) (r : e.Answer)
  | dropped (task : ℕ)

structure ClientState where
  gate : ProtocolSubmissionGate := {}
  installed : Option AuthenticatedProtocolAuthority := none
  /-- of the credentials that every refresh keeps -/
  identity : AuthenticatedCredentialIdentity := {}
  refreshedBy : Option ℕ := none
  serialBy : Option ℕ := none
  /-- the tasks that hold a read guard of the installed authority -/
  readers : Finset ℕ := ∅
  log : List ClientEvent := []

namespace ClientState

/-- The action may happen, and be answered so. -/
def Permits : (e : ClientAct) → e.Answer → ClientState → Prop
  | .clob .lockSubmission, _, s => s.serialBy = none
  | .clob .readClient, guard, s => guard.protocolAuthority = s.installed
  | .clob .permit, permit, s => permit = s.gate.permit
  | .clob (.admits permit), admitted, s => admitted = decide (s.gate.admits permit)
  | .lockRefresh, _, s => s.refreshedBy = none
  | .readInstalled, r, s => r = (s.identity, s.installed)
  | .install _, _, s => s.readers = ∅
  | .activate expected, activated, s => activated = none ↔ ¬ s.gate.canActivate expected
  | _, _, _ => True

/-- What it leaves. -/
def effect (t : ℕ) : (e : ClientAct) → e.Answer → ClientState → ClientState
  | .clob .lockSubmission, _, s => { s with serialBy := some t }
  | .clob .unlockSubmission, _, s => { s with serialBy := none }
  | .clob .readClient, _, s => { s with readers := insert t s.readers }
  | .clob .dropClient, _, s => { s with readers := s.readers.erase t }
  | .clob e, _, s => { s with gate := s.gate.after e }
  | .lockRefresh, _, s => { s with refreshedBy := some t }
  | .unlockRefresh, _, s => { s with refreshedBy := none }
  | .close, _, s => { s with gate := s.gate.close }
  | .install authority, _, s => { s with installed := some authority }
  | .activate expected, some true, s => { s with gate := s.gate.activate expected }
  | _, _, s => s

def happened (event : ClientEvent) (s : ClientState) : ClientState :=
  { s with log := s.log ++ [event] }

def does (t : ℕ) (e : ClientAct) (s : ClientState) (r : e.Answer) (s' : ClientState) : Prop :=
  s.Permits e r ∧ s' = (s.effect t e r).happened (.act t e r)

/-- What a dropped task held is released. -/
def release (t : ℕ) (s : ClientState) : ClientState :=
  { s with
    refreshedBy := if s.refreshedBy = some t then none else s.refreshedBy
    serialBy := if s.serialBy = some t then none else s.serialBy
    readers := s.readers.erase t }

def crash (t : ℕ) (s s' : ClientState) : Prop := s' = (s.release t).happened (.dropped t)

end ClientState

/-- The tasks of one client. -/
def clientWorld : World ClientAct ClientAct.Answer ClientState ℕ where
  does := ClientState.does
  crash := ClientState.crash

abbrev ClientConfig := World.Config ClientAct ClientAct.Answer ClientState ℕ

/-- One step of one task. -/
abbrev ClientStep (policy : RetryPolicy) : ClientConfig → ClientConfig → Prop :=
  clientWorld.Step (ClientCall.body policy)

/-- What the tasks of a new client reach. -/
abbrev ClientReachable (policy : RetryPolicy) (identity : AuthenticatedCredentialIdentity) :
    ClientConfig → Prop :=
  clientWorld.Reachable (ClientCall.body policy) { identity }

/-! ## Calls that run alone -/

namespace Client

variable {α : Type} {t : ℕ} {others : ClientState → ClientState → Prop} {s s' : ClientState}
  {e : ClientAct} {r : e.Answer} {k : e.Answer → Client α}

theorem solo_own {a : α} (hp : s.Permits e r)
    (h : clientWorld.Solo t (k r) ((s.effect t e r).happened (.act t e r)) a s') :
    clientWorld.Solo t (.act e k) s a s' := .act ⟨hp, rfl⟩ h

theorem comes_own {next : Option ClientAct} (hp : s.Permits e r)
    (h : clientWorld.Comes t others (k r) ((s.effect t e r).happened (.act t e r)) next s') :
    clientWorld.Comes t others (.act e k) s next s' := .own ⟨hp, rfl⟩ h

/-- The authority that a refresh installs, as the server answers version 2. -/
def nextAuthority (s : ClientState) : AuthenticatedProtocolAuthority :=
  ⟨.v2, ⟨s.identity, installedGeneration s.installed + 1, Nat.succ_ne_zero _⟩⟩

/-- The events of a refresh. -/
def refreshEvents (t : ℕ) (s : ClientState) : List ClientEvent :=
  [.act t .lockRefresh (), .act t .close (), .act t .readInstalled (s.identity, s.installed),
    .act t .authenticate true, .act t .freshVersion (some 2), .act t .refreshBalance true,
    .act t (.install (nextAuthority s)) (), .act t .unlockRefresh ()]

/-- A refresh of a client whose locks are free. -/
theorem solo_refresh (policy : RetryPolicy) (hlock : s.refreshedBy = none)
    (hreaders : s.readers = ∅) (hlt : installedGeneration s.installed < u64Max) :
    clientWorld.Solo t (ClientCall.body policy .refresh) s ()
      { s with
        gate := s.gate.close
        installed := some (nextAuthority s)
        log := s.log ++ refreshEvents t s } := by
  have hnext : checkedAdd (installedGeneration s.installed) 1 =
      some (installedGeneration s.installed + 1) := checkedAdd_eq_some.2 ⟨hlt, rfl⟩
  refine World.solo_bind.2 ⟨.ok (nextAuthority s), _, ?_, .ret () _⟩
  refine solo_own (e := .lockRefresh) (r := ()) hlock ?_
  refine solo_own (e := .close) (r := ()) trivial ?_
  refine solo_own (e := .readInstalled) (r := (s.identity, s.installed)) rfl ?_
  simp only [Prog.bind, hnext]
  refine solo_own (e := .authenticate) (r := true) trivial ?_
  refine solo_own (e := .freshVersion) (r := some 2) trivial ?_
  refine solo_own (e := .refreshBalance) (r := true) trivial ?_
  refine solo_own (e := .install (nextAuthority s)) (r := ()) hreaders ?_
  refine solo_own (e := .unlockRefresh) (r := ()) trivial ?_
  refine World.solo_ret.2 ⟨rfl, ?_⟩
  simp [ClientState.effect, ClientState.happened, hlock, refreshEvents]

/-- The events of an activation. -/
def activateEvents (t : ℕ) (authority : AuthenticatedProtocolAuthority) : List ClientEvent :=
  [.act t .lockRefresh (), .act t (.clob .readClient) ⟨some authority⟩,
    .act t .observeVersion (.ok authority.version), .act t (.activate authority) (some true),
    .act t (.clob .dropClient) (), .act t .unlockRefresh ()]

/-- An activation of the authority that is installed. -/
theorem solo_activateIf (policy : RetryPolicy) {authority : AuthenticatedProtocolAuthority}
    (hlock : s.refreshedBy = none) (hreaders : t ∉ s.readers) (hi : s.installed = some authority)
    (hcan : s.gate.canActivate authority) :
    clientWorld.Solo t (ClientCall.body policy (.activateIf authority)) s ()
      { s with
        gate := s.gate.activate authority
        log := s.log ++ activateEvents t authority } := by
  refine World.solo_bind.2 ⟨.ok true, _, ?_, .ret () _⟩
  refine solo_own (e := .lockRefresh) (r := ()) hlock ?_
  refine solo_own (e := .clob .readClient) (r := ⟨some authority⟩) hi.symm ?_
  simp only [Prog.bind, activateUnder, ne_eq, not_true_eq_false, if_false]
  refine solo_own (e := .observeVersion) (r := .ok authority.version) trivial ?_
  simp only [Prog.bind, not_true_eq_false, if_false]
  refine solo_own (e := .activate authority) (r := some true)
    (iff_of_false (by simp) (not_not.2 hcan)) ?_
  refine solo_own (e := .clob .dropClient) (r := ()) trivial ?_
  refine solo_own (e := .unlockRefresh) (r := ()) trivial ?_
  refine World.solo_ret.2 ⟨rfl, ?_⟩
  simp [ClientState.effect, ClientState.happened, hlock, hreaders, activateEvents]

end Client

section

variable {policy : RetryPolicy} {s s' : ClientState} {t : ℕ} {task : ℕ → Client Unit}

/-- A call that runs alone while other calls are under way. -/
theorem client_solo (call : ClientCall) (ht : task t = .ret ())
    (h : clientWorld.Solo t (call.body policy) s () s') :
    Relation.ReflTransGen (ClientStep policy) ⟨s, task⟩ ⟨s', task⟩ := by
  have hcall : ClientStep policy ⟨s, task⟩ ⟨s, Function.update task t (call.body policy)⟩ :=
    .call call ht
  have hrun : Relation.ReflTransGen (ClientStep policy)
      ⟨s, Function.update task t (call.body policy)⟩
      ⟨s', Function.update (Function.update task t (call.body policy)) t (.ret ())⟩ :=
    h.steps _ (Function.update_self t _ task)
  rw [Function.update_idem, ← ht, Function.update_eq_self] at hrun
  exact .head hcall hrun

/-- The client after its first refresh and activation. -/
def activatedState : ClientState where
  gate := ⟨.active sampleProtocolAuthority, 0⟩
  installed := some sampleProtocolAuthority
  log := Client.refreshEvents 0 {} ++ Client.activateEvents 0 sampleProtocolAuthority

theorem client_activated (policy : RetryPolicy) :
    ClientReachable policy {} ⟨activatedState, fun _ => .ret ()⟩ := by
  have hrefresh := Client.solo_refresh (t := 0) (s := {}) policy rfl rfl (by decide)
  have hcan : ProtocolSubmissionGate.canActivate {} sampleProtocolAuthority :=
    ⟨by decide, by simp⟩
  refine (client_solo .refresh rfl hrefresh).trans
    (client_solo (t := 0) (.activateIf sampleProtocolAuthority) rfl ?_)
  exact Client.solo_activateIf (t := 0) policy rfl (by simp) rfl hcan

end

end Rspm
