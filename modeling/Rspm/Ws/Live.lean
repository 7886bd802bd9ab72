/-
  The connection task among the handles of its session.

  A handle (`AuthenticatedUserWs`, the custodian of the session) calls the cell,
  and raises the shutdown flag, which nothing lowers: `shutdown_tx` carries no
  value but `true`, and its sender goes away only after it sent one.  The shutdown
  arms of the task are therefore those of a raised flag, and `borrow` reads it.

  A live session is a connection task as it was admitted, with fewer parties
  around it (`LiveRun.connectionRun`).
-/
import Rspm.Ws.Admission

namespace Rspm

/-- What happened in a session: an action of the task with its answer, a call of a handle, or
    the flag that a handle raised. -/
inductive LiveEntry where
  | own (a : Σ e : ConnectionAct, e.Answer)
  | other (c : CellCall)
  | shutdown

structure LiveSession where
  cell : StateCell
  /-- the value of `shutdown_tx` -/
  shutdownTx : Bool := false
  /-- oldest first -/
  trace : List LiveEntry := []

/-- The calls that only the connection task makes. -/
def Op.ofTask : Op → Bool
  | .markConnecting | .tryMarkConnected | .markSubscriptionWritten _
  | .markServerLivenessProven _ | .markSchemaGap | .markConsumerClosed
  | .reserveTransportSequences _ | .reserveRawFrameCapacity | .reserveRawFrameSequence
  | .retainRawFrame _ | .dropRawFrameCapacity | .markEnqueued _ => true
  | _ => false

theorem Op.admits_of_ofTask {op : Op} (h : op.ofTask = false) : op.admits = false := by
  cases op <;> first | rfl | cases h

/-- What an action answers under the flag. -/
def ConnectionAct.Reads (shutdown : Bool) : (e : ConnectionAct) → e.Answer → Prop
  | .borrowShutdown, r => r = shutdown
  | .connect, .shutdown _ | .write, .shutdown _ | .poll, .shutdown => shutdown = true
  | .reserveSlot, .shutdown closing | .reserveRawFrameCapacity, .shutdown closing =>
    shutdown = true ∧ closing = true
  | .waitOrShutdown _, r => r = true → shutdown = true
  | _, _ => True

namespace LiveSession

/-- The call that an operation is now. -/
def call (x : LiveSession) (op : Op) : CellCall := ⟨x.cell, op⟩

def after (x : LiveSession) (e : ConnectionAct) (r : e.Answer) : LiveSession where
  cell := e.cellAfter r x.cell
  shutdownTx := x.shutdownTx
  trace := x.trace ++ [.own ⟨e, r⟩]

/-- A call of a handle, or the flag it raises. -/
inductive Handle : LiveSession → LiveSession → Prop
  | call {x : LiveSession} {op : Op} (h : op.ofTask = false) :
      Handle x { x with cell := (x.call op).post, trace := x.trace ++ [.other (x.call op)] }
  | shutdown {x : LiveSession} :
      Handle x { x with shutdownTx := true, trace := x.trace ++ [.shutdown] }

end LiveSession

/-- A call of the cell answers as the cell does, a shutdown arm as the flag does. -/
def liveWorld : World ConnectionAct ConnectionAct.Answer LiveSession Unit where
  does _ e x r x' :=
    (∀ op reply, e.cellCall r = some (op, reply) → (x.call op).out = reply) ∧
      e.Reads x.shutdownTx r ∧ x' = x.after e r
  crash _ _ _ := False

/-- The steps of a session: of its connection task, or of a handle. -/
abbrev LiveStep (json : List UInt8 → Option FrameValue) (config : AuthenticatedUserWsConfig) :
    ConnectionLoop (Option LoopPoint) × LiveSession →
      ConnectionLoop (Option LoopPoint) × LiveSession → Prop :=
  liveWorld.Looping () LiveSession.Handle (ConnectionLoop.turn json config)

/-- A session as far as it came, with what is left of the turn of its task. -/
def LiveRun (json : List UInt8 → Option FrameValue) (config : AuthenticatedUserWsConfig)
    (credentialIdentity : AuthenticatedCredentialIdentity)
    (task : ConnectionLoop (Option LoopPoint)) (x : LiveSession) : Prop :=
  Relation.ReflTransGen (LiveStep json config)
    (.ret (some (.connect 0 config.initialReconnectDelay)),
      { cell := .newWithIdentity credentialIdentity })
    (task, x)

/-! ## The task as it was admitted -/

namespace LiveEntry

/-- The entry without the flag. -/
def entry : LiveEntry → Option Entry
  | .own a => some (.own a)
  | .other c => some (.other c)
  | .shutdown => none

def ownAct : LiveEntry → Option (Σ e : ConnectionAct, e.Answer)
  | .own a => some a
  | _ => none

end LiveEntry

namespace LiveSession

variable {x : LiveSession}

/-- The session without its flag; `held` permits are in the hands of the task. -/
def connection (x : LiveSession) (held : ℕ) : Connection :=
  ⟨x.cell, held, x.trace.filterMap LiveEntry.entry⟩

theorem connection_after (x : LiveSession) (held : ℕ) (e : ConnectionAct) (r : e.Answer) :
    (x.after e r).connection (e.holds r held) = (x.connection held).after e r := by
  simp only [connection, after, Connection.after, List.filterMap_append]
  rfl

end LiveSession

/-! ## A run, step by step -/

section

variable {json : List UInt8 → Option FrameValue} {config : AuthenticatedUserWsConfig}
  {credentialIdentity : AuthenticatedCredentialIdentity} {x x' : LiveSession}

/-- The next action of the task. -/
theorem LiveRun.act {e : ConnectionAct} {k : e.Answer → ConnectionLoop (Option LoopPoint)}
    (h : LiveRun json config credentialIdentity (.act e k) x) (r : e.Answer)
    (hdoes : ∀ op reply, e.cellCall r = some (op, reply) → (x.call op).out = reply)
    (hreads : e.Reads x.shutdownTx r) :
    LiveRun json config credentialIdentity (k r) (x.after e r) :=
  h.tail (.along (.own ⟨hdoes, hreads, rfl⟩))

theorem LiveRun.turn {k : LoopPoint}
    (h : LiveRun json config credentialIdentity (.ret (some k)) x) :
    LiveRun json config credentialIdentity (ConnectionLoop.turn json config k) x :=
  h.tail .turn

theorem LiveRun.handle {task : ConnectionLoop (Option LoopPoint)}
    (h : LiveRun json config credentialIdentity task x) (hs : LiveSession.Handle x x') :
    LiveRun json config credentialIdentity task x' :=
  h.tail (.along (.other hs))

end

/-- A live session is a connection task as it was admitted. -/
theorem LiveRun.connectionRun {json : List UInt8 → Option FrameValue}
    {config : AuthenticatedUserWsConfig} {credentialIdentity : AuthenticatedCredentialIdentity}
    {task : ConnectionLoop (Option LoopPoint)} {x : LiveSession}
    (h : LiveRun json config credentialIdentity task x) :
    ∃ held, ConnectionRun json config credentialIdentity task (x.connection held) := by
  unfold LiveRun at h
  generalize hc : (task, x) = c at h
  induction h generalizing task x with
  | refl =>
    obtain ⟨rfl, rfl⟩ := Prod.mk.inj hc
    exact ⟨0, .refl⟩
  | tail _ hstep ih =>
    subst hc
    cases hstep with
    | along halong =>
      cases halong with
      | @own e k s _ r hd =>
        obtain ⟨held, hrun⟩ := ih rfl
        obtain ⟨hcall, -, rfl⟩ := hd
        refine ⟨e.holds r held, ?_⟩
        rw [LiveSession.connection_after]
        exact hrun.tail (.along (.own ⟨hcall, rfl⟩))
      | @other _ s _ ho =>
        obtain ⟨held, hrun⟩ := ih rfl
        refine ⟨held, ?_⟩
        cases ho with
        | @call op hop =>
          have hb : Connection.Bystander (s.connection held)
              { (s.connection held) with
                cell := ((s.connection held).call op).post
                trace := (s.connection held).trace ++ [.other ((s.connection held).call op)] } :=
            .call (Op.admits_of_ofTask hop)
          simp only [LiveSession.connection, List.filterMap_append]
          exact hrun.tail (.along (.other hb))
        | shutdown =>
          simpa only [LiveSession.connection, List.filterMap_append, List.filterMap_cons,
            List.filterMap_nil, LiveEntry.entry, List.append_nil] using hrun
    | @turn k =>
      obtain ⟨held, hrun⟩ := ih rfl
      exact ⟨held, hrun.tail .turn⟩

end Rspm
