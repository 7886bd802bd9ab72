/-
  Between two sockets.

  Every wait of the connection task lasts as long as the number of waits since a
  socket was last opened says, and is one that the limit of attempts still
  allows; a task that has ended has a reason for it.
-/
import Rspm.Ws.Retention
import Rspm.Ws.Turns

namespace Rspm

/-- The waits since a socket was last opened, that is, since its first PING was written right
    after its subscription was recorded; newest action first. -/
def OwnAct.waits : List OwnAct → ℕ
  | [] => 0
  | ⟨.write, .done true⟩ :: ⟨.call (.markSubscriptionWritten _), _⟩ :: _ => 0
  | ⟨.waitOrShutdown _, _⟩ :: before => waits before + 1
  | _ :: before => waits before

namespace LiveSession

/-- The actions of the task, oldest first. -/
def own (x : LiveSession) : List OwnAct := x.trace.filterMap LiveEntry.ownAct

theorem own_after (x : LiveSession) (e : ConnectionAct) (r : e.Answer) :
    (x.after e r).own = x.own ++ [⟨e, r⟩] := List.filterMap_append

theorem own_handle {x x' : LiveSession} (h : Handle x x') : x'.own = x.own := by
  cases h <;> simp only [own, List.filterMap_append] <;> exact List.append_nil _

/-- What every call of the cell keeps is kept by an action and by a handle. -/
theorem cell_after {P : StateCell → Prop} (hP : ∀ c : CellCall, P c.pre → P c.post)
    {x : LiveSession} (e : ConnectionAct) (r : e.Answer) (h : P x.cell) :
    P (x.after e r).cell := by
  cases hc : e.cellCall r with
  | none => rw [after, ConnectionAct.cellAfter_none hc]; exact h
  | some call => rw [after, ConnectionAct.cellAfter_call hc]; exact hP (x.call call.1) h

theorem cell_handle {P : StateCell → Prop} (hP : ∀ c : CellCall, P c.pre → P c.post)
    {x x' : LiveSession} (hs : Handle x x') (h : P x.cell) : P x'.cell := by
  cases hs with
  | call => exact hP (x.call _) h
  | shutdown => exact h

/-- The parts of the cell agree, and it is dead. -/
def Dies (cell : StateCell) : Prop := Coherent cell ∧ cell.state.Dead

theorem Dies.step (c : CellCall) (h : Dies c.pre) : Dies c.post :=
  ⟨h.1.step, (CellCall.kept h.1).dead h.2⟩

/-! ## The invariant -/

/-- What the actions of the task show of its waits, and of its end. -/
structure Paced (config : AuthenticatedUserWsConfig) (w : Course) (x : LiveSession) : Prop where
  coherent : Coherent x.cell
  waits : OwnAct.waits x.own.reverse = w.waits
  /-- before its first PING a socket is known by the last action -/
  connected : ∀ generation, w.phase = .connected generation →
    ∃ l, x.own = l ++ [⟨.tryMarkConnected, .ok generation⟩]
  submitted : ∀ generation, w.phase = .submitted generation →
    ∃ l, x.own = l ++ [.subscribed generation]
  past : ∀ before delay r after, x.own = before ++ ⟨.waitOrShutdown delay, r⟩ :: after →
    config.Waits (OwnAct.waits before.reverse) delay
  ending : w.ending = true → x.shutdownTx = true ∨ x.cell.state.Dead

variable {config : AuthenticatedUserWsConfig} {w w' : Course} {x x' : LiveSession}

theorem Paced.start (credentialIdentity : AuthenticatedCredentialIdentity) :
    Paced config {} { cell := .newWithIdentity credentialIdentity } where
  coherent := Coherent.new credentialIdentity
  waits := rfl
  connected := nofun
  submitted := nofun
  past before _ _ _ h := by cases before <;> cases h
  ending := nofun

theorem Paced.handle (h : Paced config w x) (hs : Handle x x') : Paced config w x' where
  coherent := cell_handle (fun _ hc => hc.step) hs h.coherent
  waits := by rw [own_handle hs]; exact h.waits
  connected := by rw [own_handle hs]; exact h.connected
  submitted := by rw [own_handle hs]; exact h.submitted
  past := by rw [own_handle hs]; exact h.past
  ending he := by
    rcases h.ending he with hflag | hdead
    · left
      cases hs with
      | call => exact hflag
      | shutdown => rfl
    · exact .inr (cell_handle Dies.step hs ⟨h.coherent, hdead⟩).2

/-- A state that refuses a socket is dead. -/
theorem tryMarkConnected_error {s : AuthenticatedUserWsState}
    {exhaustion : AuthenticatedUserCounterExhaustion}
    (h : s.tryMarkConnected.2 = .error exhaustion) : s.tryMarkConnected.1.Dead := by
  unfold AuthenticatedUserWsState.tryMarkConnected at h ⊢
  cases hx : s.counterExhaustion with
  | some exhaustion' => exact .inr (by simp [hx])
  | none =>
    rw [hx] at h
    dsimp only at h ⊢
    cases hn : checkedAdd s.generation 1 with
    | none => exact AuthenticatedUserWsState.failCounter_dead _ _
    | some next =>
      rw [hn] at h
      dsimp only at h ⊢
      rcases AuthenticatedUserWsState.advanceGapVersion_cases _ with ⟨-, ha⟩ | ⟨-, ha⟩ <;>
        rw [ha] at h ⊢
      · cases h
      · exact AuthenticatedUserWsState.failCounter_dead _ _

/-- A socket that the cell refuses leaves a dead cell. -/
theorem dead_of_unconnected {c : CellCall} {exhaustion : AuthenticatedUserCounterExhaustion}
    (hi : c.input = .tryMarkConnected) (hr : c.out = .connection (.error exhaustion)) :
    c.post.state.Dead := by
  refine CellCall.dead_of_acts hi hr rfl rfl fun ha => ?_
  cases ha with
  | update hu =>
    simp only [Op.transition, Option.some.injEq, Prod.mk.injEq, Reply.connection.injEq] at hu
    obtain ⟨rfl, herror⟩ := hu
    exact tryMarkConnected_error herror

/-! ## The actions of the task -/

theorem waits_wait (delay : Duration) (r : Bool) (l : List OwnAct) :
    OwnAct.waits (⟨.waitOrShutdown delay, r⟩ :: l) = OwnAct.waits l + 1 := rfl

/-- Only a wait and the opening of a socket change the count. -/
theorem waits_cons {a : OwnAct} {l : List OwnAct} (ha : ∀ delay, a.1 ≠ .waitOrShutdown delay)
    (ho : a = .wrote → ∀ generation l', l ≠ .subscribed generation :: l') :
    OwnAct.waits (a :: l) = OwnAct.waits l := by
  obtain ⟨e, r⟩ := a
  cases e with
  | waitOrShutdown delay => exact absurd rfl (ha delay)
  | write =>
    rcases r with (_ | _) | failed
    · rfl
    · cases l with
      | nil => rfl
      | cons b l' =>
        obtain ⟨e, r⟩ := b
        cases e with
        | call op =>
          cases op with
          | markSubscriptionWritten generation => exact absurd rfl (ho rfl generation l')
          | _ => rfl
        | _ => rfl
    · rfl
  | _ => rfl

/-- The answers that end the task show the flag, or a dead cell. -/
theorem final_cases {e : ConnectionAct} {r : e.Answer} (hf : OwnAct.final ⟨e, r⟩ = true)
    (hreads : e.Reads x.shutdownTx r)
    (hcall : ∀ op reply, e.cellCall r = some (op, reply) → (x.call op).out = reply) :
    (x.after e r).shutdownTx = true ∨ (x.after e r).cell.state.Dead := by
  cases e with
  | borrowShutdown => exact .inl (hreads.symm.trans hf)
  | connect | write =>
    cases r with
    | done b => cases hf
    | shutdown failed => exact .inl hreads
  | tryMarkConnected =>
    cases r with
    | ok generation => cases hf
    | error exhaustion => exact .inr (dead_of_unconnected rfl (hcall _ _ rfl))
  | _ => cases hf

/-- A step that is no wait keeps what is known of the waits. -/
theorem Paced.pass (h : Paced config w x) {e : ConnectionAct} {r : e.Answer}
    (hreads : e.Reads x.shutdownTx r)
    (hcall : ∀ op reply, e.cellCall r = some (op, reply) → (x.call op).out = reply)
    (hstep : w.phase.Step ⟨e, r⟩ w'.phase) (hne : ∀ delay, e ≠ .waitOrShutdown delay)
    (hwaits : w'.waits = if w'.phase.opens then 0 else w.waits)
    (hending : w'.ending = (w.ending || OwnAct.final ⟨e, r⟩)) : Paced config w' (x.after e r) where
  coherent := cell_after (fun _ hc => hc.step) e r h.coherent
  waits := by
    rw [own_after, List.reverse_append, List.reverse_singleton, List.singleton_append, hwaits]
    split_ifs with hopen
    · obtain ⟨generation, hw, ha⟩ := hstep.of_opens hopen
      obtain ⟨l, hl⟩ := h.submitted generation hw
      rw [ha, hl, List.reverse_append]
      rfl
    · rw [← h.waits]
      refine waits_cons hne fun ha generation l hl => ?_
      rw [ha] at hstep
      rcases hstep.of_wrote with ⟨generation', hw⟩ | ⟨_, _, ho⟩
      · obtain ⟨l', hl'⟩ := h.connected generation' hw
        rw [hl', List.reverse_append] at hl
        cases hl
      · exact hopen ho
  connected generation hg := by
    rw [hg] at hstep
    exact ⟨x.own, by rw [own_after, hstep.of_connected]⟩
  submitted generation hg := by
    rw [hg] at hstep
    exact ⟨x.own, by rw [own_after, hstep.of_submitted]⟩
  past before delay r' after hsplit := by
    rw [own_after] at hsplit
    rcases Monitor.split_snoc hsplit with ⟨-, hlast⟩ | ⟨after', hbefore⟩
    · cases hlast
      exact absurd rfl (hne delay)
    · exact h.past before delay r' after' hbefore
  ending he := by
    rw [hending, Bool.or_eq_true] at he
    rcases he with he | he
    · exact (h.ending he).imp id fun hd => (cell_after Dies.step e r ⟨h.coherent, hd⟩).2
    · exact final_cases he hreads hcall

/-- A wait that is due. -/
theorem Paced.wait (h : Paced config w x) {delay : Duration} {r : Bool}
    (hreads : r = true → x.shutdownTx = true) (hwait : config.Waits w.waits delay) :
    Paced config ⟨.apart, w.waits + 1, w.ending || r⟩ (x.after (.waitOrShutdown delay) r) where
  coherent := h.coherent
  waits := by
    rw [own_after, List.reverse_append, List.reverse_singleton, List.singleton_append, waits_wait,
      h.waits]
  connected := nofun
  submitted := nofun
  past before delay' r' after hsplit := by
    rw [own_after] at hsplit
    rcases Monitor.split_snoc hsplit with ⟨rfl, hlast⟩ | ⟨after', hbefore⟩
    · cases hlast
      rw [h.waits]
      exact hwait
    · exact h.past before delay' r' after' hbefore
  ending he := by
    rw [Bool.or_eq_true] at he
    rcases he with he | he
    · exact h.ending he
    · exact .inl (hreads he)

theorem Paced.own (h : Paced config w x) {e : ConnectionAct} {r : e.Answer}
    (hd : liveWorld.does () e x r x') (hnext : (course config).next w ⟨e, r⟩ = some w') :
    Paced config w' x' := by
  obtain ⟨hcall, hreads, rfl⟩ := hd
  rcases Course.next_cases hnext with ⟨delay, b, ha, -, hwait, rfl⟩ | ⟨hstep, hne, hwaits, hending⟩
  · cases ha
    exact h.wait hreads hwait
  · exact h.pass hreads hcall hstep hne hwaits hending

end LiveSession

/-! ## Every run -/

section

variable {json : List UInt8 → Option FrameValue} {config : AuthenticatedUserWsConfig}
  {credentialIdentity : AuthenticatedCredentialIdentity}
  {task : ConnectionLoop (Option LoopPoint)} {x : LiveSession}

theorem LiveRun.paced (h : LiveRun json config credentialIdentity task x) :
    ∃ w, x.Paced config w ∧ task.Follows (course config) (Course.Leads config) w := by
  have hstart : Course.Leads config (some (.connect 0 config.initialReconnectDelay)) {} :=
    ⟨rfl, rfl, rfl⟩
  exact World.looping_leads (fun k w hk => Course.turn_follows_course k hk)
    (fun w e s r s' w' hw hd hnext => hw.own hd hnext) (fun w s s' hw hs => hw.handle hs)
    (LiveSession.Paced.start credentialIdentity) hstart h

/-- Every wait of the task lasts as long as the waits since a socket was last opened say, and
    the limit of attempts still allows it. -/
theorem reconnect_pace (h : LiveRun json config credentialIdentity task x) (delay : Duration)
    (r : Bool) (before after : List OwnAct)
    (hx : x.own = before ++ ⟨.waitOrShutdown delay, r⟩ :: after) :
    delay = config.pace (OwnAct.waits before.reverse) ∧
      OwnAct.waits before.reverse + 1 ≤ u32Max ∧
      (∀ maximum, config.maxReconnectAttempts = some maximum →
        OwnAct.waits before.reverse + 1 < maximum) ∧
      (config.initialReconnectDelay ≤ config.maxReconnectDelay →
        config.initialReconnectDelay ≤ delay ∧ delay ≤ config.maxReconnectDelay) := by
  obtain ⟨w, hpaced, -⟩ := h.paced
  obtain ⟨hdelay, hbound, hlimit⟩ := hpaced.past before delay r after hx
  refine ⟨hdelay, hbound, fun maximum hm => ?_, fun hle => ?_⟩
  · rw [hm] at hlimit
    simpa [reconnectExhausted] using hlimit
  · rw [hdelay, AuthenticatedUserWsConfig.pace_eq hle]
    refine ⟨le_min ?_ hle, min_le_right _ _⟩
    exact Nat.le_mul_of_pos_right _ (Nat.two_pow_pos _)

end

/-- The second wait of a task that reaches no server is twice the first. -/
theorem reconnect_pace_second : ∃ (task : ConnectionLoop (Option LoopPoint)) (x : LiveSession)
    (before : List OwnAct), LiveRun (fun _ => none) ⟨1, 3, some 4⟩ {} task x ∧
      x.own = before ++ [⟨.waitOrShutdown 2, false⟩] ∧
      2 = (⟨1, 3, some 4⟩ : AuthenticatedUserWsConfig).pace (OwnAct.waits before.reverse) := by
  have hstart : LiveRun (fun _ => none) ⟨1, 3, some 4⟩ {} (.ret (some (.connect 0 1)))
    { cell := .newWithIdentity {} } := .refl
  have h1 := hstart.turn.act false (by rintro _ _ ⟨⟩) rfl
  have h2 := h1.act () (by rintro _ _ ⟨⟩; rfl) trivial
  have h3 := h2.act (.done false) (by rintro _ _ ⟨⟩) trivial
  have h4 := h3.act false (by rintro _ _ ⟨⟩) rfl
  have h5 := h4.act () (by rintro _ _ ⟨⟩; rfl) trivial
  have h6 := h5.act false (by rintro _ _ ⟨⟩) nofun
  have h7 := h6.turn.act false (by rintro _ _ ⟨⟩) rfl
  have h8 := h7.act () (by rintro _ _ ⟨⟩; rfl) trivial
  have h9 := h8.act (.done false) (by rintro _ _ ⟨⟩) trivial
  have h10 := h9.act false (by rintro _ _ ⟨⟩) rfl
  have h11 := h10.act () (by rintro _ _ ⟨⟩; rfl) trivial
  have h12 := h11.act false (by rintro _ _ ⟨⟩) nofun
  exact ⟨_, _, _, h12, LiveSession.own_after _ _ _,
    (reconnect_pace h12 2 false _ [] (LiveSession.own_after _ _ _)).1⟩

end Rspm
