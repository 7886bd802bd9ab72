/-
  What readiness says of the socket.

  A channel with its authority intact stands on a socket whose exchange the task
  itself had: its subscription was written, a PING was answered by a PONG before
  the REST proof was recorded, and another one after it.  The socket was opened
  before the shutdown flag was raised, so a shutdown is final
  (`shutdown_is_final`), and a task that has ended leaves no connected channel
  (`session_over`).
-/
import Rspm.Ws.Pace
import Rspm.Ws.Provenance

namespace Rspm

/-- The actions of the task among the entries. -/
def spoken (entries : List LiveEntry) : List OwnAct := entries.filterMap LiveEntry.ownAct

@[simp] theorem spoken_append (l m : List LiveEntry) : spoken (l ++ m) = spoken l ++ spoken m :=
  List.filterMap_append

@[simp] theorem spoken_own (a : OwnAct) : spoken [.own a] = [a] := rfl

@[simp] theorem spoken_other (c : CellCall) : spoken [.other c] = [] := rfl

@[simp] theorem spoken_shutdown : spoken [.shutdown] = [] := rfl

/-! ## The events of the calls -/

theorem Op.event_connected {cell : StateCell} {op : Op} {r : Reply} {generation : ℕ}
    (h : op.event cell r = .connected generation) :
    op = .tryMarkConnected ∧ r = .connection (.ok generation) := by
  unfold Op.event at h
  split at h <;> first | cases h | skip
  · exact ⟨rfl, rfl⟩
  all_goals split_ifs at h

theorem Op.event_responded {cell : StateCell} {op : Op} {r : Reply} {generation : ℕ}
    (h : op.event cell r = .responded generation) :
    op = .markServerLivenessProven generation := by
  unfold Op.event at h
  split at h <;> first | cases h | skip
  · split_ifs at h
  · split_ifs at h
    cases h
    rfl
  all_goals split_ifs at h

theorem Op.event_proven {cell : StateCell} {op : Op} {r : Reply}
    {token : AuthenticatedUserRecoveryToken} {authority : AuthenticatedCredentialAuthority}
    (h : op.event cell r = .proven token authority) :
    ∃ floor, r = .floor (some floor) := by
  unfold Op.event at h
  split at h <;> first | cases h | skip
  · split_ifs at h
  · split_ifs at h
  · exact ⟨_, rfl⟩
  all_goals split_ifs at h

/-! ## What a connected state attests of its socket -/

/-- The REST proof of `authority`, after `m` answered PINGs of the socket. -/
structure RestProof (generation m : ℕ) (socket : List LiveEntry)
    (authority : AuthenticatedCredentialAuthority) : Prop where
  recorded : ∃ first c second token pings, socket = first ++ .other c :: second ∧
    c.event = .proven token authority ∧ Dialogue generation pings m (spoken first)
  answered : 1 ≤ m

theorem RestProof.snoc {generation m : ℕ} {socket : List LiveEntry}
    {authority : AuthenticatedCredentialAuthority} (h : RestProof generation m socket authority)
    (entry : LiveEntry) : RestProof generation m (socket ++ [entry]) authority := by
  obtain ⟨first, c, second, token, pings, rfl, he, hd⟩ := h.recorded
  exact ⟨⟨first, c, second ++ [entry], token, pings, by simp, he, hd⟩, h.answered⟩

/-- What a connected state says of the socket, after `n` answered PINGs. -/
structure Attested (generation n : ℕ) (socket : List LiveEntry) (s : AuthenticatedUserWsState) :
    Prop where
  current : s.generation = generation
  responsive : s.subscription = .serverResponsive → 1 ≤ n
  proven : ∀ authority, s.restCredentialAuthority = some authority →
    ∃ m, RestProof generation m socket authority ∧ m ≤ n ∧
      (s.subscription = .serverResponsive → m < n)

/-- A state with the same proof, which is no more responsive. -/
theorem Attested.mono {generation n n' : ℕ} {socket : List LiveEntry}
    {s s' : AuthenticatedUserWsState} (h : Attested generation n socket s) (entry : LiveEntry)
    (hg : s'.generation = s.generation) (hn : n ≤ n')
    (hr : s'.subscription = .serverResponsive → s.subscription = .serverResponsive ∨ n < n')
    (ha : ∀ authority, s'.restCredentialAuthority = some authority →
      s.restCredentialAuthority = some authority) :
    Attested generation n' (socket ++ [entry]) s' where
  current := hg.trans h.current
  responsive hs := by
    rcases hr hs with hs | hlt
    · exact (h.responsive hs).trans hn
    · omega
  proven authority hauth := by
    obtain ⟨m, hproof, hm, hlt⟩ := h.proven authority (ha authority hauth)
    refine ⟨m, hproof.snoc entry, hm.trans hn, fun hs => ?_⟩
    rcases hr hs with hs | hn'
    · exact (hlt hs).trans_le hn
    · omega

section

variable {generation n : ℕ} {socket : List LiveEntry} {c : CellCall}

/-- A call that has nothing to do with the socket or its REST proof. -/
theorem Attested.call (h : Attested generation n socket c.pre.state) (entry : LiveEntry)
    (hconn : ∀ g, c.event ≠ .connected g) (hresp : ∀ g, c.event ≠ .responded g)
    (hproven : ∀ token authority, c.event ≠ .proven token authority)
    (hc : c.post.state.connection = .connected) :
    Attested generation n (socket ++ [entry]) c.post.state := by
  have hmove := c.move
  generalize c.event = e, c.post.state = s' at *
  cases hmove with
  | ledger | lost | overflowed => exact h.mono entry rfl le_rfl .inl fun _ => id
  | connecting | disconnected => cases hc
  | connected => exact absurd rfl (hconn _)
  | subscribed => exact h.mono entry rfl le_rfl nofun fun _ => id
  | responded => exact absurd rfl (hresp _)
  | proven => exact absurd rfl (hproven _ _)
  | gap => exact h.mono entry rfl le_rfl nofun nofun
  | @caughtUp f hexp =>
    rw [f.evidence.next_eq, ← hexp]
    exact h.mono entry rfl le_rfl .inl fun _ => id
  | closed _ hcl => rw [hcl.connection] at hc; cases hc

/-- An answered PING is counted. -/
theorem Attested.respond (h : Attested generation n socket c.pre.state) (entry : LiveEntry)
    (hconn : ∀ g, c.event ≠ .connected g)
    (hproven : ∀ token authority, c.event ≠ .proven token authority)
    (hc : c.post.state.connection = .connected) :
    Attested generation (n + 1) (socket ++ [entry]) c.post.state := by
  by_cases hresp : ∃ g, c.event = .responded g
  · obtain ⟨g, hg⟩ := hresp
    have hmove := c.move
    rw [hg] at hmove
    generalize c.post.state = s' at *
    generalize he : Event.responded g = e at hmove
    cases hmove with
    | responded => exact h.mono entry rfl (Nat.le_succ n) (fun _ => .inr n.lt_succ_self) fun _ => id
    | closed hcl => rcases hcl with rfl | rfl <;> cases he
    | overflowed ho => rcases ho with rfl | rfl <;> cases he
    | _ => cases he
  · have hkept := h.call entry hconn (fun g hg => hresp ⟨g, hg⟩) hproven hc
    exact ⟨hkept.current, fun _ => Nat.le_add_left 1 n, fun authority ha => by
      obtain ⟨m, hproof, hm, -⟩ := hkept.proven authority ha
      exact ⟨m, hproof, hm.trans (Nat.le_succ n), fun _ => Nat.lt_succ_of_le hm⟩⟩

/-- A REST proof is recorded after the PINGs that are answered by now. -/
theorem Attested.prove (h : Attested generation n socket c.pre.state)
    {token : AuthenticatedUserRecoveryToken} {authority : AuthenticatedCredentialAuthority}
    (he : c.event = .proven token authority)
    (hd : 1 ≤ n → ∃ pings, Dialogue generation pings n (spoken socket)) :
    Attested generation n (socket ++ [.other c]) c.post.state := by
  have hmove := c.move
  rw [he] at hmove
  generalize hs' : c.post.state = s' at *
  generalize he' : Event.proven token authority = e at hmove
  cases hmove with
  | @proven token' authority' ht hi =>
    cases he'
    have hresp := ((c.pre.state.recoveryToken_eq_some).1 ht).2.2.1
    have hn := h.responsive hresp
    obtain ⟨pings, hdialogue⟩ := hd hn
    refine ⟨h.current, nofun, fun authority' ha => ⟨n, ⟨?_, hn⟩, le_rfl, nofun⟩⟩
    obtain rfl := Option.some.inj ha
    exact ⟨socket, c, [], token, pings, rfl, he, hdialogue⟩
  | closed hcl => rcases hcl with rfl | rfl <;> cases he'
  | overflowed ho => rcases ho with rfl | rfl <;> cases he'
  | _ => cases he'

end

/-- A new socket attests nothing. -/
theorem Attested.new {c : CellCall} {generation : ℕ} (he : c.event = .connected generation) :
    Attested generation 0 [] c.post.state := by
  have hmove := c.move
  rw [he] at hmove
  generalize c.post.state = s' at *
  generalize he' : Event.connected generation = e at hmove
  cases hmove with
  | connected =>
    cases he'
    exact ⟨rfl, nofun, nofun⟩
  | closed hcl => rcases hcl with rfl | rfl <;> cases he'
  | overflowed ho => rcases ho with rfl | rfl <;> cases he'
  | _ => cases he'

/-! ## What was said on the socket -/

namespace Leg

/-- The generation of the socket. -/
def generation : Leg → Option ℕ
  | .apart => none
  | .connected generation | .written generation | .submitted generation | .listening generation
  | .turning generation _ | .ticked generation _ | .heard generation | .pinged generation _
  | .closing generation => some generation

/-- The task listens to the socket. -/
def attends : Leg → Bool
  | .turning _ _ | .ticked _ _ | .heard _ | .pinged _ _ => true
  | _ => false

/-- The actions on the socket so far, with `n` answered PINGs. -/
def Said : Leg → ℕ → List OwnAct → Prop
  | .apart, _, _ => True
  | .connected _, n, acts => n = 0 ∧ acts = []
  | .written _, n, acts => n = 0 ∧ acts = [.wrote]
  | .submitted generation, n, acts => n = 0 ∧ acts = [.wrote, .subscribed generation]
  | .listening generation, n, acts => n = 0 ∧ Dialogue generation 1 0 acts
  | .turning generation outstandingPing, n, acts =>
    Dialogue generation (n + outstandingPing.toNat) n acts
  | .ticked generation outstandingPing, n, acts => ∃ l tick, acts = l ++ [tick] ∧
    tick.ticks = true ∧ Dialogue generation (n + outstandingPing.toNat) n l
  | .heard generation, n, acts => ∃ l receipt,
    acts = l ++ [.received (.text pongText) receipt] ∧ Dialogue generation (n + 1) n l
  | .pinged generation outstandingPing, n, acts => ∃ l payload receipt,
    acts = l ++ [.received (.ping payload) receipt] ∧
      Dialogue generation (n + outstandingPing.toNat) n l
  -- a socket may be given up before its first PING
  | .closing generation, n, acts => 1 ≤ n → ∃ pings, Dialogue generation pings n acts

theorem still_of_ticks {a : OwnAct} (h : a.ticks = true) : a.still = true := by
  unfold OwnAct.ticks at h
  split at h <;> first | rfl | cases h

variable {w w' : Leg} {n : ℕ} {acts : List OwnAct} {a : OwnAct}

/-- Once a PING was answered, there is an exchange. -/
theorem Said.dialogue {generation : ℕ} (h : w.Said n acts)
    (hg : w.generation = some generation) (hn : 1 ≤ n) :
    ∃ pings, Dialogue generation pings n acts := by
  cases w with
  | apart => cases hg
  | connected | written | submitted | listening => exact absurd h.1 (by omega)
  | turning g o => obtain rfl := Option.some.inj hg; exact ⟨_, h⟩
  | ticked g o =>
    obtain rfl := Option.some.inj hg
    obtain ⟨l, tick, rfl, ht, hd⟩ := h
    exact ⟨_, hd.still (still_of_ticks ht)⟩
  | heard g =>
    obtain rfl := Option.some.inj hg
    obtain ⟨l, receipt, rfl, hd⟩ := h
    exact ⟨_, hd.still rfl⟩
  | pinged g o =>
    obtain rfl := Option.some.inj hg
    obtain ⟨l, payload, receipt, rfl, hd⟩ := h
    exact ⟨_, hd.still rfl⟩
  | closing g => obtain rfl := Option.some.inj hg; exact h hn

/-- An action on the socket goes on with what was said, and a liveness proof counts. -/
theorem Said.step (h : w.Said n acts) (hs : Step w a w') {generation : ℕ}
    (hw : w.generation = some generation) (hw' : w'.generation.isSome) :
    w'.generation = some generation ∧
      ((∀ g, a ≠ .proven g) ∧ w'.Said n (acts ++ [a]) ∨
        a = .proven generation ∧ w.attends = true ∧ w'.Said (n + 1) (acts ++ [a])) := by
  cases hs with
  | borrowed | tried | unconnected | connected => cases hw
  | disconnected => cases hw'
  | stay hr he =>
    refine ⟨hw, .inl ⟨(fun g hg => by cases hg; cases he), ?_⟩⟩
    cases w with
    | apart => cases hw
    | turning g o => exact Dialogue.still h (still_of_idle he _)
    | closing g =>
      intro hn
      obtain ⟨pings, hd⟩ := h hn
      exact ⟨pings, hd.still (still_of_idle he _)⟩
    | _ => exact hr.elim
  | written => obtain ⟨rfl, rfl⟩ := h; exact ⟨hw, .inl ⟨nofun, rfl, rfl⟩⟩
  | subscribed => obtain ⟨rfl, rfl⟩ := h; exact ⟨hw, .inl ⟨nofun, rfl, rfl⟩⟩
  | opened => obtain ⟨rfl, rfl⟩ := h; exact ⟨hw, .inl ⟨nofun, rfl, .opened⟩⟩
  | unwritten hw₀ =>
    rcases hw₀ with rfl | rfl <;> obtain ⟨rfl, rfl⟩ := h <;>
      exact ⟨hw, .inl ⟨nofun, fun hn => absurd hn (by omega)⟩⟩
  | began => obtain ⟨rfl, hd⟩ := h; exact ⟨hw, .inl ⟨nofun, hd.still rfl⟩⟩
  | again => exact ⟨hw, .inl ⟨nofun, Dialogue.still h rfl⟩⟩
  | quit hw₀ =>
    rcases hw₀ with rfl | ⟨o, rfl⟩
    · obtain ⟨rfl, -⟩ := h
      exact ⟨hw, .inl ⟨nofun, fun hn => absurd hn (by omega)⟩⟩
    · exact ⟨hw, .inl ⟨nofun, fun _ => ⟨_, Dialogue.still h rfl⟩⟩⟩
  | ticked ht =>
    exact ⟨hw, .inl ⟨(fun g hg => by subst hg; cases ht), acts, _, rfl, ht, h⟩⟩
  | waited hs => exact ⟨hw, .inl ⟨(fun g hg => by subst hg; cases hs), Dialogue.still h hs⟩⟩
  | heard => exact ⟨hw, .inl ⟨nofun, acts, _, rfl, h⟩⟩
  | pinged => exact ⟨hw, .inl ⟨nofun, acts, _, _, rfl, h⟩⟩
  | overdue =>
    obtain ⟨l, tick, rfl, ht, hd⟩ := h
    exact ⟨hw, .inl ⟨nofun, (hd.still (still_of_ticks ht)).still rfl⟩⟩
  | @sent g b =>
    obtain ⟨l, tick, rfl, ht, hd⟩ := h
    refine ⟨hw, .inl ⟨nofun, ?_⟩⟩
    cases b with
    | true => rw [List.append_assoc]; exact hd.pinged ht
    | false => exact (hd.still (still_of_ticks ht)).still rfl
  | proven =>
    obtain ⟨l, receipt, rfl, hd⟩ := h
    obtain rfl := Option.some.inj hw
    refine ⟨rfl, .inr ⟨rfl, rfl, ?_⟩⟩
    rw [List.append_assoc]
    exact hd.ponged
  | replied =>
    obtain ⟨l, payload, receipt, rfl, hd⟩ := h
    refine ⟨hw, .inl ⟨nofun, ?_⟩⟩
    rw [List.append_assoc]
    exact hd.replied

/-- The task begins to listen only under a lowered flag. -/
theorem Step.of_attends (hs : Step w a w') (hw : w.attends = false) (hw' : w'.attends = true) :
    a = ⟨.borrowShutdown, false⟩ := by
  cases hs with
  | began => rfl
  | stay => rw [hw] at hw'; cases hw'
  | again | ticked | waited | heard | pinged | overdue | sent | proven | replied => cases hw
  | _ => cases hw'

theorem Step.of_connect {r : Except AuthenticatedUserCounterExhaustion ℕ}
    (hs : Step w ⟨.tryMarkConnected, r⟩ w') : w = .apart := by
  generalize ha : (⟨.tryMarkConnected, r⟩ : OwnAct) = a at hs
  cases hs with
  | connected | unconnected => rfl
  | stay hr he => cases ha; cases he
  | ticked ht => subst ha; cases ht
  | waited hs => subst ha; cases hs
  | _ => cases ha

theorem Step.of_some {generation : ℕ} (hs : Step w a w') (hw : w.generation = none)
    (hw' : w'.generation = some generation) :
    a = ⟨.tryMarkConnected, .ok generation⟩ ∧ w' = .connected generation := by
  cases hs with
  | connected => obtain rfl := Option.some.inj hw'; exact ⟨rfl, rfl⟩
  | stay => rw [hw] at hw'; cases hw'
  | disconnected | borrowed | tried | unconnected => cases hw'
  | unwritten hw₀ => rcases hw₀ with rfl | rfl <;> cases hw
  | quit hw₀ => rcases hw₀ with rfl | ⟨o, rfl⟩ <;> cases hw
  | _ => cases hw

end Leg

/-! ## The session -/

namespace LiveSession

/-- What the session shows of its socket. -/
structure OnCourse (w : Course) (x : LiveSession) : Prop where
  apart : w.phase = .apart → x.cell.state.connection ≠ .connected
  flag : .shutdown ∈ x.trace ↔ x.shutdownTx = true
  socket : ∀ generation, w.phase.generation = some generation → ∃ before socket n,
    x.trace = before ++ .own ⟨.tryMarkConnected, .ok generation⟩ :: socket ∧
      w.phase.Said n (spoken socket) ∧
      (w.phase.attends = true ∨ 1 ≤ n → LiveEntry.shutdown ∉ before) ∧
      (x.cell.state.connection = .connected → Attested generation n socket x.cell.state)

variable {w w' : Course} {x x' : LiveSession}

theorem OnCourse.start (credentialIdentity : AuthenticatedCredentialIdentity) :
    OnCourse {} { cell := .newWithIdentity credentialIdentity } where
  apart _ := nofun
  flag := ⟨nofun, nofun⟩
  socket := nofun

/-- The event of the call that an action makes. -/
theorem event_of_act {e : ConnectionAct} {r : e.Answer} {op : Op} {reply : Reply}
    (h : e.cellCall r = some (op, reply)) (hout : (x.call op).out = reply) :
    (∀ generation, (x.call op).event = .connected generation →
      (⟨e, r⟩ : OwnAct) = ⟨.tryMarkConnected, .ok generation⟩) ∧
    (∀ generation, (x.call op).event = .responded generation →
      (⟨e, r⟩ : OwnAct) = OwnAct.proven generation) ∧
    ∀ token authority, (x.call op).event ≠ .proven token authority := by
  unfold CellCall.event
  rw [hout]
  refine ⟨fun generation he => ?_, fun generation he => ?_, fun token authority he => ?_⟩
  · obtain ⟨hop, rfl⟩ := Op.event_connected he
    change op = _ at hop
    subst hop
    cases e with
    | tryMarkConnected => cases h; rfl
    | reserveRawFrameCapacity => rcases r with _ | _ | (_ | _) <;> cases h
    | _ => cases h
  · have hop := Op.event_responded he
    change op = _ at hop
    subst hop
    cases e with
    | call op' => cases h; rfl
    | reserveRawFrameCapacity => rcases r with _ | _ | (_ | _) <;> cases h
    | _ => cases h
  · obtain ⟨floor, rfl⟩ := Op.event_proven he
    cases e with
    | reserveRawFrameCapacity => rcases r with _ | _ | (_ | _) <;> cases h
    | _ => cases h

/-- A channel that is not connected becomes connected by the task alone. -/
theorem not_connected_after {e : ConnectionAct} {r : e.Answer}
    (hcall : ∀ op reply, e.cellCall r = some (op, reply) → (x.call op).out = reply)
    (hne : ∀ generation, (⟨e, r⟩ : OwnAct) ≠ ⟨.tryMarkConnected, .ok generation⟩)
    (h : x.cell.state.connection ≠ .connected) :
    (x.after e r).cell.state.connection ≠ .connected := by
  intro hc
  cases hcc : e.cellCall r with
  | none =>
    rw [after, ConnectionAct.cellAfter_none hcc] at hc
    exact h hc
  | some call =>
    obtain ⟨op, reply⟩ := call
    rw [after, ConnectionAct.cellAfter_call hcc] at hc
    rcases (x.call op).move.connected_cases hc with ⟨he, -⟩ | ⟨-, hpre⟩
    · exact hne _ ((event_of_act hcc (hcall _ _ hcc)).1 _ he)
    · exact h hpre

/-- The event of a call of a handle. -/
theorem event_of_handle {op : Op} (h : op.ofTask = false) :
    (∀ generation, (x.call op).event ≠ .connected generation) ∧
      ∀ generation, (x.call op).event ≠ .responded generation := by
  refine ⟨fun generation he => ?_, fun generation he => ?_⟩
  · obtain ⟨hop, -⟩ := Op.event_connected he
    change op = _ at hop
    subst hop
    cases h
  · have hop := Op.event_responded he
    change op = _ at hop
    subst hop
    cases h

theorem OnCourse.handle (h : x.OnCourse w) (hs : Handle x x') : x'.OnCourse w := by
  cases hs with
  | shutdown =>
    refine ⟨h.apart, ⟨fun _ => rfl, fun _ => by simp⟩, fun generation hg => ?_⟩
    obtain ⟨before, socket, n, htrace, hsaid, hflag, hatt⟩ := h.socket generation hg
    refine ⟨before, socket ++ [.shutdown], n, ?_, ?_, hflag, fun hc => ?_⟩
    · simp [htrace]
    · simpa using hsaid
    · exact (hatt hc).mono _ rfl le_rfl .inl fun _ => id
  | @call op hop =>
    obtain ⟨hconn, hresp⟩ := event_of_handle (x := x) hop
    have hstays : (x.call op).post.state.connection = .connected →
        x.cell.state.connection = .connected := by
      intro hc
      rcases (x.call op).move.connected_cases hc with ⟨he, -⟩ | ⟨-, hpre⟩
      · exact absurd he (hconn _)
      · exact hpre
    refine ⟨fun hw hc => h.apart hw (hstays hc), ?_, fun generation hg => ?_⟩
    · simpa using h.flag
    · obtain ⟨before, socket, n, htrace, hsaid, hflag, hatt⟩ := h.socket generation hg
      refine ⟨before, socket ++ [.other (x.call op)], n, ?_, ?_, hflag, fun hc => ?_⟩
      · simp [htrace]
      · simpa using hsaid
      · have hpre : Attested generation n socket (x.call op).pre.state := hatt (hstays hc)
        by_cases hproof : ∃ token authority, (x.call op).event = .proven token authority
        · obtain ⟨token, authority, he⟩ := hproof
          exact hpre.prove he (hsaid.dialogue hg)
        · exact hpre.call _ hconn hresp (fun t a he => hproof ⟨t, a, he⟩) hc

/-- A channel that is told so is disconnected. -/
theorem disconnected_after (x : LiveSession) :
    (x.after (.call .markDisconnected) ()).cell.state.connection ≠ .connected := by
  have hclosed := x.cell.failClosedAfterPoison_closed.connection
  change (x.cell.markDisconnected.map fun _ => Reply.unit).settle.1.state.connection ≠ .connected
  simp only [StateCell.markDisconnected, StateCell.modify, StateCell.update, StateCell.lock]
  split_ifs with hp hs
  · exact fun h => by cases hclosed.symm.trans h
  · exact fun h => by cases hclosed.symm.trans h
  · change x.cell.state.markDisconnected.connection ≠ .connected
    unfold AuthenticatedUserWsState.markDisconnected
    rcases AuthenticatedUserWsState.advanceGapVersion_cases _ with ⟨-, h⟩ | ⟨-, h⟩ <;> rw [h] <;>
      intro hc <;> cases hc

theorem OnCourse.wait (h : x.OnCourse w) (hw : w.phase = .apart) {delay : Duration} {r : Bool}
    {waits : ℕ} {ending : Bool} :
    (x.after (.waitOrShutdown delay) r).OnCourse ⟨.apart, waits, ending⟩ where
  apart _ := h.apart hw
  flag := by simpa [after] using h.flag
  socket := nofun

/-- Where the course is apart, the cell knows of no socket. -/
theorem OnCourse.leave (h : x.OnCourse w) {e : ConnectionAct} {r : e.Answer}
    (hcall : ∀ op reply, e.cellCall r = some (op, reply) → (x.call op).out = reply)
    (hstep : w.phase.Step ⟨e, r⟩ .apart) : (x.after e r).cell.state.connection ≠ .connected := by
  by_cases hw : w.phase = .apart
  · refine not_connected_after hcall (fun generation ha => ?_) (h.apart hw)
    rw [hw, ha] at hstep
    cases hstep with
    | stay hr he => cases he
  · generalize hp : w.phase = phase, ha : (⟨e, r⟩ : OwnAct) = a, hq : Leg.apart = phase'
      at hstep hw
    cases hstep with
    | disconnected =>
      cases ha
      exact disconnected_after x
    | stay => exact absurd rfl hw
    | borrowed | tried | unconnected => exact absurd rfl hw
    | _ => cases hq

/-- An action on the socket is attested like what came before it. -/
theorem attested_after {generation n m : ℕ} {socket : List LiveEntry} {e : ConnectionAct}
    {r : e.Answer} (h : x.cell.state.connection = .connected →
      Attested generation n socket x.cell.state)
    (hcall : ∀ op reply, e.cellCall r = some (op, reply) → (x.call op).out = reply)
    (hne : ∀ g, (⟨e, r⟩ : OwnAct) ≠ ⟨.tryMarkConnected, .ok g⟩)
    (hm : (∀ g, (⟨e, r⟩ : OwnAct) ≠ OwnAct.proven g) ∧ m = n ∨ m = n + 1)
    (hc : (x.after e r).cell.state.connection = .connected) :
    Attested generation m (socket ++ [.own ⟨e, r⟩]) (x.after e r).cell.state := by
  have hpre : Attested generation n socket x.cell.state := by
    refine h ?_
    by_contra hx
    exact not_connected_after hcall hne hx hc
  cases hcc : e.cellCall r with
  | none =>
    rw [after, ConnectionAct.cellAfter_none hcc]
    rcases hm with ⟨-, rfl⟩ | rfl
    · exact hpre.mono _ rfl le_rfl .inl fun _ => id
    · exact hpre.mono _ rfl (Nat.le_succ n) (fun _ => .inr n.lt_succ_self) fun _ => id
  | some call =>
    obtain ⟨op, reply⟩ := call
    obtain ⟨hconn, hresp, hproven⟩ := event_of_act hcc (hcall _ _ hcc)
    have hconn' : ∀ g, (x.call op).event ≠ .connected g := fun g he => hne g (hconn g he)
    rw [after, ConnectionAct.cellAfter_call hcc] at hc ⊢
    rcases hm with ⟨hp, rfl⟩ | rfl
    · exact Attested.call (c := x.call op) hpre _ hconn' (fun g he => hp g (hresp g he)) hproven hc
    · exact Attested.respond (c := x.call op) hpre _ hconn' hproven hc

/-- The step that opens a socket. -/
theorem connect_after {generation : ℕ}
    (hcall : (x.call .tryMarkConnected).out = .connection (.ok generation)) :
    ∃ before socket n, (x.after .tryMarkConnected (.ok generation)).trace =
        before ++ .own ⟨.tryMarkConnected, .ok generation⟩ :: socket ∧
      (Leg.connected generation).Said n (spoken socket) ∧
      ((Leg.connected generation).attends = true ∨ 1 ≤ n → LiveEntry.shutdown ∉ before) ∧
      ((x.after .tryMarkConnected (.ok generation)).cell.state.connection = .connected →
        Attested generation n socket (x.after .tryMarkConnected (.ok generation)).cell.state) := by
  refine ⟨x.trace, [], 0, rfl, ⟨rfl, rfl⟩, ?_, fun _ => ?_⟩
  · rintro (ha | hn)
    · cases ha
    · omega
  · rw [after, ConnectionAct.cellAfter_call rfl]
    refine Attested.new (c := x.call .tryMarkConnected) ?_
    unfold CellCall.event
    rw [hcall]
    rfl

theorem OnCourse.pass (h : x.OnCourse w) {e : ConnectionAct} {r : e.Answer}
    (hreads : e.Reads x.shutdownTx r)
    (hcall : ∀ op reply, e.cellCall r = some (op, reply) → (x.call op).out = reply)
    (hstep : w.phase.Step ⟨e, r⟩ w'.phase) : (x.after e r).OnCourse w' where
  apart hw' := h.leave hcall (hw' ▸ hstep)
  flag := by simpa [after] using h.flag
  socket generation hg := by
    cases hw : w.phase.generation with
    | none =>
      obtain ⟨ha, hphase⟩ := hstep.of_some hw hg
      cases ha
      rw [hphase]
      exact connect_after (hcall _ _ rfl)
    | some generation' =>
      obtain ⟨before, socket, n, htrace, hsaid, hflag, hatt⟩ := h.socket generation' hw
      obtain ⟨hsame, hnext⟩ := hsaid.step hstep hw (by rw [hg]; rfl)
      obtain rfl := Option.some.inj (hg.symm.trans hsame)
      have hne : ∀ g, (⟨e, r⟩ : OwnAct) ≠ ⟨.tryMarkConnected, .ok g⟩ := by
        intro g ha
        rw [ha] at hstep
        rw [hstep.of_connect] at hw
        cases hw
      have hlow : ∀ m, w'.phase.attends = true ∨ 1 ≤ m → (1 ≤ m → 1 ≤ n ∨ w.phase.attends = true) →
          LiveEntry.shutdown ∉ before := by
        intro m hm hn
        by_cases ha : w.phase.attends = true ∨ 1 ≤ n
        · exact hflag ha
        · rcases hm with hm | hm
          · have hb := hstep.of_attends (eq_false_of_ne_true fun h => ha (.inl h)) hm
            cases hb
            intro hmem
            have hraised := h.flag.1 (by rw [htrace]; exact List.mem_append_left _ hmem)
            cases hreads.trans hraised
          · exact absurd ((hn hm).symm) ha
      have hafter : (x.after e r).trace = before ++ .own ⟨.tryMarkConnected, .ok generation⟩ ::
          (socket ++ [.own ⟨e, r⟩]) := by simp [after, htrace]
      rcases hnext with ⟨hproven, hsaid'⟩ | ⟨-, hattends, hsaid'⟩
      · refine ⟨before, _, n, hafter, by simpa using hsaid', fun hm => ?_, fun hc => ?_⟩
        · exact hlow n hm .inl
        · exact attested_after hatt hcall hne (.inl ⟨hproven, rfl⟩) hc
      · refine ⟨before, _, n + 1, hafter, by simpa using hsaid', fun hm => ?_, fun hc => ?_⟩
        · exact hlow (n + 1) hm fun _ => .inr hattends
        · exact attested_after hatt hcall hne (.inr rfl) hc

theorem OnCourse.own {config : AuthenticatedUserWsConfig} (h : x.OnCourse w) {e : ConnectionAct}
    {r : e.Answer} (hd : liveWorld.does () e x r x')
    (hnext : (course config).next w ⟨e, r⟩ = some w') : x'.OnCourse w' := by
  obtain ⟨hcall, hreads, rfl⟩ := hd
  rcases Course.next_cases hnext with ⟨delay, b, ha, hw, -, rfl⟩ | ⟨hstep, -, -, -⟩
  · cases ha
    exact h.wait hw
  · exact h.pass hreads hcall hstep

end LiveSession

/-! ## Every run -/

section

variable {json : List UInt8 → Option FrameValue} {config : AuthenticatedUserWsConfig}
  {credentialIdentity : AuthenticatedCredentialIdentity}
  {task : ConnectionLoop (Option LoopPoint)} {x : LiveSession}

theorem LiveRun.onCourse (h : LiveRun json config credentialIdentity task x) :
    ∃ w, x.OnCourse w ∧ task.Follows (course config) (Course.Leads config) w := by
  have hstart : Course.Leads config (some (.connect 0 config.initialReconnectDelay)) {} :=
    ⟨rfl, rfl, rfl⟩
  exact World.looping_leads (fun k w hk => Course.turn_follows_course k hk)
    (fun w e s r s' w' hw hd hnext => hw.own hd hnext) (fun w s s' hw hs => hw.handle hs)
    (LiveSession.OnCourse.start credentialIdentity) hstart h

/-- An intact channel authority stands on a socket that the task opened before the shutdown
    flag was raised; on it, and in this order, the subscription and a PING were written, a
    PING was answered, the REST proof was recorded, and another PING was answered. -/
theorem readiness_heard (h : LiveRun json config credentialIdentity task x)
    (hr : x.cell.state.channelAuthorityIntact) :
    ∃ before first c second token authority pings pings' m n,
      x.trace = before ++ .own ⟨.tryMarkConnected, .ok x.cell.state.generation⟩ ::
        (first ++ .other c :: second) ∧
      LiveEntry.shutdown ∉ before ∧
      c.event = .proven token authority ∧
      x.cell.state.restCredentialAuthority = some authority ∧
      Dialogue x.cell.state.generation pings m (spoken first) ∧ 1 ≤ m ∧
      Dialogue x.cell.state.generation pings' n (spoken (first ++ .other c :: second)) ∧
      m < n := by
  obtain ⟨w, hon, -⟩ := h.onCourse
  obtain ⟨hconn, -, hresp, -, -, hauth, -⟩ := hr
  obtain ⟨authority, hauthority⟩ := Option.isSome_iff_exists.1 hauth
  cases hg : w.phase.generation with
  | none =>
    have hapart : w.phase = .apart := by
      cases hp : w.phase <;> rw [hp] at hg <;> first | rfl | cases hg
    exact absurd hconn (hon.apart hapart)
  | some generation =>
    obtain ⟨before, socket, n, htrace, hsaid, hflag, hatt⟩ := hon.socket generation hg
    have hattested := hatt hconn
    have hn := hattested.responsive hresp
    obtain ⟨m, hproof, -, hlt⟩ := hattested.proven authority hauthority
    obtain ⟨first, c, second, token, pings, rfl, he, hfirst⟩ := hproof.recorded
    obtain ⟨pings', hdialogue⟩ := hsaid.dialogue hg hn
    rw [hattested.current]
    exact ⟨before, first, c, second, token, authority, pings, pings', m, n, htrace,
      hflag (.inr hn), he, hauthority, hfirst, hproof.answered, hdialogue, hlt hresp⟩

/-- No socket is opened within an exchange. -/
theorem Dialogue.not_connect {generation pings pongs : ℕ} {acts : List OwnAct}
    (h : Dialogue generation pings pongs acts) (g : ℕ) :
    (⟨.tryMarkConnected, .ok g⟩ : OwnAct) ∉ acts := by
  induction h with
  | opened => simp [OwnAct.wrote, OwnAct.subscribed]
  | @pinged n acts tick _ ht ih =>
    have htick : (⟨.tryMarkConnected, .ok g⟩ : OwnAct) ≠ tick := by rintro rfl; cases ht
    simp [ih, htick, OwnAct.sent]
  | ponged _ ih => simp [ih, OwnAct.received, OwnAct.proven]
  | replied _ ih => simp [ih, OwnAct.received, OwnAct.sent]
  | @still _ _ acts a _ ha ih =>
    have hne : (⟨.tryMarkConnected, .ok g⟩ : OwnAct) ≠ a := by rintro rfl; cases ha
    simp [ih, hne]

/-- A session that goes on from one that is not connected gets connected by its task. -/
theorem LiveStep.reconnects {c c' : ConnectionLoop (Option LoopPoint) × LiveSession}
    (h : Relation.ReflTransGen (LiveStep json config) c c')
    (hc : c.2.cell.state.connection ≠ .connected) :
    ∃ more, c'.2.trace = c.2.trace ++ more ∧
      (c'.2.cell.state.connection = .connected →
        ∃ g, (⟨.tryMarkConnected, .ok g⟩ : OwnAct) ∈ spoken more) := by
  induction h with
  | refl => exact ⟨[], (List.append_nil _).symm, fun h => absurd h hc⟩
  | tail _ hstep ih =>
    obtain ⟨more, htrace, hmore⟩ := ih
    have hsnoc : ∀ s : LiveSession, s.trace = c.2.trace ++ more → ∀ entry,
        s.trace ++ [entry] = c.2.trace ++ (more ++ [entry]) := by
      intro s hs entry
      rw [hs, List.append_assoc]
    cases hstep with
    | turn => exact ⟨more, htrace, hmore⟩
    | along halong =>
      cases halong with
      | @own e k s _ r hd =>
        obtain ⟨hcall, -, rfl⟩ := hd
        refine ⟨more ++ [LiveEntry.own ⟨e, r⟩], hsnoc s htrace _, fun hconn => ?_⟩
        by_contra hn
        simp only [spoken_append, spoken_own, List.mem_append, List.mem_singleton,
          not_exists, not_or] at hn
        refine LiveSession.not_connected_after hcall (fun g ha => (hn g).2 ha.symm) ?_ hconn
        exact fun hpre => (hmore hpre).elim fun g hg => (hn g).1 hg
      | @other _ s _ ho =>
        cases ho with
        | shutdown => exact ⟨more ++ [.shutdown], hsnoc s htrace _, by simpa using hmore⟩
        | @call op hop =>
          refine ⟨more ++ [.other (s.call op)], hsnoc s htrace _, fun hconn => ?_⟩
          rcases (s.call op).move.connected_cases hconn with ⟨he, -⟩ | ⟨-, hpre⟩
          · exact absurd he ((LiveSession.event_of_handle hop).1 _)
          · simpa using hmore hpre

/-- A shutdown is final: where the flag is raised and the channel is not connected, as
    `request_shutdown` leaves them, the authority of the channel never becomes intact again. -/
theorem shutdown_is_final (h : LiveRun json config credentialIdentity task x)
    (hs : x.shutdownTx = true) (hc : x.cell.state.connection ≠ .connected)
    {task' : ConnectionLoop (Option LoopPoint)} {x' : LiveSession}
    (h' : Relation.ReflTransGen (LiveStep json config) (task, x) (task', x')) :
    ¬ x'.cell.state.channelAuthorityIntact := by
  intro hr
  obtain ⟨w, hon, -⟩ := h.onCourse
  have hraised := hon.flag.2 hs
  have hrun' : LiveRun json config credentialIdentity task' x' := Relation.ReflTransGen.trans h h'
  obtain ⟨before, first, c, second, _, _, _, _, _, _, htrace, hlow, -, -, -, -, hdialogue, -⟩ :=
    readiness_heard hrun' hr
  obtain ⟨more, hmore, hconnect⟩ := LiveStep.reconnects h' hc
  obtain ⟨g, hg⟩ := hconnect hr.1
  rw [hmore] at htrace
  rcases List.append_eq_append_iff.1 htrace with ⟨l, hl, -⟩ | ⟨l, hl, hrest⟩
  · exact hlow (hl ▸ List.mem_append_left _ hraised)
  · cases l with
    | nil =>
      rw [List.append_nil] at hl
      exact hlow (hl ▸ hraised)
    | cons a l =>
      have hrest : first ++ .other c :: second = l ++ more := (List.cons.inj hrest).2
      refine hdialogue.not_connect g ?_
      rw [hrest, spoken_append]
      exact List.mem_append_right _ hg

/-- A cell whose socket was heard twice, around its REST proof. -/
def heardCell : StateCell := cellMachine.exec (.newWithIdentity {})
  [.markConnecting, .tryMarkConnected, .markSubscriptionWritten 1, .reserveRawFrameCapacity,
    .markServerLivenessProven 1, .dropRawFrameCapacity, recoveryProof, .reserveRawFrameCapacity,
    .markServerLivenessProven 1]

def heardFinalization : AuthenticatedUserCatchUpFinalization :=
  (heardCell.prepareCatchUpFinalization ⟨1, 1, {}⟩ (sampleAuthority 0) 0 1).result.get (by decide)

def heardCommit : CellCall := ⟨heardCell, .commitCatchUpFinalization heardFinalization⟩

theorem heardCommit_intact : heardCommit.post.releaseCapacity.state.channelAuthorityIntact := by
  decide

/-- A session that hears two PONGs around its REST proof, up to the commit. -/
theorem heard_run : ∃ x : LiveSession, LiveRun (fun _ => none) ⟨1, 1, none⟩ {}
    (.ret (some (.socket 1 false))) x ∧ x.cell = heardCommit.post.releaseCapacity := by
  have hstart : LiveRun (fun _ => none) ⟨1, 1, none⟩ {} (.ret (some (.connect 0 1)))
    { cell := .newWithIdentity {} } := .refl
  have h1 := hstart.turn.act false (by rintro _ _ ⟨⟩) rfl
  have h2 := h1.act () (by rintro _ _ ⟨⟩; rfl) trivial
  have h3 := h2.act (.done true) (by rintro _ _ ⟨⟩) trivial
  have h4 := h3.act (.ok 1) (by rintro _ _ ⟨⟩; rfl) trivial
  have h5 := h4.act (.done true) (by rintro _ _ ⟨⟩) trivial
  have h6 := h5.act () (by rintro _ _ ⟨⟩; rfl) trivial
  have h7 := h6.act (.done true) (by rintro _ _ ⟨⟩) trivial
  -- the first PONG, and the REST proof
  have h8 := h7.turn.act false (by rintro _ _ ⟨⟩) rfl
  have h9 := h8.act (.permit true) (by rintro _ _ ⟨⟩) trivial
  have h10 := h9.act (.capacity true) (by rintro _ _ ⟨⟩; rfl) trivial
  have h11 := h10.act (.received (some (.ok (.text pongText))) (some ⟨0, 1, 1⟩))
    (by rintro _ _ ⟨⟩) trivial
  have h12 := h11.act () (by rintro _ _ ⟨⟩; rfl) trivial
  have h13 := h12.act () (by rintro _ _ ⟨⟩; rfl) trivial
  have h14 := h13.handle (@LiveSession.Handle.call _ recoveryProof rfl)
  -- the second PING, and its PONG
  have h15 := h14.turn.act false (by rintro _ _ ⟨⟩) rfl
  have h16 := h15.act .heartbeat (by rintro _ _ ⟨⟩) trivial
  have h17 := h16.act true (by rintro _ _ ⟨⟩) trivial
  have h18 := h17.turn.act false (by rintro _ _ ⟨⟩) rfl
  have h19 := h18.act (.permit true) (by rintro _ _ ⟨⟩) trivial
  have h20 := h19.act (.capacity true) (by rintro _ _ ⟨⟩; rfl) trivial
  have h21 := h20.act (.received (some (.ok (.text pongText))) (some ⟨0, 1, 1⟩))
    (by rintro _ _ ⟨⟩) trivial
  have h22 := h21.act () (by rintro _ _ ⟨⟩; rfl) trivial
  have h23 := h22.handle (@LiveSession.Handle.call _ (.commitCatchUpFinalization heardFinalization)
    rfl)
  have h24 := h23.act () (by rintro _ _ ⟨⟩; rfl) trivial
  exact ⟨_, h24, rfl⟩

/-- A session that hears two PONGs around its REST proof becomes intact. -/
theorem readiness_heard_recovered : ∃ (task : ConnectionLoop (Option LoopPoint)) (x : LiveSession),
    LiveRun (fun _ => none) ⟨1, 1, none⟩ {} task x ∧ x.cell.state.channelAuthorityIntact ∧
      ∃ generation pings n acts, Dialogue generation pings n acts ∧ 2 ≤ n := by
  obtain ⟨x, hrun, hcell⟩ := heard_run
  have hintact : x.cell.state.channelAuthorityIntact := hcell ▸ heardCommit_intact
  refine ⟨_, x, hrun, hintact, ?_⟩
  obtain ⟨_, _, _, _, _, _, _, pings, _, n, -, -, -, -, -, hm, hdialogue, hn⟩ :=
    readiness_heard hrun hintact
  exact ⟨_, pings, n, _, hdialogue, by omega⟩

/-- A task that finds the flag raised, with an open socket, ends. -/
theorem LiveStep.shut (hx : x.shutdownTx = true) (generation : ℕ) (outstandingPing : Bool) :
    ∃ x' : LiveSession, Relation.ReflTransGen (LiveStep json config)
      (.ret (some (.socket generation outstandingPing)), x) (.ret none, x') := by
  refine ⟨?ended, .head .turn (.head (.along (.own ⟨by rintro _ _ ⟨⟩, hx.symm, rfl⟩)) ?closed)⟩
  case closed =>
    refine .head (.along (.own (r := true) ⟨by rintro _ _ ⟨⟩, trivial, rfl⟩)) ?_
    refine .head (.along (.own (r := ()) ⟨fun _ _ h => by cases h; rfl, trivial, rfl⟩)) ?_
    refine .head (.along (.own ⟨by rintro _ _ ⟨⟩, hx.symm, rfl⟩)) ?_
    refine .head (.along (.own (r := ()) ⟨fun _ _ h => by cases h; rfl, trivial, rfl⟩)) ?_
    exact .refl

/-- The shutdown of an intact session is requested. -/
theorem heard_requested : ∃ x x' : LiveSession,
    LiveRun (fun _ => none) ⟨1, 1, none⟩ {} (.ret (some (.socket 1 false))) x ∧
      x.cell.state.channelAuthorityIntact ∧ Relation.ReflTransGen LiveSession.Handle x x' ∧
      LiveRun (fun _ => none) ⟨1, 1, none⟩ {} (.ret (some (.socket 1 false))) x' ∧
      x'.shutdownTx = true ∧ x'.cell.state.connection ≠ .connected := by
  obtain ⟨x, hrun, hcell⟩ := heard_run
  have hdisconnect := @LiveSession.Handle.call x .markDisconnected rfl
  refine ⟨x, _, hrun, hcell ▸ heardCommit_intact, .tail (.single hdisconnect) .shutdown,
    (hrun.handle hdisconnect).handle .shutdown, rfl, ?_⟩
  show (x.call .markDisconnected).post.state.connection ≠ .connected
  rw [LiveSession.call, hcell]
  decide

/-- An intact session whose shutdown is requested: the task closes its socket and ends. -/
theorem shutdown_is_final_requested :
    ∃ (x x' x'' : LiveSession) (task : ConnectionLoop (Option LoopPoint)),
      x.cell.state.channelAuthorityIntact ∧ Relation.ReflTransGen LiveSession.Handle x x' ∧
      x'.shutdownTx = true ∧ Relation.ReflTransGen (LiveStep (fun _ => none) ⟨1, 1, none⟩)
        (task, x') (.ret none, x'') ∧ ¬ x''.cell.state.channelAuthorityIntact := by
  obtain ⟨x, x', -, hintact, hhandles, hrun, hraised, happart⟩ := heard_requested
  obtain ⟨x'', hended⟩ := LiveStep.shut hraised 1 false
  exact ⟨x, x', x'', _, hintact, hhandles, hraised, hended,
    shutdown_is_final hrun hraised happart hended⟩

/-- A task that has ended leaves a channel that is not connected, and has a reason: the flag
    was raised, the cell is closed for good, or no further attempt is due. -/
theorem session_over (h : LiveRun json config credentialIdentity (.ret none) x) :
    x.cell.state.connection ≠ .connected ∧
      (x.shutdownTx = true ∨ x.cell.state.Dead ∨
        config.Exhausted (OwnAct.waits x.own.reverse)) := by
  obtain ⟨w, hon, hend⟩ := h.onCourse
  obtain ⟨w', hpaced, hend'⟩ := h.paced
  refine ⟨hon.apart hend.1, ?_⟩
  rcases hend'.2 with he | he
  · exact (hpaced.ending he).imp id .inl
  · rw [← hpaced.waits] at he
    exact .inr (.inr he)

end

/-- An intact session whose shutdown is requested, up to the end of its task. -/
theorem session_over_shutdown : ∃ (x x' : LiveSession) (task : ConnectionLoop (Option LoopPoint)),
    LiveRun (fun _ => none) ⟨1, 1, none⟩ {} task x ∧ x.cell.state.channelAuthorityIntact ∧
      Relation.ReflTransGen (LiveStep (fun _ => none) ⟨1, 1, none⟩) (task, x) (.ret none, x') ∧
      x'.cell.state.connection ≠ .connected := by
  obtain ⟨x, x', hrun, hintact, hhandles, -, hraised, -⟩ := heard_requested
  obtain ⟨x'', hended⟩ := LiveStep.shut hraised 1 false
  have hover := (hhandles.lift (fun s => (_, s)) fun _ _ hs => .along (.other hs)).trans hended
  exact ⟨x, x'', _, hrun, hintact, hover, (session_over (hrun.trans hover)).1⟩

end Rspm
