/-
  The loop keeps to its course.

  `turn_follows`: from wherever a turn of the connection loop begins, its actions
  are steps of the course, whatever they answer, and they lead to where the next
  turn begins, or to the end of the task with a reason for it.
-/
import Rspm.Ws.Course

namespace Rspm

open Prog

namespace Course

variable {config : AuthenticatedUserWsConfig} {w : Course}

/-- The course rests, with `n` waits behind it. -/
def Rests (n : ℕ) (w : Course) : Prop := w.phase.Resting ∧ w.waits = n

/-- Where a turn begins. -/
def At (config : AuthenticatedUserWsConfig) : LoopPoint → Course → Prop
  | .connect reconnectAttempt reconnectDelay, w =>
    w.phase = .apart ∧ w.waits = reconnectAttempt ∧ reconnectDelay = config.pace reconnectAttempt
  | .socket generation outstandingPing, w =>
    (w.phase = .listening generation ∧ outstandingPing = true ∨
      w.phase = .turning generation outstandingPing) ∧ w.waits = 0

/-- Where a turn leads, or why it ends the task. -/
def Leads (config : AuthenticatedUserWsConfig) : Option LoopPoint → Course → Prop
  | some k, w => At config k w
  | none, w => w.phase = .apart ∧ (w.ending = true ∨ config.Exhausted w.waits)

/-- Where a turn of the frame loop ends. -/
def Turned (generation : ℕ) : Turn → Course → Prop
  | .again outstandingPing, w => w.phase = .turning generation outstandingPing ∧ w.waits = 0
  | .leave, w => w.Rests 0

theorem next_idle (hw : w.phase.Resting) {e : ConnectionAct} (he : e.idle = true)
    (r : e.Answer) : (course config).next w ⟨e, r⟩ = some w := by
  obtain ⟨phase, waits, ending⟩ := w
  have hstep : pass ⟨phase, waits, ending⟩ ⟨e, r⟩ = some ⟨phase, waits, ending⟩ := by
    have hstay : phase.next ⟨e, r⟩ = some phase := by
      cases phase with
      | apart | turning | closing =>
        cases e with
        | call op => cases op <;> first | rfl | cases he
        | _ => first | rfl | cases he
      | _ => exact hw.elim
    have hfinal : OwnAct.final ⟨e, r⟩ = false := by cases e <;> first | rfl | cases he
    have hopens : phase.opens = false := by cases phase <;> first | rfl | exact hw.elim
    simp only [pass, hstay, Option.map_some, hfinal, hopens, Bool.false_eq_true, if_false,
      Bool.or_false]
  cases e <;> first | exact hstep | cases he

theorem next_disconnected (hw : w.phase.Resting) (r : Unit) :
    (course config).next w ⟨.call .markDisconnected, r⟩ = some ⟨.apart, w.waits, w.ending⟩ := by
  obtain ⟨phase, waits, ending⟩ := w
  change pass ⟨phase, waits, ending⟩ ⟨.call .markDisconnected, r⟩ = _
  cases phase with
  | apart | turning | closing => simp [pass, Leg.next, Leg.apartNext, Leg.turningNext,
      Leg.stay, Leg.opens, OwnAct.final]
  | _ => exact hw.elim

/-! ## Idle programs -/

open ConnectionLoop

variable {json : List UInt8 → Option FrameValue} {α : Type}

/-- All the actions of the program are idle. -/
def Idle (p : ConnectionLoop α) : Prop := p.All fun e => e.idle = true

theorem Idle.follows {Q : α → Course → Prop} {p : ConnectionLoop α} (hp : Idle p)
    (hw : w.phase.Resting) (hQ : ∀ a, Q a w) : p.Follows (course config) Q w := by
  refine (All.follows (fun _ r he => next_idle hw he r) hp).mono fun a w' hw' => ?_
  rw [hw']
  exact hQ a

/-- An idle action, and the rest of the program. -/
theorem follows_idle {Q : α → Course → Prop} {e : ConnectionAct}
    {k : e.Answer → ConnectionLoop α} (hw : w.phase.Resting) (he : e.idle = true)
    (hk : ∀ r, (k r).Follows (course config) Q w) :
    (Prog.act e k : ConnectionLoop α).Follows (course config) Q w :=
  fun r => ⟨w, next_idle hw he r, hk r⟩

theorem follows_disconnected {Q : α → Course → Prop} {k : Unit → ConnectionLoop α}
    (hw : w.phase.Resting)
    (hk : ∀ r, (k r).Follows (course config) Q ⟨.apart, w.waits, w.ending⟩) :
    (Prog.act (.call .markDisconnected) k : ConnectionLoop α).Follows (course config) Q w :=
  fun r => ⟨_, next_disconnected hw r, hk r⟩

/-- The socket is closed, and the program goes on from where the course rests. -/
theorem follows_closeSocket {Q : α → Course → Prop} {n : ℕ} {p : ConnectionLoop α}
    (hw : w.Rests n) (hp : ∀ w', Rests n w' → p.Follows (course config) Q w') :
    (do closeSocket; p : ConnectionLoop α).Follows (course config) Q w := by
  refine follows_idle hw.1 rfl fun closed => ?_
  cases closed with
  | true => exact hp w hw
  | false => exact follows_disconnected hw.1 fun _ => hp _ ⟨trivial, hw.2⟩

/-! ## The turns of the frame loop -/

section

variable {generation : ℕ} {outstandingPing : Bool}

theorem admitFrame_follows (receipt : AuthenticatedUserFrameReceipt)
    (batch : AuthenticatedUserEventBatch)
    (hw : w.phase = .turning generation outstandingPing) (hn : w.waits = 0) :
    (admitFrame generation outstandingPing receipt batch).Follows (course config)
      (Turned generation) w := by
  have hr : w.phase.Resting := by rw [hw]; trivial
  have hleave : Turned generation .leave w := ⟨hr, hn⟩
  unfold admitFrame
  simp only [perform_bind]
  split_ifs
  · refine follows_idle hr rfl fun r => ?_
    cases r with
    | none =>
      refine follows_idle hr rfl fun _ => ?_
      exact follows_closeSocket ⟨hr, hn⟩ fun w' hw' => follows_idle hw'.1 rfl fun _ => hw'
    | some range =>
      refine follows_idle hr rfl fun r => ?_
      cases r with
      | none => exact follows_idle hr rfl fun _ => follows_idle hr rfl fun _ => hleave
      | some frameSequence =>
        refine follows_idle hr rfl fun state => ?_
        generalize AuthenticatedUserEventBatch.withTransportContext _ _ _ _ _ _ = batch
        cases batch.rawEvidence with
        | none => exact follows_idle hr rfl fun _ => hleave
        | some evidence =>
          refine follows_idle hr rfl fun r => ?_
          cases r with
          | false => exact follows_idle hr rfl fun _ => hleave
          | true =>
            refine follows_idle hr rfl fun _ => follows_idle hr rfl fun _ => ?_
            split_ifs
            · refine follows_idle hr rfl fun _ => ?_
              exact follows_closeSocket ⟨hr, hn⟩ fun w' hw' => hw'
            · exact ⟨hw, hn⟩
  · exact follows_idle hr rfl fun _ => hleave

/-- An action of a turn that takes the course to `phase`. -/
theorem next_turning (phase : Leg) {a : OwnAct} (hn : w.waits = 0)
    (hnext : (course config).next w a = w.pass a) (hphase : w.phase.next a = some phase)
    (hf : a.final = false) : (course config).next w a = some ⟨phase, 0, w.ending⟩ := by
  rw [hnext, pass, hphase, Option.map_some, hf, hn, Bool.or_false, ite_self]

theorem receive_follows (receipt : AuthenticatedUserFrameReceipt) (message : Message)
    (ending : Bool) :
    (receive json generation outstandingPing receipt message).Follows (course config)
      (Turned generation) ⟨Leg.messageNext generation outstandingPing message, 0, ending⟩ := by
  have hdrop : ∀ {o : Bool} (t : Turn), Turned generation t ⟨.turning generation o, 0, ending⟩ →
      (do step .dropRawCapacity; return t : ConnectionLoop Turn).Follows (course config)
        (Turned generation) ⟨.turning generation o, 0, ending⟩ :=
    fun t ht => follows_idle trivial rfl fun _ => ht
  have hagain : ∀ o, Turned generation (.again o) ⟨.turning generation o, 0, ending⟩ :=
    fun o => ⟨rfl, rfl⟩
  have hleave : ∀ o, Turned generation .leave ⟨.turning generation o, 0, ending⟩ :=
    fun o => ⟨trivial, rfl⟩
  cases message with
  | text bytes =>
    by_cases hpong : bytes = pongText
    · cases outstandingPing with
      | true =>
        simp only [receive, Leg.messageNext, hpong, and_self, if_true]
        intro r
        exact ⟨_, next_turning (.turning generation false) rfl rfl (if_pos rfl) rfl,
          hdrop _ (hagain false)⟩
      | false =>
        simp only [receive, Leg.messageNext, hpong, Bool.false_eq_true, and_false, if_false,
          if_true]
        exact hdrop _ (hagain false)
    · simp only [receive, Leg.messageNext, hpong, false_and, if_false]
      exact admitFrame_follows receipt _ rfl rfl
  | binary bytes => exact admitFrame_follows receipt _ rfl rfl
  | frame payload => exact admitFrame_follows receipt _ rfl rfl
  | pong payload => exact hdrop _ (hagain outstandingPing)
  | close => exact hdrop _ (hleave outstandingPing)
  | ping payload =>
    intro sent
    refine ⟨_, next_turning (.turning generation outstandingPing) rfl rfl rfl rfl, ?_⟩
    cases sent with
    | true => exact hdrop _ (hagain outstandingPing)
    | false => exact hdrop _ (hleave outstandingPing)

/-- The arm of a heartbeat tick. -/
theorem heartbeat_follows {ending : Bool} :
    (heartbeat outstandingPing).Follows (course config)
      (fun t w' => Turned generation t w' ∧ w'.phase.Resting)
      ⟨.ticked generation outstandingPing, 0, ending⟩ := by
  have hagain : ∀ o, Turned generation (.again o) ⟨.turning generation o, 0, ending⟩ :=
    fun o => ⟨rfl, rfl⟩
  have hleave : ∀ o, Turned generation .leave ⟨.turning generation o, 0, ending⟩ :=
    fun o => ⟨trivial, rfl⟩
  cases outstandingPing with
  | true =>
    intro overdue
    refine ⟨_, next_turning (.turning generation true) rfl rfl rfl rfl, ?_⟩
    cases overdue with
    | true => exact ⟨hleave true, trivial⟩
    | false => exact ⟨hagain true, trivial⟩
  | false =>
    intro sent
    refine ⟨_, next_turning (.turning generation sent) rfl rfl rfl rfl, ?_⟩
    cases sent with
    | true => exact ⟨hagain true, trivial⟩
    | false => exact ⟨hleave false, trivial⟩

theorem onShutdown_follows (closing : Bool)
    (hw : w.phase = .turning generation outstandingPing) (hn : w.waits = 0) :
    (onShutdown closing outstandingPing).Follows (course config) (Turned generation) w := by
  have hr : w.phase.Resting := by rw [hw]; trivial
  cases closing with
  | true => exact follows_closeSocket ⟨hr, hn⟩ fun w' hw' => hw'
  | false => exact ⟨hw, hn⟩

theorem pollSocket_follows (ending : Bool) :
    (pollSocket json generation outstandingPing).Follows (course config) (Turned generation)
      ⟨.turning generation outstandingPing, 0, ending⟩ := by
  have hleave : (do step .dropRawCapacity; return Turn.leave : ConnectionLoop Turn).Follows
      (course config) (Turned generation) ⟨.turning generation outstandingPing, 0, ending⟩ :=
    follows_idle trivial rfl fun _ => ⟨trivial, rfl⟩
  intro r
  rcases r with _ | ⟨output, receipt⟩ | _
  · refine ⟨_, next_turning (.ticked generation outstandingPing) rfl rfl rfl rfl, ?_⟩
    exact Follows.bind (fun t w' ht => follows_idle ht.2 rfl fun _ => ht.1) heartbeat_follows
  · cases receipt with
    | none =>
      refine ⟨⟨.turning generation outstandingPing, 0, ending⟩, ?_, ?_⟩
      · rcases output with _ | _ | message <;> exact next_turning _ rfl rfl rfl rfl
      · rcases output with _ | _ | message <;> exact follows_idle trivial rfl fun _ => hleave
    | some receipt =>
      rcases output with _ | _ | message
      · exact ⟨_, next_turning (.turning generation outstandingPing) rfl rfl rfl rfl, hleave⟩
      · exact ⟨_, next_turning (.turning generation outstandingPing) rfl rfl rfl rfl, hleave⟩
      · exact ⟨_, next_turning (.messageNext generation outstandingPing message) rfl rfl rfl rfl,
          receive_follows receipt message ending⟩
  · refine ⟨_, next_turning (.turning generation outstandingPing) rfl rfl rfl rfl, ?_⟩
    refine follows_closeSocket ⟨trivial, rfl⟩ fun w' hw' => ?_
    exact follows_idle hw'.1 rfl fun _ => hw'

/-- A turn that begins under a lowered flag. -/
theorem frameTurn_rest_follows (ending : Bool) :
    (do
      match ← step .reserveSlot with
      | .shutdown closing => onShutdown closing outstandingPing
      | .heartbeat => heartbeat outstandingPing
      | .consumerClosed | .permit false =>
        step (.call .markConsumerClosed)
        return Turn.leave
      | .permit true =>
        match ← step .reserveRawFrameCapacity with
        | .shutdown closing => onShutdown closing outstandingPing
        | .heartbeat => heartbeat outstandingPing
        | .capacity false =>
          step (.call .markEvidenceGap)
          return Turn.leave
        | .capacity true => pollSocket json generation outstandingPing :
      ConnectionLoop Turn).Follows (course config) (Turned generation)
      ⟨.turning generation outstandingPing, 0, ending⟩ := by
  have hbeat : (heartbeat outstandingPing).Follows (course config) (Turned generation)
      ⟨.ticked generation outstandingPing, 0, ending⟩ :=
    heartbeat_follows.mono fun t w' ht => ht.1
  have hleave : Turned generation .leave ⟨.turning generation outstandingPing, 0, ending⟩ :=
    ⟨trivial, rfl⟩
  intro r
  rcases r with _ | closing | _ | granted
  · refine ⟨_, next_turning (.turning generation outstandingPing) rfl rfl rfl rfl, ?_⟩
    exact follows_idle trivial rfl fun _ => hleave
  · refine ⟨_, next_turning (.turning generation outstandingPing) rfl rfl rfl rfl, ?_⟩
    exact onShutdown_follows closing rfl rfl
  · exact ⟨_, next_turning (.ticked generation outstandingPing) rfl rfl rfl rfl, hbeat⟩
  · refine ⟨_, next_turning (.turning generation outstandingPing) rfl rfl rfl rfl, ?_⟩
    cases granted with
    | false => exact follows_idle trivial rfl fun _ => hleave
    | true =>
      intro r
      rcases r with closing | _ | granted
      · refine ⟨_, next_turning (.turning generation outstandingPing) rfl rfl rfl rfl, ?_⟩
        exact onShutdown_follows closing rfl rfl
      · exact ⟨_, next_turning (.ticked generation outstandingPing) rfl rfl rfl rfl, hbeat⟩
      · refine ⟨_, next_turning (.turning generation outstandingPing) rfl rfl rfl rfl, ?_⟩
        cases granted with
        | false => exact follows_idle trivial rfl fun _ => hleave
        | true => exact pollSocket_follows ending

theorem frameTurn_follows (hw : At config (.socket generation outstandingPing) w) :
    (frameTurn json generation outstandingPing).Follows (course config) (Turned generation) w := by
  obtain ⟨hphase, hn⟩ := hw
  have hborrow : ∀ r, w.phase.next ⟨.borrowShutdown, r⟩ =
      some (Leg.borrowNext generation outstandingPing r) := by
    intro r
    rcases hphase with ⟨h, rfl⟩ | h <;> rw [h] <;> rfl
  intro r
  cases r with
  | false =>
    exact ⟨_, next_turning _ hn rfl (hborrow false) rfl, frameTurn_rest_follows w.ending⟩
  | true =>
    refine ⟨⟨.closing generation, 0, true⟩, ?_, ?_⟩
    · change w.pass _ = _
      rw [pass, hborrow, Option.map_some, hn, ite_self, OwnAct.final, Bool.or_true]
      rfl
    · exact follows_closeSocket ⟨trivial, rfl⟩ fun w' hw' => hw'

end

/-! ## The turns over the sockets -/

theorem finish_follows (hw : w.phase.Resting)
    (hend : w.ending = true ∨ config.Exhausted w.waits) :
    finish.Follows (course config) (Leads config) w :=
  follows_disconnected hw fun _ => ⟨rfl, hend⟩

theorem nextReconnectAttempt_eq {n m : ℕ} (h : nextReconnectAttempt n = some m) :
    n + 1 ≤ u32Max ∧ m = n + 1 := by
  unfold nextReconnectAttempt at h
  split_ifs at h with hn
  exact ⟨hn, (Option.some.inj h).symm⟩

theorem next_wait {n : ℕ} {delay : Duration} (hw : w.phase = .apart) (hn : w.waits = n)
    (hwait : config.Waits n delay) (r : Bool) :
    (course config).next w ⟨.waitOrShutdown delay, r⟩ = some ⟨.apart, n + 1, w.ending || r⟩ := by
  subst hn
  exact if_pos ⟨hw, hwait⟩

theorem reconnect_follows {n : ℕ} {delay : Duration} (hw : w.phase = .apart) (hn : w.waits = n)
    (hd : delay = config.pace n) :
    (reconnect config n delay).Follows (course config) (Leads config) w := by
  have hr : w.phase.Resting := by rw [hw]; trivial
  unfold reconnect
  cases hnext : nextReconnectAttempt n with
  | none =>
    have hn' : u32Max < w.waits + 1 := by
      unfold nextReconnectAttempt at hnext
      split_ifs at hnext
      omega
    exact follows_idle hr rfl fun _ => finish_follows hr (.inr (.inl hn'))
  | some nextAttempt =>
    obtain ⟨hmax, rfl⟩ := nextReconnectAttempt_eq hnext
    dsimp only
    split_ifs with hx
    · exact finish_follows hr (.inr (.inr (.inl (hn ▸ hx))))
    · intro r
      refine ⟨_, next_wait hw hn ⟨hd, hmax, eq_false_of_ne_true hx⟩ r, ?_⟩
      cases r with
      | true => exact finish_follows trivial (.inl (Bool.or_true _))
      | false =>
        cases hdouble : doubledDelay delay config.maxReconnectDelay with
        | none =>
          have hover : Duration.maximum < config.pace n * 2 := by
            unfold doubledDelay at hdouble
            split_ifs at hdouble with hle
            rw [← hd]
            exact not_le.1 hle
          refine follows_idle trivial rfl fun _ => finish_follows trivial ?_
          exact .inr (.inr (.inr ⟨n, rfl, hover⟩))
        | some nextDelay => exact ⟨rfl, rfl, AuthenticatedUserWsConfig.pace_succ (hd ▸ hdouble)⟩

/-- The flag is read between two sockets. -/
theorem next_borrow (hw : w.phase = .apart) (r : Bool) :
    (course config).next w ⟨.borrowShutdown, r⟩ = some ⟨.apart, w.waits, w.ending || r⟩ := by
  obtain ⟨phase, waits, ending⟩ := w
  subst hw
  rfl

theorem afterSocket_follows {n : ℕ} {delay : Duration} (hw : w.phase = .apart)
    (hn : w.waits = n) (hd : delay = config.pace n) :
    (afterSocket config n delay).Follows (course config) (Leads config) w := by
  intro r
  refine ⟨_, next_borrow hw r, ?_⟩
  cases r with
  | true => exact finish_follows trivial (.inl (Bool.or_true _))
  | false => exact reconnect_follows rfl hn hd

/-- A socket whose first messages are not written. -/
theorem unwritten_follows {generation n : ℕ} {delay : Duration} (ending : Bool)
    (hd : delay = config.pace n) :
    (do step (.call .markDisconnected); afterSocket config n delay :
      ConnectionLoop (Option LoopPoint)).Follows (course config) (Leads config)
      ⟨.closing generation, n, ending⟩ :=
  follows_disconnected trivial fun _ => afterSocket_follows rfl rfl hd

/-- An action on a socket that is not listened to yet. -/
theorem next_opening (phase : Leg) (ending : Bool) {a : OwnAct}
    (hnext : (course config).next w a = w.pass a) (hphase : w.phase.next a = some phase)
    (ho : phase.opens = false) (he : (w.ending || a.final) = ending) :
    (course config).next w a = some ⟨phase, w.waits, ending⟩ := by
  rw [hnext, pass, hphase, Option.map_some, ho, he]
  rfl

theorem openSocket_follows {generation n : ℕ} {delay : Duration} (ending : Bool)
    (hd : delay = config.pace n) :
    (openSocket config generation n delay).Follows (course config) (Leads config)
      ⟨.connected generation, n, ending⟩ := by
  have hlost : ∀ {w : Course} (r : OrShutdown Bool), w.phase = .connected generation ∨
      w.phase = .submitted generation → w.waits = n → r ≠ .done true →
      ∃ ending', (course config).next w ⟨.write, r⟩ = some ⟨.closing generation, n, ending'⟩ ∧
        (OwnAct.final ⟨.write, r⟩ = true → ending' = true) := by
    intro w r hw hn hr
    refine ⟨w.ending || OwnAct.final ⟨.write, r⟩, ?_, fun hf => by rw [hf, Bool.or_true]⟩
    rw [← hn]
    refine next_opening _ _ rfl ?_ rfl rfl
    rcases hw with h | h <;> rw [h] <;> rcases r with (_ | _) | failed <;>
      first | rfl | cases hr rfl
  intro r
  rcases r with (_ | _) | failed
  · obtain ⟨ending', hnext, -⟩ := hlost (w := ⟨.connected generation, n, ending⟩) (.done false)
      (.inl rfl) rfl nofun
    exact ⟨_, hnext, unwritten_follows ending' hd⟩
  · refine ⟨_, next_opening (.written generation) ending rfl rfl rfl (Bool.or_false _), fun r => ?_⟩
    refine ⟨_, next_opening (.submitted generation) ending rfl (if_pos rfl) rfl
      (Bool.or_false _), fun r => ?_⟩
    rcases r with (_ | _) | failed
    · obtain ⟨ending', hnext, -⟩ := hlost (w := ⟨.submitted generation, n, ending⟩) (.done false)
        (.inr rfl) rfl nofun
      exact ⟨_, hnext, unwritten_follows ending' hd⟩
    · exact ⟨_, rfl, .inl ⟨rfl, rfl⟩, rfl⟩
    · obtain ⟨ending', hnext, -⟩ := hlost (w := ⟨.submitted generation, n, ending⟩)
        (.shutdown failed) (.inr rfl) rfl nofun
      refine ⟨_, hnext, ?_⟩
      cases failed with
      | true => exact follows_disconnected trivial fun _ =>
          follows_disconnected trivial fun _ => afterSocket_follows rfl rfl hd
      | false => exact unwritten_follows ending' hd
  · obtain ⟨ending', hnext, hend⟩ := hlost (w := ⟨.connected generation, n, ending⟩)
      (.shutdown failed) (.inl rfl) rfl nofun
    refine ⟨_, hnext, ?_⟩
    cases failed with
    | true =>
      refine follows_disconnected trivial fun _ => follows_disconnected trivial fun _ => ?_
      exact finish_follows trivial (.inl (hend rfl))
    | false =>
      refine follows_disconnected trivial fun _ => ?_
      exact finish_follows trivial (.inl (hend rfl))

theorem connectTurn_follows {n : ℕ} {delay : Duration} (hw : At config (.connect n delay) w) :
    (connectTurn config n delay).Follows (course config) (Leads config) w := by
  obtain ⟨phase, waits, ending⟩ := w
  obtain ⟨hphase, hn, hd⟩ := hw
  dsimp only at hphase hn
  subst hphase hn
  intro r
  refine ⟨_, rfl, ?_⟩
  cases r with
  | true => exact finish_follows trivial (.inl (Bool.or_true _))
  | false =>
    refine follows_idle trivial rfl fun _ => fun r => ⟨_, rfl, ?_⟩
    rcases r with (_ | _) | failed
    · intro r
      refine ⟨_, rfl, ?_⟩
      cases r with
      | true => exact finish_follows trivial (.inl (Bool.or_true _))
      | false => exact follows_disconnected trivial fun _ => reconnect_follows rfl rfl hd
    · intro r
      cases r with
      | error exhaustion => exact ⟨_, rfl, finish_follows trivial (.inl (Bool.or_true _))⟩
      | ok generation => exact ⟨_, rfl, openSocket_follows _ hd⟩
    · cases failed with
      | true =>
        exact follows_disconnected trivial fun _ => finish_follows trivial (.inl (Bool.or_true _))
      | false => exact finish_follows trivial (.inl (Bool.or_true _))

/-- Every turn keeps to the course, and leads to the next one or to the end of the task. -/
theorem turn_follows_course (k : LoopPoint) (hk : At config k w) :
    (turn json config k).Follows (course config) (Leads config) w := by
  cases k with
  | connect reconnectAttempt reconnectDelay => exact connectTurn_follows hk
  | socket generation outstandingPing =>
    refine Follows.bind (fun t w' ht => ?_) (frameTurn_follows hk)
    cases t with
    | again outstandingPing => exact ⟨.inr ht.1, ht.2⟩
    | leave =>
      refine follows_disconnected ht.1 fun _ => ?_
      exact afterSocket_follows rfl ht.2 rfl

end Course

end Rspm
