/-
  What the connection task says on a socket, and how it goes from one to the next.

  `Dialogue` is the exchange on one socket: the subscription, its record in the
  cell, the first PING, and then PINGs and PONGs in turn, where a liveness proof
  answers the PING that was outstanding.  `course` is a monitor that reads the
  actions of the task: the exchange of the socket, and the waits since a socket
  was last opened.  `turn_follows`: whatever its actions answer, the loop keeps
  to this course.
-/
import Rspm.Ws.Live

namespace Rspm

open Prog

/-- An action with its answer. -/
abbrev OwnAct := Σ e : ConnectionAct, e.Answer

namespace OwnAct

/-- A tick of the heartbeat, in whichever `select!`. -/
def ticks : OwnAct → Bool
  | ⟨.reserveSlot, .heartbeat⟩ | ⟨.reserveRawFrameCapacity, .heartbeat⟩ | ⟨.poll, .heartbeat⟩ =>
    true
  | _ => false

/-- Actions that write nothing to the socket, and tell the cell nothing of it. -/
def still : OwnAct → Bool
  | ⟨.tryMarkConnected, _⟩ | ⟨.write, _⟩ => false
  | ⟨.call (.markSubscriptionWritten _), _⟩ | ⟨.call (.markServerLivenessProven _), _⟩ => false
  | ⟨.sendMessage, sent⟩ => !sent
  | _ => true

def wrote : OwnAct := ⟨.write, .done true⟩

def subscribed (generation : ℕ) : OwnAct := ⟨.call (.markSubscriptionWritten generation), ()⟩

def proven (generation : ℕ) : OwnAct := ⟨.call (.markServerLivenessProven generation), ()⟩

def received (message : Message) (receipt : AuthenticatedUserFrameReceipt) : OwnAct :=
  ⟨.poll, .received (some (.ok message)) (some receipt)⟩

def sent (b : Bool) : OwnAct := ⟨.sendMessage, b⟩

end OwnAct

/-- The exchange on the socket of a generation, with the PINGs that were written and the PONGs
    that answered them. -/
inductive Dialogue (generation : ℕ) : ℕ → ℕ → List OwnAct → Prop
  | opened : Dialogue generation 1 0 [.wrote, .subscribed generation, .wrote]
  | pinged {n : ℕ} {acts : List OwnAct} {tick : OwnAct} (h : Dialogue generation n n acts)
      (ht : tick.ticks = true) : Dialogue generation (n + 1) n (acts ++ [tick, .sent true])
  | ponged {n : ℕ} {acts : List OwnAct} {receipt : AuthenticatedUserFrameReceipt}
      (h : Dialogue generation (n + 1) n acts) :
      Dialogue generation (n + 1) (n + 1)
        (acts ++ [.received (.text pongText) receipt, .proven generation])
  | replied {pings pongs : ℕ} {acts : List OwnAct} {payload : List UInt8}
      {receipt : AuthenticatedUserFrameReceipt} {b : Bool}
      (h : Dialogue generation pings pongs acts) :
      Dialogue generation pings pongs (acts ++ [.received (.ping payload) receipt, .sent b])
  | still {pings pongs : ℕ} {acts : List OwnAct} {a : OwnAct}
      (h : Dialogue generation pings pongs acts) (ha : a.still = true) :
      Dialogue generation pings pongs (acts ++ [a])

/-! ## The delays -/

/-- The delay before the attempt that follows `n` waits. -/
def AuthenticatedUserWsConfig.pace (config : AuthenticatedUserWsConfig) (n : ℕ) : Duration :=
  if n = 0 then config.initialReconnectDelay
  else min (config.initialReconnectDelay * 2 ^ n) config.maxReconnectDelay

/-- Another wait is due after `n` of them. -/
def AuthenticatedUserWsConfig.Waits (config : AuthenticatedUserWsConfig) (n : ℕ)
    (delay : Duration) : Prop :=
  delay = config.pace n ∧ n + 1 ≤ u32Max ∧
    reconnectExhausted config.maxReconnectAttempts (n + 1) = false

instance (config : AuthenticatedUserWsConfig) (n : ℕ) (delay : Duration) :
    Decidable (config.Waits n delay) := inferInstanceAs (Decidable (_ ∧ _))

/-- No further attempt is due after `n` waits. -/
def AuthenticatedUserWsConfig.Exhausted (config : AuthenticatedUserWsConfig) (n : ℕ) : Prop :=
  u32Max < n + 1 ∨ reconnectExhausted config.maxReconnectAttempts (n + 1) = true ∨
    ∃ m, n = m + 1 ∧ Duration.maximum < config.pace m * 2

theorem min_doubled (d m : ℕ) : min (min d m * 2) m = min (d * 2) m := by omega

theorem AuthenticatedUserWsConfig.pace_succ {config : AuthenticatedUserWsConfig} {n : ℕ}
    {next : Duration} (h : doubledDelay (config.pace n) config.maxReconnectDelay = some next) :
    next = config.pace (n + 1) := by
  unfold doubledDelay at h
  split_ifs at h
  obtain rfl := Option.some.inj h
  unfold pace
  rw [if_neg (Nat.succ_ne_zero n)]
  split_ifs with hn
  · rw [hn, Nat.zero_add, pow_one]
  · rw [pow_succ, ← Nat.mul_assoc]
    exact min_doubled _ _

/-- A delay that does not start over its maximum follows one formula. -/
theorem AuthenticatedUserWsConfig.pace_eq {config : AuthenticatedUserWsConfig}
    (h : config.initialReconnectDelay ≤ config.maxReconnectDelay) (n : ℕ) :
    config.pace n = min (config.initialReconnectDelay * 2 ^ n) config.maxReconnectDelay := by
  unfold pace
  split_ifs with hn
  · rw [hn, pow_zero, Nat.mul_one, min_eq_left h]
  · rfl

/-! ## The monitor -/

inductive Leg where
  /-- the cell was told that there is no socket -/
  | apart
  | connected (generation : ℕ)
  | written (generation : ℕ)
  | submitted (generation : ℕ)
  /-- the first PING is written -/
  | listening (generation : ℕ)
  /-- in a turn that began under a lowered flag -/
  | turning (generation : ℕ) (outstandingPing : Bool)
  | ticked (generation : ℕ) (outstandingPing : Bool)
  | heard (generation : ℕ)
  | pinged (generation : ℕ) (outstandingPing : Bool)
  /-- a socket that is given up before it was listened to, or under a raised flag -/
  | closing (generation : ℕ)
deriving DecidableEq

/-- Actions that take no part in the course. -/
def ConnectionAct.idle : ConnectionAct → Bool
  | .call op =>
    match op with
    | .markConnecting | .markSchemaGap | .markDeliveryGap | .markConsumerClosed
    | .markEvidenceGap | .markEnqueued _ => true
    | _ => false
  | .reserveTransportSequences _ | .reserveRawFrameSequence | .snapshot | .retainRawFrame _
  | .dropRawCapacity | .closeSocket | .pingOverdue | .send _ | .panic => true
  | _ => false

namespace Leg

/-- The phase stays for an idle action; a disconnect ends it. -/
def stay (w : Leg) (e : ConnectionAct) : Option Leg :=
  match e with
  | .call .markDisconnected => some .apart
  | e => if e.idle then some w else none

def apartNext : OwnAct → Option Leg
  | ⟨.tryMarkConnected, .ok generation⟩ => some (.connected generation)
  | ⟨.tryMarkConnected, .error _⟩ | ⟨.borrowShutdown, _⟩ | ⟨.connect, _⟩ => some .apart
  | ⟨e, _⟩ => stay .apart e

/-- One of the two messages that open the socket. -/
def writeNext (generation : ℕ) (next : Leg) : OwnAct → Option Leg
  | ⟨.write, .done true⟩ => some next
  | ⟨.write, _⟩ => some (.closing generation)
  | _ => none

def writtenNext (generation : ℕ) : OwnAct → Option Leg
  | ⟨.call (.markSubscriptionWritten generation'), _⟩ =>
    if generation' = generation then some (.submitted generation) else none
  | _ => none

/-- A turn begins, or the socket is left. -/
def borrowNext (generation : ℕ) (outstandingPing : Bool) (shutdown : Bool) : Leg :=
  if shutdown then .closing generation else .turning generation outstandingPing

def listeningNext (generation : ℕ) : OwnAct → Option Leg
  | ⟨.borrowShutdown, r⟩ => some (borrowNext generation true r)
  | _ => none

/-- What a message of the socket calls for. -/
def messageNext (generation : ℕ) (outstandingPing : Bool) : Message → Leg
  | .text bytes =>
    if bytes = pongText ∧ outstandingPing then .heard generation
    else .turning generation outstandingPing
  | .ping _ => .pinged generation outstandingPing
  | _ => .turning generation outstandingPing

def turningNext (generation : ℕ) (outstandingPing : Bool) : OwnAct → Option Leg
  | ⟨.borrowShutdown, r⟩ => some (borrowNext generation outstandingPing r)
  | ⟨.reserveSlot, .heartbeat⟩ | ⟨.reserveRawFrameCapacity, .heartbeat⟩ | ⟨.poll, .heartbeat⟩ =>
    some (.ticked generation outstandingPing)
  | ⟨.poll, .received (some (.ok message)) (some _)⟩ =>
    some (messageNext generation outstandingPing message)
  | ⟨.reserveSlot, _⟩ | ⟨.reserveRawFrameCapacity, _⟩ | ⟨.poll, _⟩ =>
    some (.turning generation outstandingPing)
  | ⟨e, _⟩ => stay (.turning generation outstandingPing) e

def tickedNext (generation : ℕ) : Bool → OwnAct → Option Leg
  | true, ⟨.pingOverdue, _⟩ => some (.turning generation true)
  | false, ⟨.sendMessage, sent⟩ => some (.turning generation sent)
  | _, _ => none

def heardNext (generation : ℕ) : OwnAct → Option Leg
  | ⟨.call (.markServerLivenessProven generation'), _⟩ =>
    if generation' = generation then some (.turning generation false) else none
  | _ => none

def pingedNext (generation : ℕ) (outstandingPing : Bool) : OwnAct → Option Leg
  | ⟨.sendMessage, _⟩ => some (.turning generation outstandingPing)
  | _ => none

def next : Leg → OwnAct → Option Leg
  | .apart => apartNext
  | .connected generation => writeNext generation (.written generation)
  | .written generation => writtenNext generation
  | .submitted generation => writeNext generation (.listening generation)
  | .listening generation => listeningNext generation
  | .turning generation outstandingPing => turningNext generation outstandingPing
  | .ticked generation outstandingPing => tickedNext generation outstandingPing
  | .heard generation => heardNext generation
  | .pinged generation outstandingPing => pingedNext generation outstandingPing
  | .closing generation => fun a => stay (.closing generation) a.1

def opens : Leg → Bool
  | .listening _ => true
  | _ => false

end Leg

/-- An answer after which the task ends. -/
def OwnAct.final : OwnAct → Bool
  | ⟨.borrowShutdown, r⟩ => r
  | ⟨.connect, .shutdown _⟩ | ⟨.write, .shutdown _⟩ | ⟨.tryMarkConnected, .error _⟩ => true
  | _ => false

structure Course where
  phase : Leg := .apart
  /-- the waits since a socket was last opened -/
  waits : ℕ := 0
  /-- an answer came after which the task ends -/
  ending : Bool := false

namespace Course

/-- An action other than a wait. -/
def pass (w : Course) (a : OwnAct) : Option Course :=
  (w.phase.next a).map fun phase =>
    ⟨phase, if phase.opens then 0 else w.waits, w.ending || a.final⟩

def next (config : AuthenticatedUserWsConfig) (w : Course) : OwnAct → Option Course
  | ⟨.waitOrShutdown delay, r⟩ =>
    if w.phase = .apart ∧ config.Waits w.waits delay then some ⟨.apart, w.waits + 1, w.ending || r⟩
    else none
  | a => w.pass a

end Course

/-- The course of the task. -/
def course (config : AuthenticatedUserWsConfig) : Monitor Course OwnAct := ⟨Course.next config⟩

/-! ## The steps of a course -/

namespace Leg

/-- Phases in which an idle action may come. -/
def Resting : Leg → Prop
  | apart | turning _ _ | closing _ => True
  | _ => False

/-- The steps of the phases, one for each case of the monitor. -/
inductive Step : Leg → OwnAct → Leg → Prop
  | stay {w : Leg} {e : ConnectionAct} {r : e.Answer} (hw : w.Resting) (he : e.idle = true) :
      Step w ⟨e, r⟩ w
  | disconnected {w : Leg} {r : Unit} (hw : w.Resting) :
      Step w ⟨.call .markDisconnected, r⟩ apart
  | borrowed {r : Bool} : Step apart ⟨.borrowShutdown, r⟩ apart
  | tried {r : OrShutdown Bool} : Step apart ⟨.connect, r⟩ apart
  | unconnected {exhaustion : AuthenticatedUserCounterExhaustion} :
      Step apart ⟨.tryMarkConnected, .error exhaustion⟩ apart
  | connected {generation : ℕ} :
      Step apart ⟨.tryMarkConnected, .ok generation⟩ (connected generation)
  | written {generation : ℕ} : Step (connected generation) .wrote (written generation)
  | subscribed {generation : ℕ} :
      Step (written generation) (.subscribed generation) (submitted generation)
  | opened {generation : ℕ} : Step (submitted generation) .wrote (listening generation)
  | unwritten {w : Leg} {generation : ℕ} {r : OrShutdown Bool}
      (hw : w = connected generation ∨ w = submitted generation) (hr : r ≠ .done true) :
      Step w ⟨.write, r⟩ (closing generation)
  | began {generation : ℕ} :
      Step (listening generation) ⟨.borrowShutdown, false⟩ (turning generation true)
  | again {generation : ℕ} {outstandingPing : Bool} :
      Step (turning generation outstandingPing) ⟨.borrowShutdown, false⟩
        (turning generation outstandingPing)
  | quit {w : Leg} {generation : ℕ}
      (hw : w = listening generation ∨ ∃ outstandingPing, w = turning generation outstandingPing) :
      Step w ⟨.borrowShutdown, true⟩ (closing generation)
  | ticked {generation : ℕ} {outstandingPing : Bool} {a : OwnAct} (ha : a.ticks = true) :
      Step (turning generation outstandingPing) a (ticked generation outstandingPing)
  | waited {generation : ℕ} {outstandingPing : Bool} {a : OwnAct} (ha : a.still = true) :
      Step (turning generation outstandingPing) a (turning generation outstandingPing)
  | heard {generation : ℕ} {receipt : AuthenticatedUserFrameReceipt} :
      Step (turning generation true) (.received (.text pongText) receipt) (heard generation)
  | pinged {generation : ℕ} {outstandingPing : Bool} {payload : List UInt8}
      {receipt : AuthenticatedUserFrameReceipt} :
      Step (turning generation outstandingPing) (.received (.ping payload) receipt)
        (pinged generation outstandingPing)
  | overdue {generation : ℕ} {r : Bool} :
      Step (ticked generation true) ⟨.pingOverdue, r⟩ (turning generation true)
  | sent {generation : ℕ} {b : Bool} :
      Step (ticked generation false) (.sent b) (turning generation b)
  | proven {generation : ℕ} :
      Step (heard generation) (.proven generation) (turning generation false)
  | replied {generation : ℕ} {outstandingPing b : Bool} :
      Step (pinged generation outstandingPing) (.sent b) (turning generation outstandingPing)

theorem still_of_idle {e : ConnectionAct} (he : e.idle = true) (r : e.Answer) :
    OwnAct.still ⟨e, r⟩ = true := by
  cases e with
  | call op => cases op <;> first | rfl | cases he
  | _ => first | rfl | cases he

variable {w w' : Leg}

theorem stay_cases {e : ConnectionAct} {r : e.Answer} (hw : w.Resting)
    (h : w.stay e = some w') : Step w ⟨e, r⟩ w' := by
  unfold stay at h
  split at h
  · obtain rfl := Option.some.inj h
    exact .disconnected hw
  · split_ifs at h with he
    obtain rfl := Option.some.inj h
    exact .stay hw he

theorem apartNext_cases {a : OwnAct} (h : apartNext a = some w') : Step .apart a w' := by
  obtain ⟨e, r⟩ := a
  cases e with
  | tryMarkConnected =>
    cases r with
    | ok generation => obtain rfl := Option.some.inj h; exact .connected
    | error exhaustion => obtain rfl := Option.some.inj h; exact .unconnected
  | borrowShutdown => obtain rfl := Option.some.inj h; exact .borrowed
  | connect => obtain rfl := Option.some.inj h; exact .tried
  | _ => exact stay_cases trivial h

theorem writeNext_cases {generation : ℕ} {next : Leg} {a : OwnAct}
    (hw : w = connected generation ∨ w = submitted generation) (hnext : Step w .wrote next)
    (h : writeNext generation next a = some w') : Step w a w' := by
  obtain ⟨e, r⟩ := a
  cases e with
  | write =>
    rcases r with (- | -) | failed
    · obtain rfl := Option.some.inj h; exact .unwritten hw nofun
    · obtain rfl := Option.some.inj h; exact hnext
    · obtain rfl := Option.some.inj h; exact .unwritten hw nofun
  | _ => cases h

theorem borrowNext_cases {generation : ℕ} {outstandingPing r : Bool}
    (hw : w = listening generation ∧ outstandingPing = true ∨
      w = turning generation outstandingPing) :
    Step w ⟨.borrowShutdown, r⟩ (borrowNext generation outstandingPing r) := by
  cases r with
  | true => exact .quit (hw.imp And.left fun h => ⟨_, h⟩)
  | false =>
    rcases hw with ⟨rfl, rfl⟩ | rfl
    · exact .began
    · exact .again

theorem turningNext_cases {generation : ℕ} {outstandingPing : Bool} {a : OwnAct}
    (h : turningNext generation outstandingPing a = some w') :
    Step (turning generation outstandingPing) a w' := by
  obtain ⟨e, r⟩ := a
  cases e with
  | borrowShutdown => obtain rfl := Option.some.inj h; exact borrowNext_cases (.inr rfl)
  | reserveSlot =>
    cases r with
    | heartbeat => obtain rfl := Option.some.inj h; exact .ticked rfl
    | _ => obtain rfl := Option.some.inj h; exact .waited rfl
  | reserveRawFrameCapacity =>
    cases r with
    | heartbeat => obtain rfl := Option.some.inj h; exact .ticked rfl
    | _ => obtain rfl := Option.some.inj h; exact .waited rfl
  | poll =>
    rcases r with - | ⟨output, receipt⟩ | -
    · obtain rfl := Option.some.inj h; exact .ticked rfl
    · rcases output with _ | _ | message
      · obtain rfl := Option.some.inj h; exact .waited rfl
      · obtain rfl := Option.some.inj h; exact .waited rfl
      · cases receipt with
        | none => obtain rfl := Option.some.inj h; exact .waited rfl
        | some receipt =>
          obtain rfl := Option.some.inj h
          cases message with
          | text bytes =>
            simp only [messageNext]
            split_ifs with hpong
            · obtain ⟨rfl, rfl⟩ := hpong
              exact .heard
            · exact .waited rfl
          | ping payload => exact .pinged
          | _ => exact .waited rfl
    · obtain rfl := Option.some.inj h; exact .waited rfl
  | _ => exact stay_cases trivial h

theorem next_cases {a : OwnAct} (h : w.next a = some w') : Step w a w' := by
  cases w with
  | apart => exact apartNext_cases h
  | connected generation => exact writeNext_cases (.inl rfl) .written h
  | submitted generation => exact writeNext_cases (.inr rfl) .opened h
  | turning generation outstandingPing => exact turningNext_cases h
  | closing generation => exact stay_cases trivial h
  | written generation =>
    obtain ⟨e, r⟩ := a
    cases e with
    | call op =>
      cases op with
      | markSubscriptionWritten generation' =>
        change (if generation' = generation then some (submitted generation) else none) =
          some w' at h
        split_ifs at h with hg
        obtain rfl := Option.some.inj h
        subst hg
        exact .subscribed
      | _ => cases h
    | _ => cases h
  | listening generation =>
    obtain ⟨e, r⟩ := a
    cases e with
    | borrowShutdown => obtain rfl := Option.some.inj h; exact borrowNext_cases (.inl ⟨rfl, rfl⟩)
    | _ => cases h
  | ticked generation outstandingPing =>
    obtain ⟨e, r⟩ := a
    cases outstandingPing with
    | true =>
      cases e with
      | pingOverdue => obtain rfl := Option.some.inj h; exact .overdue
      | _ => cases h
    | false =>
      cases e with
      | sendMessage => obtain rfl := Option.some.inj h; exact .sent
      | _ => cases h
  | heard generation =>
    obtain ⟨e, r⟩ := a
    cases e with
    | call op =>
      cases op with
      | markServerLivenessProven generation' =>
        change (if generation' = generation then some (turning generation false) else none) =
          some w' at h
        split_ifs at h with hg
        obtain rfl := Option.some.inj h
        subst hg
        exact .proven
      | _ => cases h
    | _ => cases h
  | pinged generation outstandingPing =>
    obtain ⟨e, r⟩ := a
    cases e with
    | sendMessage => obtain rfl := Option.some.inj h; exact .replied
    | _ => cases h

/-! ## What a step shows of its action -/

theorem Step.of_opens {a : OwnAct} (h : Step w a w') (ho : w'.opens = true) :
    ∃ generation, w = Leg.submitted generation ∧ a = .wrote := by
  cases h with
  | opened => exact ⟨_, rfl, rfl⟩
  | stay hw => cases w <;> first | exact hw.elim | cases ho
  | _ => cases ho

theorem Step.of_wrote (h : Step w .wrote w') :
    (∃ generation, w = Leg.connected generation) ∨
      ∃ generation, w = Leg.submitted generation ∧ w'.opens = true := by
  generalize ha : OwnAct.wrote = a at h
  cases h with
  | opened => exact .inr ⟨_, rfl, rfl⟩
  | written => exact .inl ⟨_, rfl⟩
  | unwritten hw hr => cases ha; exact absurd rfl hr
  | stay hw he => cases ha; cases he
  | ticked ht => subst ha; cases ht
  | waited hs => subst ha; cases hs
  | _ => cases ha

theorem Step.of_connected {a : OwnAct} {generation : ℕ} (h : Step w a (Leg.connected generation)) :
    a = ⟨.tryMarkConnected, .ok generation⟩ := by
  cases h with
  | connected => rfl
  | stay hw => exact hw.elim

theorem Step.of_submitted {a : OwnAct} {generation : ℕ} (h : Step w a (Leg.submitted generation)) :
    a = .subscribed generation := by
  cases h with
  | subscribed => rfl
  | stay hw => exact hw.elim

end Leg

namespace Course

variable {config : AuthenticatedUserWsConfig} {w w' : Course}

/-- A step of the course is a wait that is due, or a step of its phase. -/
theorem next_cases {a : OwnAct} (h : (course config).next w a = some w') :
    (∃ delay r, a = ⟨.waitOrShutdown delay, r⟩ ∧ w.phase = .apart ∧ config.Waits w.waits delay ∧
      w' = ⟨.apart, w.waits + 1, w.ending || r⟩) ∨
    w.phase.Step a w'.phase ∧ (∀ delay, a.1 ≠ .waitOrShutdown delay) ∧
      w'.waits = (if w'.phase.opens then 0 else w.waits) ∧ w'.ending = (w.ending || a.final) := by
  have hstep : (∀ delay, a.1 ≠ .waitOrShutdown delay) → w.pass a = some w' →
      w.phase.Step a w'.phase ∧ (∀ delay, a.1 ≠ .waitOrShutdown delay) ∧
        w'.waits = (if w'.phase.opens then 0 else w.waits) ∧
        w'.ending = (w.ending || a.final) := by
    intro ha hs
    obtain ⟨phase, hphase, rfl⟩ := Option.map_eq_some_iff.1 hs
    exact ⟨Leg.next_cases hphase, ha, rfl, rfl⟩
  obtain ⟨e, r⟩ := a
  cases e with
  | waitOrShutdown delay =>
    change (if w.phase = .apart ∧ config.Waits w.waits delay then
      some (⟨.apart, w.waits + 1, w.ending || r⟩ : Course) else none) = some w' at h
    split_ifs at h with hw
    obtain rfl := Option.some.inj h
    exact .inl ⟨delay, r, rfl, hw.1, hw.2, rfl⟩
  | _ => exact .inr (hstep nofun h)

end Course

end Rspm
