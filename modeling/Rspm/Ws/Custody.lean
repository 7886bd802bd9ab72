/-
  Custody of the handles and permits, kept by every step.

  A step logs one event about the resources at most (`Logs`), but for a reaped
  task, which is joined and gives its permit back in one step.  The invariant
  (`Custody`) joins the log and the counter `retained` to what is owned.
-/
import Rspm.Ws.Handover

namespace Rspm

section

variable {r r' : Retirement} {s t : ℕ} {o : Owner} {k : Resource} {f : Frame}
  {g : AuthenticatedUserWsInner → AuthenticatedUserWsInner} {events : List RetirementEvent}
  {state : RetirementState} {phase : TaskPhase} {slot : Bool}

/-! ## What a step logs -/

/-- The session whose task the call has, and has not counted. -/
def Frame.early : Frame → Option ℕ
  | .takeSlot _ s | .joining _ s _ | .transfer s _ => some s
  | .known point s =>
    match point with
    | .checkTransfers | .incrementTransfers | .checkRetained | .incrementRetained => some s
    | _ => none
  | _ => none

/-- The session whose task the call has joined. -/
def Frame.joined : Frame → Option ℕ
  | .joinFailed s _ | .complete s _ => some s
  | _ => none

def ThreadState.afterJoin : ThreadState → Option ℕ
  | .joined s _ | .cancelling s | .decrementing s | .releasing s => some s
  | _ => none

/-- The event says nothing about the resources. -/
def RetirementEvent.quiet : RetirementEvent → Bool
  | .joined _ | .released _ | .incremented _ | .decremented _ | .underflowed _ => false
  | _ => true

namespace Retirement

/-- The task was not counted, and may be yet. -/
def Early (r : Retirement) (s : ℕ) : Prop :=
  (r.session s).task ∨ ∃ t, (r.frame t).early = some s

/-- The task was joined, and its permit is to be released. -/
def Done (r : Retirement) (s : ℕ) : Prop :=
  (∃ t, (r.frame t).joined = some s) ∨ r.thread.afterJoin = some s

/-- What one step may log about the resources. -/
inductive Logs (r r' : Retirement) : List RetirementEvent → Prop where
  | quiet {events : List RetirementEvent} (h : ∀ event ∈ events, event.quiet)
    (hretained : r'.retained = r.retained) : Logs r r' events
  | joined {s : ℕ} {o : Owner} {result : JoinResult} (ho : .task s ∈ r.holds o)
    (hended : (r.session s).phase = .ended result) (hretained : r'.retained = r.retained) :
    Logs r r' [.joined s]
  | released {s : ℕ} {o : Owner} (ho : .slot s ∈ r.holds o) (hdone : r.Done s)
    (hretained : r'.retained = r.retained) : Logs r r' [.released s]
  | incremented {s t : ℕ} (hframe : r.frame t = .known .incrementRetained s)
    (hframe' : r'.frame t = .known .publish s) (hlt : r.retained < usizeMax)
    (hretained : r'.retained = r.retained + 1) : Logs r r' [.incremented s]
  | decremented {s : ℕ} {o : Owner} (ho : .count s ∈ r.holds o) (hpos : 0 < r.retained)
    (hretained : r'.retained = r.retained - 1) : Logs r r' [.decremented s]
  | underflowed {s : ℕ} {o : Owner} {events : List RetirementEvent} (ho : .count s ∈ r.holds o)
    (hzero : r.retained = 0) : Logs r r' (.underflowed s :: events)
  | reaped {entry : FailedRetirement} {result : JoinResult} (hentry : entry ∈ r.ledger)
    (hended : (r.session entry.s).phase = .ended result) (hretained : r'.retained = r.retained) :
    Logs r r' ([.joined entry.s, .cell entry.s .markDisconnected, .reaped entry.s] ++
        if entry.slot then [.released entry.s] else [])

theorem release_retained : (r.release s slot).retained = r.retained := by cases slot <;> rfl

theorem release_log : (r.release s slot).log = r.log ++ if slot then [.released s] else [] := by
  cases slot
  · exact (List.append_nil _).symm
  · rfl

theorem logs_task (hs : TaskStep s r r') :
    ∃ events, r'.log = r.log ++ events ∧ r.Logs r' events := by
  cases hs with
  | connect | connectionDone | shutdownSeen | returns | stopped =>
    exact ⟨[], (List.append_nil _).symm, .quiet (by simp) rfl⟩
  | requested | graceDone | graceTimeout | publish =>
    exact ⟨_, rfl, .quiet (by simp [RetirementEvent.quiet]) rfl⟩

theorem logs_call (hs : CallStep t r r') :
    ∃ events, r'.log = r.log ++ events ∧ r.Logs r' events := by
  cases hs with
  | call | takeTask | taskTaken | takeSlot | waited | dropGuard =>
    exact ⟨[], (List.append_nil _).symm, .quiet (by simp) rfl⟩
  | requestShutdown | joinFailed => exact ⟨_, rfl, .quiet (by simp [RetirementEvent.quiet]) rfl⟩
  | joined hframe hended =>
    exact ⟨_, rfl, .joined (o := .call t) (by simp [holds, hframe, Frame.holds]) hended rfl⟩
  | @complete s slot hframe =>
    refine ⟨_, release_log, ?_⟩
    cases slot with
    | false => exact .quiet (by simp) rfl
    | true =>
      refine .released (o := .call t) ?_ (.inl ⟨t, ?_⟩) rfl
      · simp [holds, hframe, Frame.holds, slotOf]
      · simp [hframe, Frame.joined]

theorem logs_transfer (hs : TransferStep t r r') :
    ∃ events, r'.log = r.log ++ events ∧ r.Logs r' events := by
  cases hs with
  | init | known | unknown | checkTransfers | incrementTransfers | overflowTransfers | checkRetained
  | overflowRetained | poison | refused =>
    exact ⟨[], (List.append_nil _).symm, .quiet (by simp) rfl⟩
  | incrementRetained hframe hlt =>
    exact ⟨_, rfl, .incremented hframe (Function.update_self ..) hlt rfl⟩
  | publish | send | publishFailed | push =>
    exact ⟨_, rfl, .quiet (by simp [RetirementEvent.quiet]) rfl⟩
  | decrementRetained hframe hpos =>
    exact ⟨_, rfl, .decremented (o := .call t)
      (by simp [holds, hframe, Frame.holds, TransferPoint.counted]) hpos rfl⟩
  | underflowRetained hframe hzero =>
    exact ⟨_, rfl, .underflowed (o := .call t)
      (by simp [holds, hframe, Frame.holds, TransferPoint.counted]) hzero⟩
  | abort => exact ⟨_, List.append_assoc .., .quiet (by simp [RetirementEvent.quiet]) rfl⟩

theorem logs_thread (hs : ThreadStep r r') :
    ∃ events, r'.log = r.log ++ events ∧ r.Logs r' events := by
  cases hs with
  | receive | barrier | check => exact ⟨[], (List.append_nil _).symm, .quiet (by simp) rfl⟩
  | join hthread hended =>
    exact ⟨_, rfl, .joined (o := .thread) (by simp [holds, hthread, ThreadState.holds]) hended rfl⟩
  | cancel => exact ⟨_, rfl, .quiet (by simp [RetirementEvent.quiet]) rfl⟩
  | decrement hthread hpos =>
    exact ⟨_, rfl, .decremented (o := .thread)
      (by simp [holds, hthread, ThreadState.holds]) hpos rfl⟩
  | underflow hthread hzero =>
    exact ⟨_, rfl, .underflowed (o := .thread) (by simp [holds, hthread, ThreadState.holds]) hzero⟩
  | release hthread =>
    refine ⟨_, rfl, .released (o := .thread) ?_ (.inr ?_) rfl⟩
    · simp [holds, hthread, ThreadState.holds]
    · simp [hthread, ThreadState.afterJoin]

theorem logs_drain (hs : DrainStep t r r') :
    ∃ events, r'.log = r.log ++ events ∧ r.Logs r' events := by
  cases hs with
  | noCustodian | sendBarrier | refused | completed | loadRetained | loadPoisoned | lock | notReady
  | scanned | loadLedgerPoisoned | loadDrainFailed =>
    exact ⟨[], (List.append_nil _).symm, .quiet (by simp) rfl⟩
  | call | returns | dropped => exact ⟨_, rfl, .quiet (by simp [RetirementEvent.quiet]) rfl⟩
  | reap hframe hentry hended =>
    exact ⟨_, release_log.trans (List.append_assoc ..), .reaped
      (List.mem_of_getElem? hentry) hended release_retained⟩

theorem step_logs (hs : r.Step r') : ∃ events, r'.log = r.log ++ events ∧ r.Logs r' events := by
  cases hs with
  | task s hs => exact logs_task hs
  | call t hs => exact logs_call hs
  | transfer t hs => exact logs_transfer hs
  | thread hs => exact logs_thread hs
  | drain t hs => exact logs_drain hs

/-! ## What a step does to the tasks -/

@[simp] theorem goto_session : (r.goto t f).session = r.session := rfl

@[simp] theorem happened_session : (r.happened events).session = r.session := rfl

@[simp] theorem lost_session : (r.lost s).session = r.session := rfl

@[simp] theorem release_session : (r.release s slot).session = r.session := by cases slot <;> rfl

@[simp] theorem release_frame : (r.release s slot).frame = r.frame := by cases slot <;> rfl

@[simp] theorem release_thread : (r.release s slot).thread = r.thread := by cases slot <;> rfl

theorem session_modify (u : ℕ) :
    (r.modify s g).session u = if u = s then g (r.session s) else r.session u :=
  Function.update_apply ..

/-- A field that `g` leaves alone. -/
theorem modify_field {α : Type} (field : AuthenticatedUserWsInner → α)
    (hg : ∀ session, field (g session) = field session) (u : ℕ) :
    field ((r.modify s g).session u) = field (r.session u) := by
  rw [session_modify]
  split_ifs with hu
  · rw [hg, hu]
  · rfl

@[simp] theorem publish_phase (u : ℕ) :
    ((r.publish s state).session u).phase = (r.session u).phase :=
  modify_field AuthenticatedUserWsInner.phase (by intro; rfl) u

@[simp] theorem publish_task (u : ℕ) :
    ((r.publish s state).session u).task = (r.session u).task :=
  modify_field AuthenticatedUserWsInner.task (by intro; rfl) u

/-- Only the task itself moves on. -/
theorem step_phase (hs : r.Step r') (u : ℕ) :
    (r'.session u).phase = (r.session u).phase ∨ TaskStep u r r' := by
  cases hs with
  | task s hs =>
    by_cases hu : u = s
    · exact .inr (hu ▸ hs)
    · left
      cases hs <;> simp [enter, publish, lost, happened, modify, hu]
  | call t hs =>
    left
    cases hs with
    | requestShutdown | takeTask | takeSlot | joinFailed =>
      simp only [happened_session, goto_session]
      exact modify_field AuthenticatedUserWsInner.phase (by intro; rfl) u
    | complete => simp only [release_session, goto_session]
    | _ => rfl
  | transfer t hs =>
    left
    cases hs with
    | publish | publishFailed =>
      simp only [happened_session, goto_session]
      exact modify_field AuthenticatedUserWsInner.phase (by intro; rfl) u
    | _ => rfl
  | thread hs =>
    left
    cases hs with
    | cancel =>
      simp only [lost_session]
      exact modify_field AuthenticatedUserWsInner.phase (by intro; rfl) u
    | release => simp only [release_session]
    | _ => rfl
  | drain t hs =>
    left
    cases hs with
    | reap =>
      simp only [release_session, happened_session]
      exact modify_field AuthenticatedUserWsInner.phase (by intro; rfl) u
    | _ => rfl

theorem step_unspawned (hs : r.Step r') (hr : (r'.session s).phase = .unspawned) :
    (r.session s).phase = .unspawned := by
  rcases step_phase hs s with h | h
  · exact h ▸ hr
  · cases h <;> simp [enter, publish, lost, happened, modify] at hr

theorem step_ended {result : JoinResult} (hs : r.Step r')
    (hr : (r.session s).phase = .ended result) : (r'.session s).phase = .ended result := by
  rcases step_phase hs s with h | h
  · exact h.trans hr
  · cases h <;> simp_all

theorem goto_frame (u : ℕ) : (r.goto t f).frame u = if u = t then f else r.frame u :=
  Function.update_apply ..

/-- Calls other than `t` stay where they are. -/
theorem early_of_frame (hr : r'.Early s) (hsession : (r'.session s).task = (r.session s).task)
    (hframe : r'.frame = Function.update r.frame t f) (hf : f.early = some s → r.Early s) :
    r.Early s := by
  rcases hr with htask | ⟨u, hu⟩
  · exact .inl (hsession ▸ htask)
  · rw [hframe, Function.update_apply] at hu
    split_ifs at hu
    · exact hf hu
    · exact .inr ⟨u, hu⟩

theorem early_task {u : ℕ} (hs : TaskStep u r r') (hr : r'.Early s) :
    r.Early s ∨ (r.session s).phase = .unspawned := by
  have hother : (∀ x, x ≠ u → r'.session x = r.session x) ∧ r'.frame = r.frame := by
    cases hs <;> exact ⟨fun x hx => by simp [enter, publish, lost, happened, modify, hx], rfl⟩
  rcases hr with htask | ⟨t, ht⟩
  · by_cases hu : s = u
    · subst hu
      cases hs with
      | connect hphase => exact .inr hphase
      | _ =>
        refine .inl (.inl ?_)
        simpa [enter, publish, lost, happened, modify] using htask
    · rw [hother.1 s hu] at htask
      exact .inl (.inl htask)
  · rw [hother.2] at ht
    exact .inl (.inr ⟨t, ht⟩)

theorem early_call (hs : CallStep t r r') (hr : r'.Early s) : r.Early s := by
  cases hs with
  | call | waited => exact early_of_frame hr rfl rfl (by simp [Frame.early])
  | requestShutdown | joinFailed =>
    refine early_of_frame hr ?_ rfl (by simp [Frame.early])
    simp only [happened_session, goto_session]
    exact modify_field AuthenticatedUserWsInner.task (by intro; rfl) s
  | @takeTask kind u hframe htask =>
    rcases hr with hr | ⟨v, hv⟩
    · simp only [goto_session, session_modify] at hr
      split_ifs at hr
      exact .inl hr
    · rw [goto_frame] at hv
      split_ifs at hv
      · cases hv
        exact .inl htask
      · exact .inr ⟨v, hv⟩
  | taskTaken hframe =>
    refine early_of_frame hr rfl rfl ?_
    split_ifs <;> simp [Frame.early]
  | takeSlot hframe =>
    refine early_of_frame hr ?_ rfl fun hf => .inr ⟨t, ?_⟩
    · simp only [goto_session]
      exact modify_field AuthenticatedUserWsInner.task (by intro; rfl) s
    · rw [hframe]
      split_ifs at hf <;> exact hf
  | joined hframe =>
    refine early_of_frame hr rfl rfl ?_
    split_ifs <;> simp [Frame.early]
  | dropGuard hframe => exact early_of_frame hr rfl rfl fun hf => .inr ⟨t, by rw [hframe]; exact hf⟩
  | complete =>
    exact early_of_frame hr (by simp) (by simp only [release_frame]; rfl) (by simp [Frame.early])

theorem early_transfer (hs : TransferStep t r r') (hr : r'.Early s) : r.Early s := by
  cases hs with
  | init => exact hr
  | known hframe | incrementTransfers hframe =>
    exact early_of_frame hr rfl rfl fun hf => .inr ⟨t, by rw [hframe]; exact hf⟩
  | checkTransfers hframe | checkRetained hframe =>
    refine early_of_frame hr rfl rfl fun hf => .inr ⟨t, ?_⟩
    rw [hframe]
    split_ifs at hf
    · cases hf
    · exact hf
  | publish | publishFailed =>
    refine early_of_frame hr ?_ rfl (by simp [Frame.early])
    simp only [happened_session, goto_session]
    exact modify_field AuthenticatedUserWsInner.task (by intro; rfl) s
  | _ => exact early_of_frame hr rfl rfl (by simp [Frame.early])

theorem early_drain (hs : DrainStep t r r') (hr : r'.Early s) : r.Early s := by
  cases hs with
  | @reap since process index entry result =>
    rcases hr with hr | ⟨u, hu⟩
    · simp only [release_session, happened_session, publish_task] at hr
      exact .inl hr
    · simp only [release_frame] at hu
      exact .inr ⟨u, hu⟩
  | _ => exact early_of_frame hr rfl rfl (by simp [Frame.early])

/-- A call is early only of a task that it or a session had early, or that is spawned. -/
theorem step_early (hs : r.Step r') (hr : r'.Early s) :
    r.Early s ∨ (r.session s).phase = .unspawned := by
  cases hs with
  | task u hs => exact early_task hs hr
  | call t hs => exact .inl (early_call hs hr)
  | transfer t hs => exact .inl (early_transfer hs hr)
  | thread hs =>
    left
    cases hs with
    | cancel =>
      rcases hr with hr | hr
      · simp only [lost_session, publish_task] at hr
        exact .inl hr
      · exact .inr hr
    | release =>
      rcases hr with hr | hr
      · simp only [release_session] at hr
        exact .inl hr
      · simp only [release_frame] at hr
        exact .inr hr
    | _ => exact hr
  | drain t hs => exact .inl (early_drain hs hr)

theorem done_of_frame (hr : r'.Done s) (hthread : r'.thread = r.thread)
    (hframe : r'.frame = Function.update r.frame t f) (hf : f.joined = some s → r.Done s) :
    r.Done s := by
  rcases hr with ⟨u, hu⟩ | hr
  · rw [hframe, Function.update_apply] at hu
    split_ifs at hu
    · exact hf hu
    · exact .inl ⟨u, hu⟩
  · exact .inr (hthread ▸ hr)

/-- A task is done only once it was joined. -/
theorem step_done (hs : r.Step r') (hr : r'.Done s) : r.Done s ∨ .joined s ∈ r'.log := by
  cases hs with
  | task u hs =>
    left
    cases hs <;> exact hr
  | call t hs =>
    cases hs with
    | taskTaken =>
      refine .inl (done_of_frame hr rfl rfl ?_)
      split_ifs <;> simp [Frame.joined]
    | takeSlot =>
      refine .inl (done_of_frame hr rfl rfl ?_)
      split_ifs <;> simp [Frame.joined]
    | @joined kind u slot result hframe =>
      by_cases hu : u = s
      · right
        simp [happened, hu]
      · refine .inl (done_of_frame hr rfl rfl fun hf => absurd ?_ hu)
        split_ifs at hf <;> exact Option.some.inj hf
    | joinFailed hframe =>
      exact .inl (done_of_frame hr rfl rfl fun hf => .inl ⟨t, by rw [hframe]; exact hf⟩)
    | complete =>
      left
      refine done_of_frame (t := t) (f := .idle) hr ?_ ?_ (by simp [Frame.joined])
      · simp only [release_thread]
        rfl
      · simp only [release_frame]
        rfl
    | _ => exact .inl (done_of_frame hr rfl rfl (by simp [Frame.joined]))
  | transfer t hs =>
    left
    cases hs with
    | init => exact hr
    | checkTransfers | checkRetained =>
      refine done_of_frame hr rfl rfl ?_
      split_ifs <;> simp [Frame.joined]
    | _ => exact done_of_frame hr rfl rfl (by simp [Frame.joined])
  | thread hs =>
    rcases hr with hr | hr
    · left
      left
      cases hs with
      | release => simpa only [release_frame] using hr
      | _ => exact hr
    · cases hs with
      | receive | barrier => exact .inl (.inr (by simp_all [ThreadState.afterJoin]))
      | join hthread =>
        right
        cases hr
        simp [happened]
      | check hthread =>
        refine .inl (.inr ?_)
        dsimp only at hr
        rw [hthread]
        split_ifs at hr <;> exact hr
      | cancel hthread | decrement hthread | underflow hthread =>
        refine .inl (.inr ?_)
        rw [hthread]
        exact hr
      | release => simp [ThreadState.afterJoin] at hr
  | drain t hs =>
    left
    cases hs with
    | reap =>
      rcases hr with hr | hr
      · simp only [release_frame] at hr
        exact .inl hr
      · simp only [release_thread] at hr
        exact .inr hr
    | _ => exact done_of_frame hr rfl rfl (by simp [Frame.joined])

/-! ## The invariant -/

/-- The resources are in linear custody, and the log and the counter agree with them. -/
structure Custody (r : Retirement) : Prop where
  linear : Linear r.holds r.live
  unspawned : ∀ s, (r.session s).phase = .unspawned →
    .joined s ∉ r.log ∧ .released s ∉ r.log ∧ .incremented s ∉ r.log
  early : ∀ s, r.Early s → .incremented s ∉ r.log
  decremented : ∀ s, .decremented s ∈ r.log → .incremented s ∈ r.log
  retained : ∃ counted : Finset ℕ, counted.card = r.retained ∧
    ∀ s, s ∈ counted ↔ r.live (.count s)
  bounded : r.retained ≤ usizeMax
  underflowed : ∀ s, .underflowed s ∉ r.log
  ended : ∀ s, .joined s ∈ r.log → ∃ result, (r.session s).phase = .ended result
  done : ∀ s, r.Done s → .joined s ∈ r.log
  released : ∀ l₁ l₂ s, r.log = l₁ ++ .released s :: l₂ → .joined s ∈ l₁ ∧ .released s ∉ l₁
  joined : ∀ l₁ l₂ s, r.log = l₁ ++ .joined s :: l₂ → .joined s ∉ l₁

/-- A counted transfer keeps the counter above zero. -/
theorem Custody.retained_pos (h : r.Custody) (hs : r.live (.count s)) : 0 < r.retained := by
  obtain ⟨counted, hcard, hcounted⟩ := h.retained
  rw [← hcard]
  exact Finset.card_pos.2 ⟨s, (hcounted s).2 hs⟩

theorem early_held (hr : r.Early s) : ∃ o, .task s ∈ r.holds o ∧
    (o = .session s ∨ ∃ t, o = .call t ∧ (r.frame t).early = some s) := by
  rcases hr with hr | ⟨t, ht⟩
  · exact ⟨.session s, by simp [holds, AuthenticatedUserWsInner.holds, hr], .inl rfl⟩
  · refine ⟨.call t, ?_, .inr ⟨t, rfl, ht⟩⟩
    unfold holds
    cases hf : r.frame t with
    | known point u =>
      rw [hf] at ht
      cases point <;> simp_all [Frame.early, Frame.holds]
    | _ =>
      rw [hf] at ht
      simp_all [Frame.early, Frame.holds]

theorem step_moves (h : r.Custody) (hs : r.Step r') : r.Moves r' := by
  have hpos : ∀ s, r.live (.count s) → 0 < r.retained := fun s => h.retained_pos
  cases hs with
  | task s hs =>
    refine moves_task h.linear hs fun hphase => ?_
    obtain ⟨hjoined, hreleased, -⟩ := h.unspawned s hphase
    exact ⟨hjoined, hreleased⟩
  | call t hs => exact moves_call hs
  | transfer t hs =>
    refine moves_transfer h.linear hs (fun s hframe => ?_) hpos
    have hearly := h.early s (.inr ⟨t, by rw [hframe]; rfl⟩)
    exact ⟨hearly, fun hd => hearly (h.decremented s hd)⟩
  | thread hs => exact moves_thread h.linear hs hpos
  | drain t hs => exact moves_drain hs

theorem split_append {α : Type} {l l₁ l₂ events : List α} {e : α}
    (h : l ++ events = l₁ ++ e :: l₂) :
    (∃ l₃, l = l₁ ++ e :: l₃) ∨ ∃ pre, l₁ = l ++ pre ∧ events = pre ++ e :: l₂ := by
  rcases List.append_eq_append_iff.1 h with ⟨pre, h₁, h₂⟩ | ⟨rest, h₁, h₂⟩
  · exact .inr ⟨pre, h₁, h₂⟩
  · rcases List.cons_eq_append_iff.1 h₂ with ⟨rfl, h₃⟩ | ⟨rest', rfl, -⟩
    · exact .inr ⟨[], by simpa using h₁.symm, h₃⟩
    · exact .inl ⟨rest', h₁⟩

theorem append_cons_eq_singleton {α : Type} {pre post : List α} {a b : α} :
    pre ++ a :: post = [b] ↔ pre = [] ∧ a = b ∧ post = [] := by
  cases pre <;> simp

/-- A join finds a task that was not joined. -/
theorem Logs.joined_split {pre post : List RetirementEvent} (h : r.Custody)
    (hl : r.Logs r' (pre ++ .joined s :: post)) : r.live (.task s) ∧ .joined s ∉ pre ∧
      ∃ result, (r.session s).phase = .ended result := by
  generalize he : pre ++ .joined s :: post = events at hl
  cases hl with
  | quiet hq =>
    have hm := hq (.joined s) (by simp [← he])
    cases hm
  | joined ho hended =>
    obtain ⟨rfl, heq, -⟩ := append_cons_eq_singleton.1 he
    cases heq
    exact ⟨h.linear.live_of_mem ho, by simp, _, hended⟩
  | underflowed ho hzero => exact absurd hzero (h.retained_pos (h.linear.live_of_mem ho)).ne'
  | @reaped entry result hentry hended =>
    have ho : .task entry.s ∈ r.holds .ledger :=
      List.mem_flatMap.2 ⟨entry, hentry, by simp [FailedRetirement.holds]⟩
    have hs : s = entry.s := by
      have hm : .joined s ∈ pre ++ .joined s :: post := by simp
      rw [he] at hm
      split_ifs at hm <;> simpa using hm
    subst hs
    refine ⟨h.linear.live_of_mem ho, ?_, _, hended⟩
    cases pre with
    | nil => simp
    | cons e pre =>
      exfalso
      simp only [List.cons_append, List.cons.injEq] at he
      have hm : .joined entry.s ∈ pre ++ .joined entry.s :: post := by simp
      rw [he.2] at hm
      split_ifs at hm <;> simp at hm
  | released | incremented | decremented => simp [append_cons_eq_singleton] at he

/-- A permit is released once, after the join. -/
theorem Logs.released_split {pre post : List RetirementEvent} (h : r.Custody)
    (hl : r.Logs r' (pre ++ .released s :: post)) :
    r.live (.slot s) ∧ .released s ∉ pre ∧ (.joined s ∈ r.log ∨ .joined s ∈ pre) := by
  generalize he : pre ++ .released s :: post = events at hl
  cases hl with
  | quiet hq =>
    have hm := hq (.released s) (by simp [← he])
    cases hm
  | released ho hdone =>
    obtain ⟨rfl, heq, -⟩ := append_cons_eq_singleton.1 he
    cases heq
    exact ⟨h.linear.live_of_mem ho, by simp, .inl (h.done s hdone)⟩
  | underflowed ho hzero => exact absurd hzero (h.retained_pos (h.linear.live_of_mem ho)).ne'
  | @reaped entry result hentry hended =>
    rcases split_append he.symm with ⟨l₃, h₃⟩ | ⟨pre', rfl, h₃⟩
    · have hm : .released s ∈ pre ++ .released s :: l₃ := by simp
      rw [← h₃] at hm
      simp at hm
    · split_ifs at h₃ with hslot
      · obtain ⟨rfl, heq, -⟩ := append_cons_eq_singleton.1 h₃.symm
        cases heq
        have ho : .slot entry.s ∈ r.holds .ledger := List.mem_flatMap.2
          ⟨entry, hentry, by simp [FailedRetirement.holds, slotOf, hslot]⟩
        exact ⟨h.linear.live_of_mem ho, by simp, .inr (by simp)⟩
      · simp at h₃
  | joined | incremented | decremented => simp [append_cons_eq_singleton] at he

theorem Logs.incremented_mem {events : List RetirementEvent} (h : r.Custody)
    (hl : r.Logs r' events) (hm : .incremented s ∈ events) : ∃ t,
      r.frame t = .known .incrementRetained s ∧ r'.frame t = .known .publish s := by
  cases hl with
  | quiet hq => cases hq _ hm
  | incremented hframe hframe' =>
    cases List.mem_singleton.1 hm
    exact ⟨_, hframe, hframe'⟩
  | underflowed ho hzero => exact absurd hzero (h.retained_pos (h.linear.live_of_mem ho)).ne'
  | reaped => split_ifs at hm <;> simp at hm
  | joined | released | decremented => simp at hm

theorem Logs.decremented_mem {events : List RetirementEvent} (h : r.Custody)
    (hl : r.Logs r' events) (hm : .decremented s ∈ events) : r.live (.count s) := by
  cases hl with
  | quiet hq => cases hq _ hm
  | decremented ho =>
    cases List.mem_singleton.1 hm
    exact h.linear.live_of_mem ho
  | underflowed ho hzero => exact absurd hzero (h.retained_pos (h.linear.live_of_mem ho)).ne'
  | reaped => split_ifs at hm <;> simp at hm
  | joined | released | incremented => simp at hm

/-- A transfer is counted once. -/
theorem Logs.incremented_split {pre post : List RetirementEvent} (h : r.Custody)
    (hl : r.Logs r' (pre ++ .incremented s :: post)) : pre = [] ∧ .incremented s ∉ r.log := by
  obtain ⟨t, hframe, -⟩ := hl.incremented_mem (s := s) h (by simp)
  refine ⟨?_, h.early s (.inr ⟨t, by rw [hframe]; rfl⟩)⟩
  generalize he : pre ++ .incremented s :: post = events at hl
  have hm : .incremented s ∈ events := by simp [← he]
  cases hl with
  | quiet hq =>
    have hquiet := hq _ hm
    cases hquiet
  | incremented => exact (append_cons_eq_singleton.1 he).1
  | underflowed ho hzero => exact absurd hzero (h.retained_pos (h.linear.live_of_mem ho)).ne'
  | reaped => split_ifs at hm <;> simp at hm
  | joined | released | decremented => simp at hm

/-- A transfer that is counted is uncounted once. -/
theorem Logs.decremented_split {pre post : List RetirementEvent} (h : r.Custody)
    (hl : r.Logs r' (pre ++ .decremented s :: post)) : pre = [] ∧ r.live (.count s) := by
  refine ⟨?_, hl.decremented_mem h (by simp)⟩
  generalize he : pre ++ .decremented s :: post = events at hl
  have hm : .decremented s ∈ events := by simp [← he]
  cases hl with
  | quiet hq =>
    have hquiet := hq _ hm
    cases hquiet
  | decremented => exact (append_cons_eq_singleton.1 he).1
  | underflowed ho hzero => exact absurd hzero (h.retained_pos (h.linear.live_of_mem ho)).ne'
  | reaped => split_ifs at hm <;> simp at hm
  | joined | released | incremented => simp at hm

theorem Logs.underflowed_notMem {events : List RetirementEvent} (h : r.Custody)
    (hl : r.Logs r' events) : .underflowed s ∉ events := by
  intro hm
  cases hl with
  | quiet hq => cases hq _ hm
  | underflowed ho hzero => exact absurd hzero (h.retained_pos (h.linear.live_of_mem ho)).ne'
  | reaped => split_ifs at hm <;> simp at hm
  | joined | released | incremented | decremented => simp at hm

theorem count_live (hlog : r'.log = r.log ++ events) : r'.live (.count s) ↔
    (.incremented s ∈ r.log ∨ .incremented s ∈ events) ∧
      .decremented s ∉ r.log ∧ .decremented s ∉ events := by
  simp [live, hlog]

/-- The counter is the number of the transfers that are counted. -/
theorem custody_retained {events : List RetirementEvent} (h : r.Custody)
    (hlog : r'.log = r.log ++ events) (hl : r.Logs r' events) :
    ∃ counted : Finset ℕ, counted.card = r'.retained ∧ ∀ s, s ∈ counted ↔ r'.live (.count s) := by
  obtain ⟨counted, hcard, hcounted⟩ := h.retained
  have hsame : r'.retained = r.retained → (∀ s, .incremented s ∉ events ∧ .decremented s ∉ events) →
      ∃ counted : Finset ℕ, counted.card = r'.retained ∧
        ∀ s, s ∈ counted ↔ r'.live (.count s) := by
    intro hretained hnot
    refine ⟨counted, hcard.trans hretained.symm, fun s => ?_⟩
    rw [hcounted, count_live hlog]
    simp [live, hnot s]
  cases hl with
  | quiet hq hretained =>
    refine hsame hretained fun s => ⟨fun hm => ?_, fun hm => ?_⟩
    · have hquiet := hq (.incremented s) hm
      cases hquiet
    · have hquiet := hq (.decremented s) hm
      cases hquiet
  | joined ho hended hretained => exact hsame hretained (by simp)
  | released ho hdone hretained => exact hsame hretained (by simp)
  | @incremented s t hframe hframe' hlt hretained =>
    have hearly := h.early s (.inr ⟨t, by rw [hframe]; rfl⟩)
    have hnot : s ∉ counted := fun hm => hearly ((hcounted s).1 hm).1
    refine ⟨insert s counted, by rw [Finset.card_insert_of_notMem hnot, hcard, hretained], ?_⟩
    intro u
    rw [Finset.mem_insert, hcounted, count_live hlog]
    by_cases hu : u = s
    · subst hu
      have hdecremented : .decremented u ∉ r.log := fun hd => hearly (h.decremented u hd)
      simp [hdecremented]
    · simp [live, hu]
  | @decremented s o ho hpos hretained =>
    have hm : s ∈ counted := (hcounted s).2 (h.linear.live_of_mem ho)
    refine ⟨counted.erase s, by rw [Finset.card_erase_of_mem hm, hcard, hretained], ?_⟩
    intro u
    rw [Finset.mem_erase, hcounted, count_live hlog]
    by_cases hu : u = s
    · simp [hu]
    · simp [live, hu]
  | underflowed ho hzero => exact absurd hzero (h.retained_pos (h.linear.live_of_mem ho)).ne'
  | reaped hentry hended hretained =>
    refine hsame hretained fun s => ?_
    split_ifs <;> simp

theorem custody_preserved (h : r.Custody) (hs : r.Step r') : r'.Custody := by
  obtain ⟨events, hlog, hl⟩ := step_logs hs
  have hlinear := h.linear.step (step_moves h hs)
  refine ⟨hlinear, ?_, ?_, ?_, custody_retained h hlog hl, ?_, ?_, ?_, ?_, ?_, ?_⟩
  · intro s hphase
    have hphase := step_unspawned hs hphase
    obtain ⟨hjoined, hreleased, hincremented⟩ := h.unspawned s hphase
    rw [hlog]
    refine ⟨fun hm => ?_, fun hm => ?_, fun hm => ?_⟩
    · obtain ⟨pre, post, rfl⟩ := List.append_of_mem ((List.mem_append.1 hm).resolve_left hjoined)
      exact (hl.joined_split h).1.1 hphase
    · obtain ⟨pre, post, rfl⟩ := List.append_of_mem ((List.mem_append.1 hm).resolve_left hreleased)
      exact (hl.released_split h).1.1 hphase
    · obtain ⟨t, hframe, -⟩ :=
        hl.incremented_mem h ((List.mem_append.1 hm).resolve_left hincremented)
      have ho : .task s ∈ r.holds (.call t) := by simp [holds, hframe, Frame.holds]
      exact (h.linear.live_of_mem ho).1 hphase
  · intro s hearly hm
    rw [hlog, List.mem_append] at hm
    rcases hm with hm | hm
    · rcases step_early hs hearly with hearly | hphase
      · exact h.early s hearly hm
      · exact (h.unspawned s hphase).2.2 hm
    · obtain ⟨t, -, hframe'⟩ := hl.incremented_mem h hm
      obtain ⟨o, ho, howner⟩ := early_held hearly
      have ht : .task s ∈ r'.holds (.call t) := by simp [holds, hframe', Frame.holds]
      have heq := hlinear.unique ho ht
      rcases howner with rfl | ⟨u, rfl, hu⟩
      · cases heq
      · cases heq
        rw [hframe'] at hu
        cases hu
  · intro s hm
    rw [hlog, List.mem_append] at hm ⊢
    rcases hm with hm | hm
    · exact .inl (h.decremented s hm)
    · exact .inl (hl.decremented_mem h hm).1
  · have hbounded := h.bounded
    cases hl with
    | incremented hframe hframe' hlt hretained => omega
    | decremented ho hpos hretained => omega
    | underflowed ho hzero => exact absurd hzero (h.retained_pos (h.linear.live_of_mem ho)).ne'
    | quiet | joined | released | reaped => omega
  · intro s
    rw [hlog, List.mem_append, not_or]
    exact ⟨h.underflowed s, hl.underflowed_notMem h⟩
  · intro s hm
    rw [hlog, List.mem_append] at hm
    rcases hm with hm | hm
    · obtain ⟨result, hended⟩ := h.ended s hm
      exact ⟨result, step_ended hs hended⟩
    · obtain ⟨pre, post, rfl⟩ := List.append_of_mem hm
      obtain ⟨-, -, result, hended⟩ := hl.joined_split h
      exact ⟨result, step_ended hs hended⟩
  · intro s hdone
    rcases step_done hs hdone with hdone | hm
    · rw [hlog]
      exact List.mem_append_left _ (h.done s hdone)
    · exact hm
  · intro l₁ l₂ s heq
    rcases split_append (hlog.symm.trans heq) with ⟨l₃, h₃⟩ | ⟨pre, rfl, rfl⟩
    · exact h.released l₁ l₃ s h₃
    · obtain ⟨hlive, hpre, hjoined⟩ := hl.released_split h
      rw [List.mem_append, List.mem_append, not_or]
      exact ⟨hjoined, hlive.2, hpre⟩
  · intro l₁ l₂ s heq
    rcases split_append (hlog.symm.trans heq) with ⟨l₃, h₃⟩ | ⟨pre, rfl, rfl⟩
    · exact h.joined l₁ l₃ s h₃
    · obtain ⟨hlive, hpre, -⟩ := hl.joined_split h
      rw [List.mem_append, not_or]
      exact ⟨hlive.2, hpre⟩

theorem custody_initial : Custody {} := by
  have hholds : ∀ o, holds {} o = [] := by
    intro o
    cases o <;> rfl
  refine ⟨⟨?_, ?_⟩, ?_, ?_, ?_, ⟨∅, rfl, ?_⟩, ?_, ?_, ?_, ?_, ?_, ?_⟩
  · intro k hk
    cases k <;> simp [live] at hk
  · intro k hk o
    simp [hholds]
  all_goals simp [live, Early, Done, Frame.early, Frame.joined, ThreadState.afterJoin]

theorem custody (h : r.Reachable) : r.Custody := by
  induction h with
  | refl => exact custody_initial
  | tail _ hs ih => exact custody_preserved ih hs

end Retirement

end

end Rspm
