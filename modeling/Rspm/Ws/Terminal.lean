/-
  The terminal states of a session's retirement.

  Five writers publish to `retirement_state_tx` without a compare.  A transfer
  publishes `RetainedByProcessCustodian` over whatever is there, and the ledger
  reaps a task as a cancelled one.  Where no transfer begins for a task that has
  published, and no task publishes in the middle of one (`Timely`), no transfer
  and no ledger ever has such a task (`Aloof`), and a terminal state stays.
-/
import Rspm.Ws.Drain

namespace Rspm

/-- The event says nothing about the state that is published, or about evidence. -/
def RetirementEvent.mild : RetirementEvent → Bool
  | .published .. | .retained _ | .aborted _ | .reaped _ | .cell _ .markEvidenceGap => false
  | _ => true

section

variable {r r' : Retirement} {s t u : ℕ} {f : Frame} {events : List RetirementEvent}
  {state disposition : RetirementState} {result : JoinResult} {slot : Bool}

/-- The call transfers `s`, and has not published yet that it is retained. -/
def Frame.Retains (s : ℕ) : Frame → Prop
  | .transfer u _ => u = s
  | .known point u => u = s ∧ point ≠ .send
  | .failed point u _ => u = s ∧ point ≠ .push
  | _ => False

theorem Frame.Retains.holds (h : f.Retains s) : .task s ∈ f.holds := by
  cases f with
  | transfer u slot | known point u | failed point u slot =>
    simp only [Frame.Retains] at h
    simp [Frame.holds, h]
  | _ => exact h.elim

namespace Retirement

/-- The step publishes `state` for `s`, and nothing else. -/
def Writes (r r' : Retirement) (s : ℕ) (state : RetirementState) : Prop :=
  ∀ u, (r'.session u).retirementState = if u = s then state else (r.session u).retirementState

/-- What one step publishes, and what it logs about it. -/
inductive Status (r r' : Retirement) : List RetirementEvent → Prop where
  | kept {events : List RetirementEvent}
    (hvalue : ∀ u, (r'.session u).retirementState = (r.session u).retirementState)
    (hmild : ∀ event ∈ events, event.mild) : Status r r' events
  | requested {s : ℕ} (hphase : (r.session s).phase = .shutdownSeen)
    (hvalue : r.Writes r' s .requested) : Status r r' [.cell s .markDisconnected]
  | timedOut {s : ℕ} (hphase : (r.session s).phase = .grace)
    (hvalue : ∀ u, (r'.session u).retirementState = (r.session u).retirementState) :
    Status r r' [.cell s .markEvidenceGap, .cell s .markDisconnected]
  | published {s : ℕ} {disposition : RetirementState}
    (hphase : (r.session s).phase = .disposed disposition)
    (hphase' : (r'.session s).phase = .published disposition)
    (hvalue : r.Writes r' s disposition) : Status r r' [.published s disposition]
  | joinFailed {s t : ℕ} {slot : Bool} (hframe : r.frame t = .joinFailed s slot)
    (hvalue : r.Writes r' s .terminalCancelled) : Status r r' [.cell s .markEvidenceGap]
  | retained {s t : ℕ} (hcall : (r.frame t).Retains s)
    (hvalue : r.Writes r' s .retainedByProcessCustodian) : Status r r' [.retained s]
  | aborted {s t : ℕ} (hcall : (r.frame t).Retains s)
    (hvalue : ∀ u, (r'.session u).retirementState = (r.session u).retirementState) :
    Status r r' [.aborted s, .cell s .markEvidenceGap, .cell s .markDisconnected]
  | cancelled {s : ℕ} (hthread : r.thread = .cancelling s)
    (hvalue : r.Writes r' s .terminalCancelled) :
    Status r r' [.cell s .markEvidenceGap, .cell s .markDisconnected]
  | underflowed {s : ℕ} {events : List RetirementEvent} (hcount : .count s ∈ r.holds .thread)
    (hzero : r.retained = 0) : Status r r' events
  | reaped {entry : FailedRetirement} (hentry : entry ∈ r.ledger)
    (hvalue : r.Writes r' entry.s .terminalCancelled) :
    Status r r' ([.joined entry.s, .cell entry.s .markDisconnected, .reaped entry.s] ++
      if entry.slot then [.released entry.s] else [])

theorem writes_publish : r.Writes (r.publish s state) s state := by
  intro u
  rw [publish, session_modify]
  split_ifs <;> rfl

theorem value_enter {phase : TaskPhase} (u : ℕ) :
    ((r.enter s phase).session u).retirementState = (r.session u).retirementState :=
  modify_field AuthenticatedUserWsInner.retirementState (by intro; rfl) u

theorem status_task (hs : TaskStep s r r') :
    ∃ events, r'.log = r.log ++ events ∧ r.Status r' events := by
  cases hs with
  | connect =>
    exact ⟨[], (List.append_nil _).symm,
      .kept (modify_field AuthenticatedUserWsInner.retirementState (by intro; rfl)) (by simp)⟩
  | connectionDone | shutdownSeen | returns | stopped =>
    exact ⟨[], (List.append_nil _).symm, .kept value_enter (by simp)⟩
  | requested hphase =>
    refine ⟨_, rfl, .requested hphase fun u => ?_⟩
    rw [happened_session, value_enter]
    exact writes_publish u
  | graceDone => exact ⟨_, rfl, .kept value_enter (by simp [RetirementEvent.mild])⟩
  | graceTimeout hphase => exact ⟨_, rfl, .timedOut hphase value_enter⟩
  | publish hphase =>
    refine ⟨_, rfl, .published hphase ?_ fun u => ?_⟩
    · simp [enter, modify]
    · rw [happened_session, value_enter]
      exact writes_publish u

theorem status_call (hs : CallStep t r r') :
    ∃ events, r'.log = r.log ++ events ∧ r.Status r' events := by
  cases hs with
  | call | taskTaken | waited | dropGuard =>
    exact ⟨[], (List.append_nil _).symm, .kept (fun _ => rfl) (by simp)⟩
  | takeTask | takeSlot =>
    refine ⟨[], (List.append_nil _).symm, .kept (fun u => ?_) (by simp)⟩
    rw [goto_session]
    exact modify_field AuthenticatedUserWsInner.retirementState (by intro; rfl) u
  | requestShutdown =>
    refine ⟨_, rfl, .kept (fun u => ?_) (by simp [RetirementEvent.mild])⟩
    rw [happened_session, goto_session]
    exact modify_field AuthenticatedUserWsInner.retirementState (by intro; rfl) u
  | joined => exact ⟨_, rfl, .kept (fun _ => rfl) (by simp [RetirementEvent.mild])⟩
  | joinFailed hframe => exact ⟨_, rfl, .joinFailed hframe writes_publish⟩
  | complete =>
    refine ⟨_, release_log, .kept (fun u => ?_) fun event hm => ?_⟩
    · rw [release_session]
      rfl
    · split_ifs at hm
      · rw [List.mem_singleton.1 hm]
        rfl
      · cases hm

theorem status_transfer (hs : TransferStep t r r') :
    ∃ events, r'.log = r.log ++ events ∧ r.Status r' events := by
  cases hs with
  | init | known | unknown | checkTransfers | incrementTransfers | overflowTransfers | checkRetained
  | overflowRetained | poison | refused =>
    exact ⟨[], (List.append_nil _).symm, .kept (fun _ => rfl) (by simp)⟩
  | incrementRetained | send | decrementRetained | underflowRetained | push =>
    exact ⟨_, rfl, .kept (fun _ => rfl) (by simp [RetirementEvent.mild])⟩
  | publish hframe =>
    exact ⟨_, rfl, .retained (t := t) (by simp [hframe, Frame.Retains]) writes_publish⟩
  | publishFailed hframe =>
    exact ⟨_, rfl, .retained (t := t) (by simp [hframe, Frame.Retains]) writes_publish⟩
  | abort hframe =>
    refine ⟨_, List.append_assoc .., .aborted (t := t) ?_ fun _ => rfl⟩
    simp [hframe, Frame.Retains]

theorem status_thread (hs : ThreadStep r r') :
    ∃ events, r'.log = r.log ++ events ∧ r.Status r' events := by
  cases hs with
  | receive | barrier | check =>
    exact ⟨[], (List.append_nil _).symm, .kept (fun _ => rfl) (by simp)⟩
  | join | decrement | release =>
    exact ⟨_, rfl, .kept (fun _ => rfl) (by simp [RetirementEvent.mild])⟩
  | cancel hthread => exact ⟨_, rfl, .cancelled hthread writes_publish⟩
  | @underflow s hthread hzero =>
    exact ⟨_, rfl, .underflowed (s := s) (by simp [holds, hthread, ThreadState.holds]) hzero⟩

theorem status_drain (hs : DrainStep t r r') :
    ∃ events, r'.log = r.log ++ events ∧ r.Status r' events := by
  cases hs with
  | noCustodian | sendBarrier | refused | completed | loadRetained | loadPoisoned | lock | notReady
  | scanned | loadLedgerPoisoned | loadDrainFailed =>
    exact ⟨[], (List.append_nil _).symm, .kept (fun _ => rfl) (by simp)⟩
  | call | returns | dropped =>
    exact ⟨_, rfl, .kept (fun _ => rfl) (by simp [RetirementEvent.mild])⟩
  | reap hframe hentry =>
    refine ⟨_, release_log.trans (List.append_assoc ..), .reaped (List.mem_of_getElem? hentry) ?_⟩
    intro u
    rw [release_session, happened_session]
    exact writes_publish u

theorem step_status (hs : r.Step r') :
    ∃ events, r'.log = r.log ++ events ∧ r.Status r' events := by
  cases hs with
  | task s hs => exact status_task hs
  | call t hs => exact status_call hs
  | transfer t hs => exact status_transfer hs
  | thread hs => exact status_thread hs
  | drain t hs => exact status_drain hs

/-! ## The phases of a task -/

inductive PhaseStep : TaskPhase → TaskPhase → Prop where
  | connect : PhaseStep .unspawned .connected
  | connectionDone : PhaseStep .connected (.disposed .terminalGraceful)
  | shutdownSeen : PhaseStep .connected .shutdownSeen
  | requested : PhaseStep .shutdownSeen .grace
  | graceDone : PhaseStep .grace (.disposed .terminalGraceful)
  | graceTimeout : PhaseStep .grace (.disposed .terminalCancelled)
  | publish (disposition : RetirementState) :
    PhaseStep (.disposed disposition) (.published disposition)
  | returns (disposition : RetirementState) : PhaseStep (.published disposition) (.ended .ok)
  | stopped {phase : TaskPhase} {result : JoinResult} (h : phase = .connected ∨ phase = .grace)
    (hr : result ≠ .ok) : PhaseStep phase (.ended result)

theorem phase_enter {phase : TaskPhase} : ((r.enter s phase).session s).phase = phase := by
  simp [enter, modify]

theorem task_phase (hs : TaskStep s r r') :
    PhaseStep (r.session s).phase (r'.session s).phase := by
  cases hs with
  | connect hphase =>
    rw [hphase, session_modify, if_pos rfl]
    exact .connect
  | connectionDone hphase =>
    rw [hphase, phase_enter]
    exact .connectionDone
  | shutdownSeen hphase =>
    rw [hphase, phase_enter]
    exact .shutdownSeen
  | requested hphase =>
    rw [hphase, happened_session, phase_enter]
    exact .requested
  | graceDone hphase =>
    rw [hphase, happened_session, phase_enter]
    exact .graceDone
  | graceTimeout hphase =>
    rw [hphase, lost_session, phase_enter]
    exact .graceTimeout
  | @publish disposition hphase =>
    rw [hphase, happened_session, phase_enter]
    exact .publish disposition
  | @returns disposition hphase =>
    rw [hphase, phase_enter]
    exact .returns disposition
  | stopped hphase hr =>
    rw [phase_enter]
    exact .stopped hphase hr

theorem step_phases (hs : r.Step r') (s : ℕ) : (r'.session s).phase = (r.session s).phase ∨
    PhaseStep (r.session s).phase (r'.session s).phase :=
  (step_phase hs s).imp_right task_phase

/-- The disposition that a task is to publish is terminal. -/
theorem PhaseStep.disposed {phase phase' : TaskPhase} (h : PhaseStep phase phase')
    (hd : phase' = .disposed disposition ∨ phase' = .published disposition) :
    disposition.isTerminal ∨ phase = .disposed disposition := by
  cases h with
  | connectionDone | graceDone | graceTimeout =>
    left
    rcases hd with hd | hd
    · cases hd
      rfl
    · cases hd
  | publish =>
    right
    rcases hd with hd | hd
    · cases hd
    · cases hd
      rfl
  | connect | shutdownSeen | requested | returns | stopped => simp at hd

/-! ## Who joins a task with an error -/

/-- A call that joined a task with an error. -/
theorem step_joinFailed (hs : r.Step r') (hu : r'.frame u = .joinFailed s slot) :
    r.frame u = .joinFailed s slot ∨
      ∃ result, result ≠ .ok ∧ (r.session s).phase = .ended result := by
  rcases step_frame hs u with h | h | h | h
  · exact .inl (h.symm.trans hu)
  · right
    cases h with
    | @joined kind s' slot' result hframe hended =>
      simp only [happened, goto_frame_self] at hu
      split_ifs at hu with hok
      cases hu
      exact ⟨result, hok, hended⟩
    | taskTaken | takeSlot =>
      simp only [goto_frame_self] at hu
      split_ifs at hu
    | _ => simp [happened, goto] at hu
  · cases h with
    | init => exact .inl hu
    | checkTransfers | checkRetained =>
      simp only [goto_frame_self] at hu
      split_ifs at hu
    | _ => simp [happened, goto, lost] at hu
  · exfalso
    cases h with
    | reap hframe =>
      simp [happened, publish, modify, hframe] at hu
    | _ => simp [happened, goto, lockLedger] at hu

/-- Only the thread itself moves the thread. -/
theorem step_thread (hs : r.Step r') : r'.thread = r.thread ∨ ThreadStep r r' := by
  cases hs with
  | task s hs => cases hs <;> exact .inl rfl
  | call t hs =>
    left
    cases hs with
    | complete => exact release_thread
    | _ => rfl
  | transfer t hs => cases hs <;> exact .inl rfl
  | thread hs => exact .inr hs
  | drain t hs =>
    left
    cases hs with
    | reap => exact release_thread
    | _ => rfl

theorem thread_joined (hs : ThreadStep r r') (hr : r'.thread = .joined s result) :
    (r.session s).phase = .ended result := by
  cases hs with
  | @join u result' hthread hended =>
    cases hr
    exact hended
  | barrier hthread => simp [hthread] at hr
  | check =>
    dsimp only at hr
    split_ifs at hr
  | receive | cancel | decrement | underflow | release => cases hr

theorem thread_cancelling (hs : ThreadStep r r') (hr : r'.thread = .cancelling s) :
    ∃ result, r.thread = .joined s result ∧
      (result ≠ .ok ∨ (r.session s).retirementState.isTerminal = false) := by
  cases hs with
  | barrier hthread => simp [hthread] at hr
  | @check u result hthread =>
    dsimp only at hr
    split_ifs at hr with hcancel
    cases hr
    exact ⟨result, hthread, hcancel⟩
  | receive | join | cancel | decrement | underflow | release => cases hr

/-! ## The invariant -/

/-- The handle is in the ledger, or on its way there after it was published as retained. -/
def Ledgered (r : Retirement) (s : ℕ) : Prop :=
  (∃ t slot, r.frame t = .failed .push s slot) ∨ ∃ entry ∈ r.ledger, entry.s = s

/-- The step begins no transfer of a session whose task has published, and publishes no disposition
    in the middle of a transfer, nor a graceful one for the ledger. -/
structure Timely (r r' : Retirement) : Prop where
  begins : ∀ t s, (r'.frame t).Retains s → ¬ (r.frame t).Retains s →
    ∀ disposition, .published s disposition ∉ r.log
  publishes : ∀ s disposition, r'.log = r.log ++ [.published s disposition] →
    (∀ t, ¬ (r.frame t).Retains s) ∧ (disposition = .terminalGraceful → ¬ r.Ledgered s)

/-- No transfer has a task that has published, and no ledger one that has ended gracefully. -/
structure Aloof (r : Retirement) : Prop where
  retains : ∀ t s, (r.frame t).Retains s → ∀ disposition, .published s disposition ∉ r.log
  ledgered : ∀ s, r.Ledgered s → .published s .terminalGraceful ∉ r.log

structure Settled (r : Retirement) : Prop where
  disposed : ∀ s disposition, (r.session s).phase = .disposed disposition ∨
    (r.session s).phase = .published disposition → disposition.isTerminal
  published : ∀ s disposition, .published s disposition ∈ r.log →
    ((r.session s).phase = .published disposition ∨ (r.session s).phase = .ended .ok) ∧
      (r.session s).retirementState = disposition ∧ disposition.isTerminal
  logged : ∀ s, ((∃ disposition, (r.session s).phase = .published disposition) ∨
    (r.session s).phase = .ended .ok) → ∃ disposition, .published s disposition ∈ r.log
  cancelled : ∀ s, (r.session s).retirementState.isTerminal →
    (∀ disposition, .published s disposition ∉ r.log) →
      (r.session s).retirementState = .terminalCancelled ∧ .joined s ∈ r.log
  joined : ∀ s result, r.thread = .joined s result → (r.session s).phase = .ended result
  cancelling : ∀ s, r.thread = .cancelling s →
    ∃ result, result ≠ .ok ∧ (r.session s).phase = .ended result
  joinFailed : ∀ t s slot, r.frame t = .joinFailed s slot →
    ∃ result, result ≠ .ok ∧ (r.session s).phase = .ended result

/-- A task that ended with an error has published nothing. -/
theorem Settled.unpublished (h : r.Settled) (hr : result ≠ .ok)
    (hended : (r.session s).phase = .ended result) : .published s disposition ∉ r.log := by
  intro hm
  obtain ⟨hphase, -⟩ := h.published s disposition hm
  rw [hended] at hphase
  rcases hphase with hphase | hphase
  · cases hphase
  · cases hphase
    exact hr rfl

theorem underflow_unreachable (hc : r.Custody) (hcount : .count s ∈ r.holds .thread) :
    r.retained ≠ 0 := (hc.retained_pos (hc.linear.live_of_mem hcount)).ne'

/-- What a task has published stays. -/
theorem settled_value (hc : r.Custody) (h : r.Settled) (haloof : r.Aloof) (hst : r.Status r' events)
    (hm : .published s disposition ∈ r.log) : (r'.session s).retirementState = disposition := by
  obtain ⟨hphase, hvalue, hterminal⟩ := h.published s disposition hm
  cases hst with
  | kept hsame | timedOut _ hsame | aborted _ hsame => exact (hsame s).trans hvalue
  | requested hseen hwrites =>
    rw [hwrites s]
    split_ifs with hs
    · subst hs
      simp [hseen] at hphase
    · exact hvalue
  | published hdisposed _ hwrites =>
    rw [hwrites s]
    split_ifs with hs
    · subst hs
      simp [hdisposed] at hphase
    · exact hvalue
  | joinFailed hframe hwrites =>
    rw [hwrites s]
    split_ifs with hs
    · subst hs
      obtain ⟨result, hr, hended⟩ := h.joinFailed _ _ _ hframe
      exact absurd hm (h.unpublished hr hended)
    · exact hvalue
  | @retained u t hcall hwrites =>
    rw [hwrites s]
    split_ifs with hs
    · subst hs
      exact absurd hm (haloof.retains t s hcall disposition)
    · exact hvalue
  | cancelled hthread hwrites =>
    rw [hwrites s]
    split_ifs with hs
    · subst hs
      obtain ⟨result, hr, hended⟩ := h.cancelling _ hthread
      exact absurd hm (h.unpublished hr hended)
    · exact hvalue
  | underflowed hcount hzero => exact absurd hzero (underflow_unreachable hc hcount)
  | reaped hentry hwrites =>
    rw [hwrites s]
    split_ifs with hs
    · subst hs
      cases disposition with
      | terminalCancelled => rfl
      | terminalGraceful => exact absurd hm (haloof.ledgered _ (.inr ⟨_, hentry, rfl⟩))
      | active | requested | retainedByProcessCustodian => cases hterminal
    · exact hvalue

theorem settled_cancelled (hc : r.Custody) (h : r.Settled) (hst : r.Status r' events)
    (hlog : r'.log = r.log ++ events) (hvalue : (r'.session s).retirementState.isTerminal)
    (hn : ∀ disposition, .published s disposition ∉ r'.log) :
    (r'.session s).retirementState = .terminalCancelled ∧ .joined s ∈ r'.log := by
  have hold : (r'.session s).retirementState = (r.session s).retirementState →
      (r'.session s).retirementState = .terminalCancelled ∧ .joined s ∈ r'.log := by
    intro hsame
    rw [hsame] at hvalue ⊢
    have hn' : ∀ disposition, .published s disposition ∉ r.log := fun disposition hm =>
      hn disposition (hlog ▸ List.mem_append_left _ hm)
    obtain ⟨hcancelled, hjoined⟩ := h.cancelled s hvalue hn'
    exact ⟨hcancelled, hlog ▸ List.mem_append_left _ hjoined⟩
  have hdone : r.Done s → .joined s ∈ r'.log := fun hd =>
    hlog ▸ List.mem_append_left _ (hc.done s hd)
  cases hst with
  | kept hsame | timedOut _ hsame | aborted _ hsame => exact hold (hsame s)
  | @requested u hseen hwrites =>
    by_cases hs : s = u
    · rw [hwrites s, if_pos hs] at hvalue
      cases hvalue
    · exact hold ((hwrites s).trans (if_neg hs))
  | @retained u t hcall hwrites =>
    by_cases hs : s = u
    · rw [hwrites s, if_pos hs] at hvalue
      cases hvalue
    · exact hold ((hwrites s).trans (if_neg hs))
  | @published u d hdisposed _ hwrites =>
    by_cases hs : s = u
    · subst hs
      exact absurd (hlog ▸ List.mem_append_right _ (List.mem_singleton.2 rfl)) (hn d)
    · exact hold ((hwrites s).trans (if_neg hs))
  | @joinFailed u t slot hframe hwrites =>
    by_cases hs : s = u
    · subst hs
      exact ⟨(hwrites s).trans (if_pos rfl), hdone (.inl ⟨t, by rw [hframe]; rfl⟩)⟩
    · exact hold ((hwrites s).trans (if_neg hs))
  | @cancelled u hthread hwrites =>
    by_cases hs : s = u
    · subst hs
      exact ⟨(hwrites s).trans (if_pos rfl), hdone (.inr (by rw [hthread]; rfl))⟩
    · exact hold ((hwrites s).trans (if_neg hs))
  | underflowed hcount hzero => exact absurd hzero (underflow_unreachable hc hcount)
  | @reaped entry hentry hwrites =>
    by_cases hs : s = entry.s
    · subst hs
      refine ⟨(hwrites _).trans (if_pos rfl), ?_⟩
      rw [hlog]
      simp
    · exact hold ((hwrites s).trans (if_neg hs))

theorem Status.published_mem (hc : r.Custody) (hst : r.Status r' events)
    (hm : .published s disposition ∈ events) : (r.session s).phase = .disposed disposition ∧
      (r'.session s).phase = .published disposition ∧
        (r'.session s).retirementState = disposition := by
  cases hst with
  | kept _ hmild =>
    have hquiet := hmild _ hm
    cases hquiet
  | published hphase hphase' hwrites =>
    cases List.mem_singleton.1 hm
    exact ⟨hphase, hphase', (hwrites _).trans (if_pos rfl)⟩
  | underflowed hcount hzero => exact absurd hzero (underflow_unreachable hc hcount)
  | reaped => split_ifs at hm <;> simp at hm
  | requested | timedOut | joinFailed | retained | aborted | cancelled => simp at hm

/-- A task that is at its end has published its disposition. -/
theorem step_published (hs : r.Step r') (hphase : (r'.session s).phase = .published disposition) :
    (r.session s).phase = .published disposition ∨ .published s disposition ∈ r'.log := by
  rcases step_phase hs s with h | h
  · exact .inl (h.symm.trans hphase)
  · right
    cases h with
    | @publish d =>
      rw [happened_session, phase_enter] at hphase
      cases hphase
      simp [happened]
    | _ => simp [enter, publish, lost, happened, modify] at hphase

theorem settled_preserved (hc : r.Custody) (h : r.Settled) (haloof : r.Aloof) (hs : r.Step r') :
    r'.Settled := by
  obtain ⟨events, hlog, hst⟩ := step_status hs
  have hmono : ∀ {e}, e ∈ r.log → e ∈ r'.log := fun hm => hlog ▸ List.mem_append_left _ hm
  refine ⟨?_, ?_, ?_, ?_, ?_, ?_, ?_⟩
  · intro s disposition hphase
    rcases step_phases hs s with heq | hstep
    · rw [heq] at hphase
      exact h.disposed s disposition hphase
    · rcases hstep.disposed hphase with hterminal | hphase
      · exact hterminal
      · exact h.disposed s disposition (.inl hphase)
  · intro s disposition hm
    rw [hlog, List.mem_append] at hm
    rcases hm with hm | hm
    · obtain ⟨hphase, -, hterminal⟩ := h.published s disposition hm
      refine ⟨?_, settled_value hc h haloof hst hm, hterminal⟩
      rcases hphase with hphase | hphase
      · rcases step_phases hs s with heq | hstep
        · exact .inl (heq.trans hphase)
        · right
          rw [hphase] at hstep
          generalize (r'.session s).phase = phase' at hstep
          cases hstep with
          | returns => rfl
          | stopped hawaits => simp at hawaits
      · exact .inr (step_ended hs hphase)
    · obtain ⟨hdisposed, hphase', hvalue⟩ := hst.published_mem hc hm
      exact ⟨.inl hphase', hvalue, h.disposed s disposition (.inl hdisposed)⟩
  · intro s hphase
    rcases hphase with ⟨disposition, hphase⟩ | hphase
    · rcases step_published hs hphase with hphase | hm
      · obtain ⟨disposition, hm⟩ := h.logged s (.inl ⟨disposition, hphase⟩)
        exact ⟨disposition, hmono hm⟩
      · exact ⟨disposition, hm⟩
    · rcases step_phases hs s with heq | hstep
      · obtain ⟨disposition, hm⟩ := h.logged s (.inr (heq.symm.trans hphase))
        exact ⟨disposition, hmono hm⟩
      · rw [hphase] at hstep
        generalize hp : (r.session s).phase = phase at hstep
        cases hstep with
        | returns disposition =>
          obtain ⟨disposition, hm⟩ := h.logged s (.inl ⟨disposition, hp⟩)
          exact ⟨disposition, hmono hm⟩
        | stopped _ hr => exact absurd rfl hr
  · intro s hvalue hn
    exact settled_cancelled hc h hst hlog hvalue hn
  · intro s result hthread
    refine step_ended hs ?_
    rcases step_thread hs with heq | hstep
    · exact h.joined s result (heq.symm.trans hthread)
    · exact thread_joined hstep hthread
  · intro s hthread
    have hended : ∃ result, result ≠ .ok ∧ (r.session s).phase = .ended result := by
      rcases step_thread hs with heq | hstep
      · exact h.cancelling s (heq.symm.trans hthread)
      · obtain ⟨result, hjoined, hcancel⟩ := thread_cancelling hstep hthread
        have hended := h.joined s result hjoined
        refine ⟨result, ?_, hended⟩
        rintro rfl
        obtain ⟨disposition, hm⟩ := h.logged s (.inr hended)
        obtain ⟨-, hvalue, hterminal⟩ := h.published s disposition hm
        simp [hvalue, hterminal] at hcancel
    obtain ⟨result, hr, hended⟩ := hended
    exact ⟨result, hr, step_ended hs hended⟩
  · intro t s slot hframe
    have hended : ∃ result, result ≠ .ok ∧ (r.session s).phase = .ended result := by
      rcases step_joinFailed hs hframe with hframe | hended
      · exact h.joinFailed t s slot hframe
      · exact hended
    obtain ⟨result, hr, hended⟩ := hended
    exact ⟨result, hr, step_ended hs hended⟩

/-! ## Terminal states -/

/-- A terminal state stays, and a task that has ended gracefully gets no evidence gap, nor is it
    reported as retained. -/
def Absorbs (r r' : Retirement) : Prop :=
  ∀ s, ((r.session s).retirementState.isTerminal →
      (r'.session s).retirementState = (r.session s).retirementState) ∧
    (.published s .terminalGraceful ∈ r.log → ∀ events, r'.log = r.log ++ events →
      .cell s .markEvidenceGap ∉ events ∧ .retained s ∉ events)

/-- A terminal state that the task has not published is of a task that was joined. -/
theorem cancelled_stays (hc : r.Custody) (hst : r.Status r' events)
    (hvalue : (r.session s).retirementState = .terminalCancelled) (hjoined : .joined s ∈ r.log) :
    (r'.session s).retirementState = .terminalCancelled := by
  obtain ⟨result, hended⟩ := hc.ended s hjoined
  cases hst with
  | kept hsame | timedOut _ hsame | aborted _ hsame => exact (hsame s).trans hvalue
  | requested hseen hwrites =>
    rw [hwrites s]
    split_ifs with hs
    · subst hs
      simp [hended] at hseen
    · exact hvalue
  | published hdisposed _ hwrites =>
    rw [hwrites s]
    split_ifs with hs
    · subst hs
      simp [hended] at hdisposed
    · exact hvalue
  | @retained u t hcall hwrites =>
    rw [hwrites s]
    split_ifs with hs
    · subst hs
      have hholds : .task s ∈ r.holds (.call t) := hcall.holds
      exact absurd hjoined (hc.linear.live_of_mem hholds).2
    · exact hvalue
  | underflowed hcount hzero => exact absurd hzero (underflow_unreachable hc hcount)
  | joinFailed _ hwrites | cancelled _ hwrites | reaped _ hwrites =>
    rw [hwrites s]
    split_ifs
    · rfl
    · exact hvalue

theorem no_gap (hc : r.Custody) (h : r.Settled) (haloof : r.Aloof) (hst : r.Status r' events)
    (hm : .published s .terminalGraceful ∈ r.log) : .cell s .markEvidenceGap ∉ events := by
  obtain ⟨hphase, -⟩ := h.published s _ hm
  intro hgap
  cases hst with
  | kept _ hmild =>
    have hquiet := hmild _ hgap
    cases hquiet
  | @timedOut u hgrace =>
    have hs : s = u := by simpa using hgap
    subst hs
    simp [hgrace] at hphase
  | @joinFailed u t slot hframe =>
    have hs : s = u := by simpa using hgap
    subst hs
    obtain ⟨result, hr, hended⟩ := h.joinFailed _ _ _ hframe
    exact h.unpublished hr hended hm
  | @aborted u t hcall =>
    have hs : s = u := by simpa using hgap
    subst hs
    exact haloof.retains t s hcall _ hm
  | @cancelled u hthread =>
    have hs : s = u := by simpa using hgap
    subst hs
    obtain ⟨result, hr, hended⟩ := h.cancelling _ hthread
    exact h.unpublished hr hended hm
  | underflowed hcount hzero => exact underflow_unreachable hc hcount hzero
  | reaped => split_ifs at hgap <;> simp at hgap
  | requested | published | retained => simp at hgap

theorem no_retained (hc : r.Custody) (haloof : r.Aloof) (hst : r.Status r' events)
    (hm : .published s disposition ∈ r.log) : .retained s ∉ events := by
  intro hretained
  cases hst with
  | kept _ hmild =>
    have hquiet := hmild _ hretained
    cases hquiet
  | @retained u t hcall =>
    cases List.mem_singleton.1 hretained
    exact haloof.retains t s hcall _ hm
  | underflowed hcount hzero => exact underflow_unreachable hc hcount hzero
  | reaped => split_ifs at hretained <;> simp at hretained
  | requested | timedOut | published | joinFailed | aborted | cancelled => simp at hretained

theorem absorbs (hc : r.Custody) (h : r.Settled) (haloof : r.Aloof) (hs : r.Step r') :
    r.Absorbs r' := by
  obtain ⟨events, hlog, hst⟩ := step_status hs
  intro s
  refine ⟨fun hterminal => ?_, fun hm events' hlog' => ?_⟩
  · by_cases hn : ∃ disposition, .published s disposition ∈ r.log
    · obtain ⟨disposition, hm⟩ := hn
      obtain ⟨-, hvalue, -⟩ := h.published s disposition hm
      rw [hvalue]
      exact settled_value hc h haloof hst hm
    · obtain ⟨hvalue, hjoined⟩ := h.cancelled s hterminal (not_exists.1 hn)
      rw [hvalue]
      exact cancelled_stays hc hst hvalue hjoined
  · cases List.append_cancel_left (hlog.symm.trans hlog')
    exact ⟨no_gap hc h haloof hst hm, no_retained hc haloof hst hm⟩

/-! ## Transfers in time -/

theorem step_pushing (hs : r.Step r') (hu : r'.frame u = .failed .push s slot) :
    r.frame u = .failed .push s slot ∨ r.frame u = .failed .publish s slot := by
  rcases step_frame hs u with h | h | h | h
  · exact .inl (h.symm.trans hu)
  · exfalso
    cases h with
    | taskTaken | takeSlot | joined =>
      simp only [happened, goto_frame_self] at hu
      split_ifs at hu
    | _ => simp [happened, goto] at hu
  · cases h with
    | init => exact .inl hu
    | checkTransfers | checkRetained =>
      simp only [goto_frame_self] at hu
      split_ifs at hu
      cases hu
    | publishFailed hframe =>
      simp only [happened, goto_frame_self] at hu
      cases hu
      exact .inr hframe
    | _ => simp [happened, goto, lost] at hu
  · exfalso
    cases h with
    | reap hframe =>
      simp [happened, publish, modify, hframe] at hu
    | _ => simp [happened, goto, lockLedger] at hu

theorem step_ledger (hs : r.Step r') {entry : FailedRetirement} (h : entry ∈ r'.ledger) :
    entry ∈ r.ledger ∨ ∃ t, r.frame t = .failed .push entry.s entry.slot := by
  cases hs with
  | task s hs => cases hs <;> exact .inl h
  | call t hs =>
    left
    cases hs with
    | @complete s slot => cases slot <;> exact h
    | _ => exact h
  | transfer t hs =>
    cases hs with
    | push mutexPoisoned hframe =>
      rcases List.mem_append.1 h with h | h
      · exact .inl h
      · obtain rfl := List.mem_singleton.1 h
        exact .inr ⟨t, hframe⟩
    | _ => exact .inl h
  | thread hs =>
    left
    cases hs <;> exact h
  | drain t hs =>
    left
    cases hs with
    | @reap _ _ index entry' _ _ hentry =>
      have hm : entry ∈ swapRemove r.ledger index := by
        cases hslot : entry'.slot <;> rw [hslot] at h <;> exact h
      exact (swapRemove_perm hentry).mem_iff.2 (List.mem_cons_of_mem _ hm)
    | _ => exact h

/-- A handle comes to the ledger from a transfer. -/
theorem step_ledgered (hs : r.Step r') (h : r'.Ledgered s) :
    r.Ledgered s ∨ ∃ t, (r.frame t).Retains s := by
  rcases h with ⟨t, slot, hframe⟩ | ⟨entry, hentry, rfl⟩
  · rcases step_pushing hs hframe with h | h
    · exact .inl (.inl ⟨t, slot, h⟩)
    · exact .inr ⟨t, by simp [h, Frame.Retains]⟩
  · rcases step_ledger hs hentry with h | ⟨t, h⟩
    · exact .inl (.inr ⟨entry, h, rfl⟩)
    · exact .inl (.inl ⟨t, _, h⟩)

/-- The step that publishes is the task's own. -/
theorem published_step (hc : r.Custody) (hs : r.Step r') (hm : .published s disposition ∈ r'.log)
    (hn : .published s disposition ∉ r.log) :
    r'.log = r.log ++ [.published s disposition] ∧ r'.frame = r.frame ∧ r'.ledger = r.ledger := by
  obtain ⟨events, hlog, hst⟩ := step_status hs
  have hmem : .published s disposition ∈ events := by
    rw [hlog, List.mem_append] at hm
    exact hm.resolve_left hn
  obtain ⟨hphase, hphase', -⟩ := hst.published_mem hc hmem
  rcases step_phase hs s with heq | htask
  · rw [hphase, hphase'] at heq
    cases heq
  · cases htask with
    | publish h =>
      cases h.symm.trans hphase
      exact ⟨rfl, rfl, rfl⟩
    | connect h | connectionDone h | shutdownSeen h | requested h | graceDone h | graceTimeout h
    | returns h =>
      cases h.symm.trans hphase
    | stopped h =>
      rw [hphase] at h
      simp at h

theorem aloof_preserved (hc : r.Custody) (h : r.Aloof) (hs : r.Step r') (htimely : r.Timely r') :
    r'.Aloof := by
  refine ⟨fun t s hretains disposition hm => ?_, fun s hledgered hm => ?_⟩
  · by_cases hn : .published s disposition ∈ r.log
    · by_cases hr : (r.frame t).Retains s
      · exact h.retains t s hr disposition hn
      · exact htimely.begins t s hretains hr disposition hn
    · obtain ⟨hlog, hframe, -⟩ := published_step hc hs hm hn
      rw [hframe] at hretains
      exact (htimely.publishes s disposition hlog).1 t hretains
  · by_cases hn : .published s .terminalGraceful ∈ r.log
    · rcases step_ledgered hs hledgered with hledgered | ⟨t, hretains⟩
      · exact h.ledgered s hledgered hn
      · exact h.retains t s hretains _ hn
    · obtain ⟨hlog, hframe, hledger⟩ := published_step hc hs hm hn
      unfold Ledgered at hledgered
      rw [hframe, hledger] at hledgered
      exact (htimely.publishes s _ hlog).2 rfl hledgered

/-- A step of a run whose transfers are timely. -/
def TimelyStep (r r' : Retirement) : Prop := r.Step r' ∧ r.Timely r'

theorem settled (h : Relation.ReflTransGen TimelyStep {} r) : r.Custody ∧ r.Settled ∧ r.Aloof := by
  induction h with
  | refl =>
    refine ⟨custody_initial, ⟨?_, ?_, ?_, ?_, ?_, ?_, ?_⟩, ?_, ?_⟩ <;>
      simp [RetirementState.isTerminal]
  | tail _ hs ih =>
    obtain ⟨hc, hsettled, haloof⟩ := ih
    exact ⟨custody_preserved hc hs.1, settled_preserved hc hsettled haloof hs.1,
      aloof_preserved hc haloof hs.1 hs.2⟩

/-- In a run that begins no transfer of a session whose task has published, and in which no task
    publishes while its handle is in transfer, nor gracefully while it is in the ledger, a terminal
    state is not left, and a session that has ended gracefully is not reported as retained, nor is
    its evidence lost. -/
theorem terminal_absorbing (h : Relation.ReflTransGen TimelyStep {} r)
    (h' : Relation.ReflTransGen TimelyStep r r') (s : ℕ) :
    ((r.session s).retirementState.isTerminal →
      (r'.session s).retirementState = (r.session s).retirementState) ∧
    (.published s .terminalGraceful ∈ r.log →
      (r'.session s).retirementState = .terminalGraceful ∧ ∃ events, r'.log = r.log ++ events ∧
        .cell s .markEvidenceGap ∉ events ∧ .retained s ∉ events) := by
  induction h' with
  | refl =>
    refine ⟨fun _ => rfl, fun hm => ⟨?_, [], (List.append_nil _).symm, by simp, by simp⟩⟩
    exact ((settled h).2.1.published s _ hm).2.1
  | @tail r₁ r₂ hrun hs ih =>
    obtain ⟨hc, hsettled, haloof⟩ := settled (h.trans hrun)
    have habsorbs := absorbs hc hsettled haloof hs.1 s
    refine ⟨fun hterminal => ?_, fun hm => ?_⟩
    · have hsame := ih.1 hterminal
      rw [← hsame] at hterminal ⊢
      exact habsorbs.1 hterminal
    · obtain ⟨hvalue, events, hlog, hgap, hretained⟩ := ih.2 hm
      obtain ⟨events', hlog', -⟩ := step_status hs.1
      have hm₁ : .published s .terminalGraceful ∈ r₁.log := hlog ▸ List.mem_append_left _ hm
      obtain ⟨hgap', hretained'⟩ := habsorbs.2 hm₁ events' hlog'
      refine ⟨?_, events ++ events', by rw [hlog', hlog, List.append_assoc], ?_, ?_⟩
      · rw [← hvalue]
        exact habsorbs.1 (by rw [hvalue]; rfl)
      · simp [hgap, hgap']
      · simp [hretained, hretained']

/-- No task has published yet. -/
theorem timely_before (log events : List RetirementEvent) (hlog : r.log = log)
    (hlog' : r'.log = log ++ events) (hquiet : ∀ s d, .published s d ∉ log ++ events) :
    r.Timely r' := by
  refine ⟨fun t s _ _ d hm => ?_, fun s d hevent => ?_⟩
  · exact hquiet s d (List.mem_append_left _ (hlog ▸ hm))
  · rw [← hlog', hevent] at hquiet
    exact absurd (List.mem_append_right _ (List.mem_singleton_self _)) (hquiet s d)

/-- No call moves, and no task publishes. -/
theorem timely_still (events : List RetirementEvent) (hframe : r'.frame = r.frame)
    (hlog : r'.log = r.log ++ events) (hnone : ∀ s d, .published s d ∉ events) : r.Timely r' := by
  refine ⟨fun t s hretains hnot => absurd (hframe ▸ hretains) hnot, fun s d hevent => ?_⟩
  obtain rfl := List.append_cancel_left (hlog.symm.trans hevent)
  exact absurd (List.mem_singleton_self _) (hnone s d)

/-- Every call is idle, and the ledger is empty. -/
theorem timely_aside (hframe : r'.frame = r.frame) (hidle : ∀ t, r.frame t = .idle)
    (hledger : r.ledger = []) : r.Timely r' := by
  refine ⟨fun t s hretains hnot => absurd (hframe ▸ hretains) hnot, fun s d _ => ⟨fun t => ?_, ?_⟩⟩
  · rw [hidle t]
    exact id
  · rintro - (⟨t, slot, hpush⟩ | ⟨entry, hentry, -⟩)
    · cases (hidle t).symm.trans hpush
    · rw [hledger] at hentry
      cases hentry

/-- A session is dropped before its task ends, and the thread of the custodian joins the task. -/
theorem custodian_run : ∃ r r' : Retirement, Relation.ReflTransGen TimelyStep {} r ∧
    Relation.ReflTransGen TimelyStep r r' ∧ .retained 0 ∈ r.log ∧
      .published 0 .terminalGraceful ∈ r.log ∧ .joined 0 ∈ r'.log ∧ .released 0 ∈ r'.log := by
  let dropped : List RetirementEvent := [.cell 0 .markDisconnected]
  let kept : List RetirementEvent := dropped ++ [.incremented 0, .retained 0, .transferred 0]
  have hrefl : ∀ {r : Retirement}, Relation.ReflTransGen TimelyStep {} r →
      Relation.ReflTransGen TimelyStep r r := fun _ => .refl
  have h₁ := Relation.ReflTransGen.refl (r := TimelyStep) (a := {})
    |>.tail ⟨.transfer 0 (.init rfl (show CustodianCell.started ≠ .uninit by simp)),
      timely_before [] [] rfl rfl (by simp)⟩
    |>.tail ⟨.task 0 (.connect rfl (by decide)), timely_before [] [] rfl rfl (by simp)⟩
    |>.tail ⟨.call 0 (.call .drop 0 rfl (by simp [modify])), timely_before [] [] rfl rfl (by simp)⟩
    |>.tail ⟨.call 0 (.requestShutdown rfl), timely_before [] dropped rfl rfl (by simp [dropped])⟩
    |>.tail ⟨.call 0 (.takeTask rfl rfl), timely_before dropped [] rfl rfl (by simp [dropped])⟩
    |>.tail ⟨.call 0 (.takeSlot rfl), timely_before dropped [] rfl rfl (by simp [dropped])⟩
    |>.tail ⟨.transfer 0 (.known rfl (.inl rfl)),
      timely_before dropped [] rfl rfl (by simp [dropped])⟩
    |>.tail ⟨.transfer 0 (.checkTransfers rfl),
      timely_before dropped [] rfl rfl (by simp [dropped])⟩
    |>.tail ⟨.transfer 0 (.incrementTransfers rfl (by decide)),
      timely_before dropped [] rfl rfl (by simp [dropped])⟩
    |>.tail ⟨.transfer 0 (.checkRetained rfl),
      timely_before dropped [] rfl rfl (by simp [dropped])⟩
    |>.tail ⟨.transfer 0 (.incrementRetained rfl (by decide)),
      timely_before dropped [.incremented 0] rfl rfl (by simp [dropped])⟩
    |>.tail ⟨.transfer 0 (.publish rfl),
      timely_before (dropped ++ [.incremented 0]) [.retained 0] rfl rfl (by simp [dropped])⟩
    |>.tail ⟨.transfer 0 (.send rfl rfl (by decide)),
      timely_before (dropped ++ [.incremented 0, .retained 0]) [.transferred 0] rfl rfl
        (by simp [dropped])⟩
    |>.tail ⟨.task 0 (.shutdownSeen rfl rfl), timely_still [] rfl rfl (by simp)⟩
    |>.tail ⟨.task 0 (.requested rfl), timely_still [.cell 0 .markDisconnected] rfl rfl (by simp)⟩
    |>.tail ⟨.task 0 (.graceDone rfl), timely_still [.cell 0 .markDisconnected] rfl rfl (by simp)⟩
    |>.tail ⟨.task 0 (.publish rfl), timely_aside rfl (fun t => by
      by_cases ht : t = 0 <;> simp [enter, publish, happened, goto, modify, ht]) rfl⟩
  have h₂ := hrefl h₁
    |>.tail ⟨.task 0 (.returns rfl), timely_still [] rfl rfl (by simp)⟩
    |>.tail ⟨.thread (.receive rfl rfl rfl), timely_still [] rfl rfl (by simp)⟩
    |>.tail ⟨.thread (.join rfl rfl), timely_still [.joined 0] rfl rfl (by simp)⟩
    |>.tail ⟨.thread (.check rfl), timely_still [] rfl rfl (by simp)⟩
    |>.tail ⟨.thread (.decrement rfl (by decide)), timely_still [.decremented 0] rfl rfl (by simp)⟩
    |>.tail ⟨.thread (.release rfl), timely_still [.released 0] rfl rfl (by simp)⟩
  let published : List RetirementEvent :=
    kept ++ [.cell 0 .markDisconnected, .cell 0 .markDisconnected, .published 0 .terminalGraceful]
  let joined : List RetirementEvent := published ++ [.joined 0, .decremented 0, .released 0]
  refine ⟨_, _, h₁, h₂, ?_, ?_, ?_, ?_⟩
  · change _ ∈ published
    simp [published, kept]
  · change _ ∈ published
    simp [published]
  · change _ ∈ joined
    simp [joined]
  · change _ ∈ joined
    simp [joined]

theorem terminal_absorbing_joined : ∃ r r' : Retirement,
    .retained 0 ∈ r.log ∧ .published 0 .terminalGraceful ∈ r.log ∧ .joined 0 ∈ r'.log ∧
      (r'.session 0).retirementState = .terminalGraceful ∧ ∃ events, r'.log = r.log ++ events ∧
        .cell 0 .markEvidenceGap ∉ events ∧ .retained 0 ∉ events := by
  obtain ⟨r, r', h, h', hretained, hm, hjoined, -⟩ := custodian_run
  exact ⟨r, r', hretained, hm, hjoined, (terminal_absorbing h h' 0).2 hm⟩

/-- A task ends gracefully, and the session is dropped after that. -/
theorem late_transfer_run : ∃ r r' : Retirement, r.Reachable ∧ Relation.ReflTransGen Step r r' ∧
    (r.session 0).retirementState = .terminalGraceful ∧
      (r'.session 0).retirementState = .terminalCancelled ∧
        ∃ events, r'.log = r.log ++ events ∧ .retained 0 ∈ events ∧
          .cell 0 .markEvidenceGap ∈ events := by
  have hrefl : ∀ {r : Retirement}, Relation.ReflTransGen Step {} r →
      Relation.ReflTransGen Step r r := fun _ => .refl
  have h₁ := Relation.ReflTransGen.refl (r := Step) (a := {})
    |>.tail (.transfer 0 (.init rfl (show CustodianCell.started ≠ .uninit by simp)))
    |>.tail (.task 0 (.connect rfl (by decide)))
    |>.tail (.task 0 (.connectionDone rfl))
    |>.tail (.task 0 (.publish rfl))
    |>.tail (.task 0 (.returns rfl))
  have h₂ := hrefl h₁
    |>.tail (.call 0 (.call .drop 0 rfl (by simp [enter, modify])))
    |>.tail (.call 0 (.requestShutdown rfl))
    |>.tail (.call 0 (.takeTask rfl rfl))
    |>.tail (.call 0 (.takeSlot rfl))
    |>.tail (.transfer 0 (.known rfl (.inl rfl)))
    |>.tail (.transfer 0 (.checkTransfers rfl))
    |>.tail (.transfer 0 (.incrementTransfers rfl (by decide)))
    |>.tail (.transfer 0 (.checkRetained rfl))
    |>.tail (.transfer 0 (.incrementRetained rfl (by decide)))
    |>.tail (.transfer 0 (.publish rfl))
    |>.tail (.transfer 0 (.send rfl rfl (by decide)))
    |>.tail (.thread (.receive rfl rfl rfl))
    |>.tail (.thread (.join rfl rfl))
    |>.tail (.thread (.check rfl))
    |>.tail (.thread (.cancel rfl))
  exact ⟨_, _, h₁, h₂, rfl, rfl, [.cell 0 .markDisconnected, .incremented 0, .retained 0,
    .transferred 0, .joined 0, .cell 0 .markEvidenceGap, .cell 0 .markDisconnected], rfl,
    by simp, by simp⟩

theorem terminal_not_absorbing : ¬ ∀ (r r' : Retirement) (s : ℕ), r.Reachable →
    Relation.ReflTransGen Step r r' → (r.session s).retirementState.isTerminal →
      (r'.session s).retirementState = (r.session s).retirementState := by
  intro habsorbing
  obtain ⟨r, r', hr, hrun, hvalue, hvalue', -⟩ := late_transfer_run
  have hsame := habsorbing r r' 0 hr hrun (by rw [hvalue]; rfl)
  rw [hvalue, hvalue'] at hsame
  cases hsame

end Retirement

end

end Rspm
