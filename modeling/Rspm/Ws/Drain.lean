/-
  A drain of the process that returns true has joined what was transferred.

  A transfer that has returned left its handle with the process: in the queue,
  with the thread, or in the ledger (`Drains.handed`).  The barrier of a drain
  stands behind every such handle in the queue, and the ledger is empty at the
  end of its scan (`ProcessDrain.Ensures`, `FailedDrain.Ensures`).
-/
import Rspm.Ws.Custody

namespace Rspm

/-- The process itself, and not a session or a call. -/
def Owner.ofProcess : Owner → Bool
  | .queue | .thread | .ledger => true
  | .session _ | .call _ => false

/-- The call has read the cell of the process custodian. -/
def Frame.chosen : Frame → Bool
  | .known .. | .failed .. => true
  | _ => false

/-- The event is about a transfer, or a drain of the process. -/
def RetirementEvent.told : RetirementEvent → Bool
  | .transferred _ | .drainCalled _ | .drainReturned .. => true
  | _ => false

section

variable {r r' : Retirement} {s t u : ℕ} {o : Owner} {f : Frame} {since : List RetirementEvent}
  {process : ProcessDrain} {failed : FailedDrain}

namespace Retirement

/-! ## What a step tells -/

inductive Told (r r' : Retirement) : List RetirementEvent → Prop where
  | nothing {events : List RetirementEvent} (h : ∀ event ∈ events, event.told = false) :
    Told r r' events
  | transferred {s t : ℕ} {o : Owner} (ho : o.ofProcess) (hcall : .task s ∈ r.holds (.call t))
    (hown : .task s ∈ r'.holds o) (hchosen : (r.frame t).chosen) : Told r r' [.transferred s]
  | called {t : ℕ} (hframe : r.frame t = .idle)
    (hframe' : r'.frame t = .draining r.log .start .lock) : Told r r' [.drainCalled t]
  | returned {t : ℕ} {since : List RetirementEvent} {process failed : Bool}
    (hframe : r.frame t = .draining since (.done process) (.done failed)) :
    Told r r' [.drainReturned t (process && failed)]
  | dropped (t : ℕ) : Told r r' [.drainReturned t false]

theorem told_call (hs : CallStep t r r') :
    ∃ events, r'.log = r.log ++ events ∧ r.Told r' events := by
  cases hs with
  | call | takeTask | taskTaken | takeSlot | waited | dropGuard =>
    exact ⟨[], (List.append_nil _).symm, .nothing (by simp)⟩
  | requestShutdown | joined | joinFailed =>
    exact ⟨_, rfl, .nothing (by simp [RetirementEvent.told])⟩
  | complete =>
    refine ⟨_, release_log, .nothing fun event hm => ?_⟩
    split_ifs at hm
    · rw [List.mem_singleton.1 hm]
      rfl
    · cases hm

theorem told_transfer (hs : TransferStep t r r') :
    ∃ events, r'.log = r.log ++ events ∧ r.Told r' events := by
  cases hs with
  | init | known | unknown | checkTransfers | incrementTransfers | overflowTransfers | checkRetained
  | overflowRetained | poison | refused => exact ⟨[], (List.append_nil _).symm, .nothing (by simp)⟩
  | incrementRetained | publish | decrementRetained | underflowRetained | publishFailed =>
    exact ⟨_, rfl, .nothing (by simp [RetirementEvent.told])⟩
  | abort => exact ⟨_, List.append_assoc .., .nothing (by simp [RetirementEvent.told])⟩
  | send hframe =>
    refine ⟨_, rfl, .transferred (o := .queue) (t := t) rfl ?_ ?_ ?_⟩
    · simp [holds, hframe, Frame.holds]
    · simp [holds, happened, goto, ProcessRetirementCommand.holds]
    · rw [hframe]
      rfl
  | push mutexPoisoned hframe =>
    refine ⟨_, rfl, .transferred (o := .ledger) (t := t) rfl ?_ ?_ ?_⟩
    · simp [holds, hframe, Frame.holds]
    · simp [holds, happened, goto, lockLedger, FailedRetirement.holds]
    · rw [hframe]
      rfl

theorem told_drain (hs : DrainStep t r r') :
    ∃ events, r'.log = r.log ++ events ∧ r.Told r' events := by
  cases hs with
  | noCustodian | sendBarrier | refused | completed | loadRetained | loadPoisoned | lock | notReady
  | scanned | loadLedgerPoisoned | loadDrainFailed =>
    exact ⟨[], (List.append_nil _).symm, .nothing (by simp)⟩
  | call hframe => exact ⟨_, rfl, .called hframe (Function.update_self ..)⟩
  | returns hframe => exact ⟨_, rfl, .returned hframe⟩
  | dropped => exact ⟨_, rfl, .dropped t⟩
  | reap =>
    refine ⟨_, release_log.trans (List.append_assoc ..), .nothing fun event hm => ?_⟩
    rcases List.mem_append.1 hm with hm | hm
    · simp only [List.mem_cons, List.not_mem_nil, or_false] at hm
      rcases hm with rfl | rfl | rfl <;> rfl
    · split_ifs at hm
      · rw [List.mem_singleton.1 hm]
        rfl
      · cases hm

theorem step_told (hs : r.Step r') : ∃ events, r'.log = r.log ++ events ∧ r.Told r' events := by
  cases hs with
  | task s hs =>
    cases hs with
    | connect | connectionDone | shutdownSeen | returns | stopped =>
      exact ⟨[], (List.append_nil _).symm, .nothing (by simp)⟩
    | requested | graceDone | graceTimeout | publish =>
      exact ⟨_, rfl, .nothing (by simp [RetirementEvent.told])⟩
  | call t hs => exact told_call hs
  | transfer t hs => exact told_transfer hs
  | thread hs =>
    cases hs with
    | receive | barrier | check => exact ⟨[], (List.append_nil _).symm, .nothing (by simp)⟩
    | join | cancel | decrement | underflow | release =>
      exact ⟨_, rfl, .nothing (by simp [RetirementEvent.told])⟩
  | drain t hs => exact told_drain hs

/-! ## What a step does to the queue -/

inductive QueueMove (r r' : Retirement) : Prop where
  | same (hqueue : r'.queue = r.queue) (hnext : r'.nextBarrier = r.nextBarrier)
    (hdone : r'.completions = r.completions)
  | retain {s t : ℕ} (hcall : .task s ∈ r.holds (.call t))
    (hqueue : r'.queue = r.queue ++ [.retain s]) (hnext : r'.nextBarrier = r.nextBarrier)
    (hdone : r'.completions = r.completions)
  | barrier (hqueue : r'.queue = r.queue ++ [.barrier r.nextBarrier])
    (hnext : r'.nextBarrier = r.nextBarrier + 1) (hdone : r'.completions = r.completions)
  | receive {s : ℕ} (hqueue : r.queue = .retain s :: r'.queue)
    (hnext : r'.nextBarrier = r.nextBarrier) (hdone : r'.completions = r.completions)
  | complete {id : ℕ} (hthread : r'.thread = .receiving)
    (hqueue : r.queue = .barrier id :: r'.queue) (hnext : r'.nextBarrier = r.nextBarrier)
    (hdone : r'.completions = insert id r.completions)

theorem release_same {slot : Bool} : (r.release s slot).queue = r.queue ∧
    (r.release s slot).nextBarrier = r.nextBarrier ∧
      (r.release s slot).completions = r.completions := by
  cases slot <;> exact ⟨rfl, rfl, rfl⟩

theorem step_queue (hs : r.Step r') : r.QueueMove r' := by
  cases hs with
  | task s hs => cases hs <;> exact .same rfl rfl rfl
  | call t hs =>
    cases hs with
    | complete =>
      obtain ⟨hqueue, hnext, hdone⟩ := release_same (r := r.goto t .idle)
      exact .same hqueue hnext hdone
    | _ => exact .same rfl rfl rfl
  | transfer t hs =>
    cases hs with
    | send hframe => exact .retain (t := t) (by simp [holds, hframe, Frame.holds]) rfl rfl rfl
    | _ => exact .same rfl rfl rfl
  | thread hs =>
    cases hs with
    | receive hthread hstarted hqueue => exact .receive hqueue rfl rfl
    | barrier hthread hstarted hqueue => exact .complete hthread hqueue rfl rfl
    | _ => exact .same rfl rfl rfl
  | drain t hs =>
    cases hs with
    | sendBarrier => exact .barrier rfl rfl rfl
    | reap =>
      obtain ⟨hqueue, hnext, hdone⟩ := release_same
      exact .same hqueue hnext hdone
    | _ => exact .same rfl rfl rfl

/-! ## What a step does to the calls -/

/-- Only its own steps move a call. -/
theorem step_frame (hs : r.Step r') (u : ℕ) : r'.frame u = r.frame u ∨
    CallStep u r r' ∨ TransferStep u r r' ∨ DrainStep u r r' := by
  cases hs with
  | task s hs => cases hs <;> exact .inl rfl
  | thread hs =>
    left
    cases hs with
    | release => rw [release_frame]
    | _ => rfl
  | call t hs =>
    by_cases hu : u = t
    · exact .inr (.inl (hu ▸ hs))
    · left
      cases hs <;> simp [goto, happened, publish, modify, hu]
  | transfer t hs =>
    by_cases hu : u = t
    · exact .inr (.inr (.inl (hu ▸ hs)))
    · left
      cases hs <;> simp [goto, happened, lost, lockLedger, publish, modify, hu]
  | drain t hs =>
    by_cases hu : u = t
    · exact .inr (.inr (.inr (hu ▸ hs)))
    · left
      cases hs <;> simp [goto, happened, lockLedger, publish, modify, hu]

@[simp] theorem goto_frame_self : (r.goto t f).frame t = f := Function.update_self ..

/-- Only the steps of a drain make a call drain. -/
theorem step_draining (hs : r.Step r') (hframe : r'.frame u = .draining since process failed) :
    r.frame u = .draining since process failed ∨ DrainStep u r r' := by
  rcases step_frame hs u with h | h | h | h
  · exact .inl (h.symm.trans hframe)
  · exfalso
    cases h with
    | taskTaken | takeSlot | joined =>
      simp only [goto_frame_self, happened] at hframe
      split_ifs at hframe
    | _ => simp [happened, goto] at hframe
  · cases h with
    | init => exact .inl hframe
    | checkTransfers | checkRetained =>
      simp only [goto_frame_self] at hframe
      split_ifs at hframe
    | _ => simp [happened, goto, lost] at hframe
  · exact .inr h

/-- A call that has read the cell finds it initialized. -/
theorem step_chosen (hs : r.Step r') (hu : (r'.frame u).chosen) :
    (r.frame u).chosen ∨ r'.custodian ≠ .uninit := by
  have hother : ∀ {t f}, r'.frame = Function.update r.frame t f →
      (f.chosen → (r.frame t).chosen) → (r.frame u).chosen := by
    intro t f hr hf
    rw [hr, Function.update_apply] at hu
    split_ifs at hu with heq
    · rw [heq]
      exact hf hu
    · exact hu
  cases hs with
  | task s hs => cases hs <;> exact .inl hu
  | call t hs =>
    left
    cases hs with
    | taskTaken | takeSlot | joined =>
      refine hother rfl ?_
      split_ifs <;> simp [Frame.chosen]
    | complete => exact hother release_frame (by simp [Frame.chosen])
    | _ => exact hother rfl (by simp [Frame.chosen])
  | transfer t hs =>
    cases hs with
    | init => exact .inl hu
    | known hframe hcustodian =>
      right
      rcases hcustodian with h | h <;> simp [goto, h]
    | unknown hframe hcustodian =>
      right
      rcases hcustodian with h | ⟨h, -⟩ <;> simp [goto, h]
    | checkTransfers hframe | checkRetained hframe =>
      exact .inl (hother rfl (by simp [hframe, Frame.chosen]))
    | incrementTransfers hframe | overflowTransfers hframe | incrementRetained hframe
    | overflowRetained hframe | poison hframe | publish hframe | refused hframe
    | decrementRetained hframe | underflowRetained hframe | abort hframe | publishFailed hframe =>
      exact .inl (hother rfl (by simp [hframe, Frame.chosen]))
    | send | push => exact .inl (hother rfl (by simp [Frame.chosen]))
  | thread hs =>
    left
    cases hs with
    | release =>
      rw [release_frame] at hu
      exact hu
    | _ => exact hu
  | drain t hs =>
    left
    cases hs with
    | reap =>
      rw [release_frame] at hu
      exact hu
    | _ => exact hother rfl (by simp [Frame.chosen])

/-- The cell of the process custodian is initialized once. -/
theorem step_custodian (hs : r.Step r') (h : r.custodian ≠ .uninit) : r'.custodian ≠ .uninit := by
  have hrelease : ∀ {r : Retirement} {s slot}, (r.release s slot).custodian = r.custodian := by
    intro r s slot
    cases slot <;> rfl
  cases hs with
  | task s hs => cases hs <;> exact h
  | call t hs =>
    cases hs with
    | complete =>
      rw [hrelease]
      exact h
    | _ => exact h
  | transfer t hs =>
    cases hs with
    | init hcustodian hcell => exact hcell
    | _ => exact h
  | thread hs => cases hs <;> exact h
  | drain t hs =>
    cases hs with
    | reap =>
      rw [hrelease]
      exact h
    | _ => exact h

/-! ## The invariant -/

/-- No task that was transferred by `since` is with `o`. -/
def Left (r : Retirement) (since : List RetirementEvent) (o : Owner) : Prop :=
  ∀ s, .transferred s ∈ since → .task s ∉ r.holds o

end Retirement

/-- What the half of a drain that awaits the process custodian has seen. -/
def ProcessDrain.Ensures (r : Retirement) (since : List RetirementEvent) : ProcessDrain → Prop
  | .start | .done false => True
  | .awaiting id =>
    (∀ q₁ q₂ s, r.queue = q₁ ++ .barrier id :: q₂ → .transferred s ∈ since → .retain s ∉ q₂) ∧
      (id ∈ r.completions → r.Left since .queue ∧ r.Left since .thread)
  | .loadRetained | .loadPoisoned | .done true => r.Left since .queue ∧ r.Left since .thread

/-- What the half of a drain that reaps the ledger has seen. -/
def FailedDrain.Ensures (r : Retirement) (since : List RetirementEvent) : FailedDrain → Prop
  | .lock | .scanning _ | .done false => True
  | .loadPoisoned | .loadDrainFailed | .done true => r.Left since .ledger

namespace Retirement

structure Drains (r : Retirement) : Prop where
  spawned : ∀ s, .transferred s ∈ r.log → (r.session s).phase ≠ .unspawned
  handed : ∀ s o, .transferred s ∈ r.log → .task s ∈ r.holds o → o.ofProcess
  chosen : ∀ t, (r.frame t).chosen → r.custodian ≠ .uninit
  started : ∀ s, .transferred s ∈ r.log → r.custodian ≠ .uninit
  fresh : ∀ id, .barrier id ∈ r.queue ∨ id ∈ r.completions → id < r.nextBarrier
  since : ∀ t since process failed, r.frame t = .draining since process failed →
    ∃ l, r.log = since ++ .drainCalled t :: l ∧ .drainCalled t ∉ l
  process : ∀ t since process failed, r.frame t = .draining since process failed →
    process.Ensures r since
  failed : ∀ t since process failed, r.frame t = .draining since process failed →
    failed.Ensures r since

theorem Told.transferred_mem {events : List RetirementEvent} (h : r.Told r' events)
    (hm : .transferred s ∈ events) : ∃ t o, o.ofProcess ∧ .task s ∈ r.holds (.call t) ∧
      .task s ∈ r'.holds o ∧ (r.frame t).chosen := by
  cases h with
  | nothing h =>
    have htold := h _ hm
    cases htold
  | @transferred u t o ho hcall hown hchosen =>
    cases List.mem_singleton.1 hm
    exact ⟨t, o, ho, hcall, hown, hchosen⟩
  | called | returned | dropped => simp at hm

/-- A handle that was transferred stays with the process, and goes from the queue to the thread. -/
theorem handed_origin (hc : r.Custody) (hc' : r'.Custody) (h : r.Drains) (hs : r.Step r')
    (ht : .transferred s ∈ r.log) (hm : .task s ∈ r'.holds o) :
    .task s ∈ r.holds o ∨ o = .thread ∧ .task s ∈ r.holds .queue := by
  obtain ⟨events, hlog, -⟩ := step_told hs
  rcases (step_moves hc hs).origin hm with hm | hlive | ⟨a, hpasses, ha⟩
  · exact .inl hm
  · have hjoined : .joined s ∈ r.log := by
      by_contra hn
      exact hlive ⟨h.spawned s ht, hn⟩
    have hlive' := hc'.linear.live_of_mem hm
    exact absurd (hlog ▸ List.mem_append_left events hjoined) hlive'.2
  · have hprocess := h.handed s a ht ha
    cases hpasses with
    | receive => exact .inr ⟨rfl, ha⟩
    | take | send | push => cases hprocess

section

variable (hc : r.Custody) (hc' : r'.Custody) (h : r.Drains) (hs : r.Step r')
  (hsince : ∀ s, .transferred s ∈ since → .transferred s ∈ r.log)

include hc hc' h hs hsince

theorem left_queue (hl : r.Left since .queue) : r'.Left since .queue := by
  intro s ht hm
  rcases handed_origin hc hc' h hs (hsince s ht) hm with hm | ⟨ho, -⟩
  · exact hl s ht hm
  · cases ho

theorem left_ledger (hl : r.Left since .ledger) : r'.Left since .ledger := by
  intro s ht hm
  rcases handed_origin hc hc' h hs (hsince s ht) hm with hm | ⟨ho, -⟩
  · exact hl s ht hm
  · cases ho

theorem left_thread (hq : r.Left since .queue) (hl : r.Left since .thread) :
    r'.Left since .thread := by
  intro s ht hm
  rcases handed_origin hc hc' h hs (hsince s ht) hm with hm | ⟨-, hm⟩
  · exact hl s ht hm
  · exact hq s ht hm

omit hc hc' in
/-- What stands behind the barrier is not of the drain. -/
theorem behind_barrier {id : ℕ}
    (hb : ∀ q₁ q₂ s, r.queue = q₁ ++ .barrier id :: q₂ → .transferred s ∈ since → .retain s ∉ q₂) :
    ∀ q₁ q₂ s, r'.queue = q₁ ++ .barrier id :: q₂ → .transferred s ∈ since → .retain s ∉ q₂ := by
  intro q₁ q₂ s heq ht hm
  cases step_queue hs with
  | same hqueue => exact hb q₁ q₂ s (hqueue.symm.trans heq) ht hm
  | @retain u t hcall hqueue =>
    rcases Machine.split_concat (hqueue.symm.trans heq) with ⟨-, -, rfl⟩ | ⟨q₃, rfl, hq⟩
    · cases hm
    · rcases List.mem_append.1 hm with hm | hm
      · exact hb q₁ q₃ s hq ht hm
      · cases List.mem_singleton.1 hm
        cases h.handed s _ (hsince s ht) hcall
  | barrier hqueue =>
    rcases Machine.split_concat (hqueue.symm.trans heq) with ⟨-, -, rfl⟩ | ⟨q₃, rfl, hq⟩
    · cases hm
    · rcases List.mem_append.1 hm with hm | hm
      · exact hb q₁ q₃ s hq ht hm
      · cases List.mem_singleton.1 hm
  | @receive u hqueue =>
    rw [heq] at hqueue
    exact hb (.retain u :: q₁) q₂ s hqueue ht hm
  | @complete id' hthread hqueue =>
    rw [heq] at hqueue
    exact hb (.barrier id' :: q₁) q₂ s hqueue ht hm

theorem ensures_process (hp : process.Ensures r since) : process.Ensures r' since := by
  have hleft : r.Left since .queue ∧ r.Left since .thread →
      r'.Left since .queue ∧ r'.Left since .thread := fun ⟨hq, hl⟩ =>
    ⟨left_queue hc hc' h hs hsince hq, left_thread hc hc' h hs hsince hq hl⟩
  cases process with
  | start => trivial
  | awaiting id =>
    obtain ⟨hb, hdone⟩ := hp
    refine ⟨behind_barrier h hs hsince hb, fun hid => ?_⟩
    cases step_queue hs with
    | same hqueue hnext hcompletions | retain hcall hqueue hnext hcompletions
    | barrier hqueue hnext hcompletions | receive hqueue hnext hcompletions =>
      rw [hcompletions] at hid
      exact hleft (hdone hid)
    | @complete id' hthread hqueue hnext hcompletions =>
      rw [hcompletions, Finset.mem_insert] at hid
      rcases hid with rfl | hid
      · refine ⟨fun s ht hm => ?_, fun s ht hm => ?_⟩
        · obtain ⟨command, hcommand, hm⟩ := List.mem_flatMap.1 hm
          cases command with
          | retain u =>
            have hu : s = u := by simpa [ProcessRetirementCommand.holds] using hm
            subst hu
            exact hb [] r'.queue s hqueue ht hcommand
          | barrier => cases hm
        · simp [holds, hthread, ThreadState.holds] at hm
      · exact hleft (hdone hid)
  | loadRetained | loadPoisoned => exact hleft hp
  | done drained =>
    cases drained with
    | false => trivial
    | true => exact hleft hp

theorem ensures_failed (hf : failed.Ensures r since) : failed.Ensures r' since := by
  cases failed with
  | lock | scanning => trivial
  | loadPoisoned | loadDrainFailed => exact left_ledger hc hc' h hs hsince hf
  | done drained =>
    cases drained with
    | false => trivial
    | true => exact left_ledger hc hc' h hs hsince hf

end

/-- A drain that moves keeps to what it has seen. -/
theorem drain_ensures (hc : r.Custody) (hc' : r'.Custody) (h : r.Drains) (hs : DrainStep t r r')
    (hframe : r'.frame t = .draining since process failed) :
    process.Ensures r' since ∧ failed.Ensures r' since := by
  have hstep : r.Step r' := .drain t hs
  have hkeep : ∀ {process₀ failed₀}, r.frame t = .draining since process₀ failed₀ →
      process₀.Ensures r' since ∧ failed₀.Ensures r' since := by
    intro process₀ failed₀ h₀
    obtain ⟨l, hlog, -⟩ := h.since t since process₀ failed₀ h₀
    have hsince : ∀ s, .transferred s ∈ since → .transferred s ∈ r.log := fun s hm =>
      hlog ▸ List.mem_append_left _ hm
    exact ⟨ensures_process hc hc' h hstep hsince (h.process t since process₀ failed₀ h₀),
      ensures_failed hc hc' h hstep hsince (h.failed t since process₀ failed₀ h₀)⟩
  cases hs with
  | call =>
    cases (Function.update_self ..).symm.trans hframe
    exact ⟨trivial, trivial⟩
  | noCustodian h₀ hcustodian =>
    cases (Function.update_self ..).symm.trans hframe
    obtain ⟨l, hlog, -⟩ := h.since _ _ _ _ h₀
    have hnone : ∀ s, .transferred s ∉ since := fun s hm =>
      h.started s (hlog ▸ List.mem_append_left _ hm) hcustodian
    exact ⟨⟨fun s hm => absurd hm (hnone s), fun s hm => absurd hm (hnone s)⟩, (hkeep h₀).2⟩
  | sendBarrier h₀ =>
    cases (Function.update_self ..).symm.trans hframe
    refine ⟨⟨fun q₁ q₂ s heq ht => ?_, fun hid => ?_⟩, (hkeep h₀).2⟩
    · rcases Machine.split_concat heq with ⟨-, -, rfl⟩ | ⟨q₃, rfl, hq⟩
      · simp
      · have hlt := h.fresh r.nextBarrier (.inl (by rw [hq]; simp))
        omega
    · have hlt := h.fresh r.nextBarrier (.inr hid)
      omega
  | refused h₀ =>
    cases (Function.update_self ..).symm.trans hframe
    exact ⟨trivial, (hkeep h₀).2⟩
  | completed h₀ hid =>
    cases (Function.update_self ..).symm.trans hframe
    exact ⟨(hkeep h₀).1.2 hid, (hkeep h₀).2⟩
  | loadRetained h₀ =>
    cases (Function.update_self ..).symm.trans hframe
    refine ⟨?_, (hkeep h₀).2⟩
    split_ifs
    · exact (hkeep h₀).1
    · trivial
  | loadPoisoned h₀ =>
    cases (Function.update_self ..).symm.trans hframe
    refine ⟨?_, (hkeep h₀).2⟩
    cases r.poisoned
    · exact (hkeep h₀).1
    · trivial
  | lock mutexPoisoned h₀ =>
    cases (Function.update_self ..).symm.trans hframe
    exact ⟨(hkeep h₀).1, trivial⟩
  | notReady h₀ =>
    cases (Function.update_self ..).symm.trans hframe
    exact ⟨(hkeep h₀).1, trivial⟩
  | reap h₀ =>
    rw [release_frame] at hframe
    exact hkeep hframe
  | scanned h₀ =>
    cases (Function.update_self ..).symm.trans hframe
    refine ⟨(hkeep h₀).1, ?_⟩
    split_ifs with hempty
    · intro s hm
      simp [holds, goto, List.length_eq_zero_iff.1 hempty]
    · trivial
  | loadLedgerPoisoned h₀ =>
    cases (Function.update_self ..).symm.trans hframe
    refine ⟨(hkeep h₀).1, ?_⟩
    split_ifs
    · trivial
    · exact (hkeep h₀).2
  | loadDrainFailed h₀ =>
    cases (Function.update_self ..).symm.trans hframe
    refine ⟨(hkeep h₀).1, ?_⟩
    cases r.drainFailed
    · exact (hkeep h₀).2
    · trivial
  | returns | dropped => cases (Function.update_self ..).symm.trans hframe

theorem drain_since (hs : DrainStep t r r') (hframe : r'.frame t = .draining since process failed) :
    (∃ process₀ failed₀, r.frame t = .draining since process₀ failed₀) ∨
      since = r.log ∧ r'.log = r.log ++ [.drainCalled t] := by
  cases hs with
  | call =>
    cases (Function.update_self ..).symm.trans hframe
    exact .inr ⟨rfl, rfl⟩
  | reap h₀ =>
    rw [release_frame] at hframe
    exact .inl ⟨_, _, hframe⟩
  | returns | dropped => cases (Function.update_self ..).symm.trans hframe
  | noCustodian h₀ | sendBarrier h₀ | refused h₀ | completed h₀ | loadRetained h₀ | loadPoisoned h₀
  | lock _ h₀ | notReady h₀ | scanned h₀ | loadLedgerPoisoned h₀ | loadDrainFailed h₀ =>
    cases (Function.update_self ..).symm.trans hframe
    exact .inl ⟨_, _, h₀⟩

theorem Told.drainCalled_mem {events : List RetirementEvent} (h : r.Told r' events)
    (hm : .drainCalled t ∈ events) : r.frame t = .idle := by
  cases h with
  | nothing h =>
    have htold := h _ hm
    cases htold
  | called hframe =>
    cases List.mem_singleton.1 hm
    exact hframe
  | transferred | returned | dropped => simp at hm

theorem drains_preserved (hc : r.Custody) (hc' : r'.Custody) (h : r.Drains) (hs : r.Step r') :
    r'.Drains := by
  obtain ⟨events, hlog, htold⟩ := step_told hs
  have htransferred : ∀ s, .transferred s ∈ r'.log →
      .transferred s ∈ r.log ∨ .transferred s ∈ events := by
    intro s hm
    rwa [hlog, List.mem_append] at hm
  have hsince : ∀ {t since process failed}, r.frame t = .draining since process failed →
      ∀ s, .transferred s ∈ since → .transferred s ∈ r.log := by
    intro t since process failed hframe s hm
    obtain ⟨l, heq, -⟩ := h.since t since process failed hframe
    exact heq ▸ List.mem_append_left _ hm
  refine ⟨?_, ?_, ?_, ?_, ?_, ?_, ?_, ?_⟩
  · intro s hm hphase
    have hphase := step_unspawned hs hphase
    rcases htransferred s hm with hm | hm
    · exact h.spawned s hm hphase
    · obtain ⟨t, o, -, hcall, -⟩ := htold.transferred_mem hm
      exact (hc.linear.live_of_mem hcall).1 hphase
  · intro s o hm hown
    rcases htransferred s hm with hm | hm
    · rcases handed_origin hc hc' h hs hm hown with hown | ⟨rfl, -⟩
      · exact h.handed s o hm hown
      · rfl
    · obtain ⟨t, o', ho', -, hown', -⟩ := htold.transferred_mem hm
      rw [hc'.linear.unique hown hown']
      exact ho'
  · intro t ht
    rcases step_chosen hs ht with ht | ht
    · exact step_custodian hs (h.chosen t ht)
    · exact ht
  · intro s hm
    rcases htransferred s hm with hm | hm
    · exact step_custodian hs (h.started s hm)
    · obtain ⟨t, o, -, -, -, hchosen⟩ := htold.transferred_mem hm
      exact step_custodian hs (h.chosen t hchosen)
  · intro id hid
    have hfresh := h.fresh id
    cases step_queue hs with
    | same hqueue hnext hdone =>
      rw [hqueue, hdone] at hid
      rw [hnext]
      exact hfresh hid
    | retain hcall hqueue hnext hdone =>
      rw [hqueue, hdone] at hid
      rw [hnext]
      exact hfresh (by simpa using hid)
    | barrier hqueue hnext hdone =>
      rw [hqueue, hdone, List.mem_append, List.mem_singleton, or_assoc] at hid
      rw [hnext]
      rcases hid with hid | hid | hid
      · have hlt := hfresh (.inl hid)
        omega
      · cases hid
        omega
      · have hlt := hfresh (.inr hid)
        omega
    | receive hqueue hnext hdone =>
      rw [hdone] at hid
      rw [hqueue] at hfresh
      rw [hnext]
      exact hfresh (by simpa using hid)
    | complete hthread hqueue hnext hdone =>
      rw [hdone, Finset.mem_insert] at hid
      rw [hqueue] at hfresh
      rw [hnext]
      refine hfresh ?_
      rcases hid with hid | rfl | hid
      · exact .inl (List.mem_cons_of_mem _ hid)
      · exact .inl (List.mem_cons_self ..)
      · exact .inr hid
  · intro t since process failed hframe
    have hcase : (∃ process₀ failed₀, r.frame t = .draining since process₀ failed₀) ∨
        since = r.log ∧ r'.log = r.log ++ [.drainCalled t] := by
      rcases step_draining hs hframe with h₀ | hd
      · exact .inl ⟨_, _, h₀⟩
      · exact drain_since hd hframe
    rcases hcase with ⟨process₀, failed₀, h₀⟩ | ⟨rfl, heq⟩
    · obtain ⟨l, heq, hl⟩ := h.since t since _ _ h₀
      refine ⟨l ++ events, by rw [hlog, heq, List.append_assoc, List.cons_append], fun hm => ?_⟩
      rcases List.mem_append.1 hm with hm | hm
      · exact hl hm
      · have hidle := htold.drainCalled_mem hm
        rw [h₀] at hidle
        cases hidle
    · exact ⟨[], heq, by simp⟩
  · intro t since process failed hframe
    rcases step_draining hs hframe with h₀ | hd
    · exact ensures_process hc hc' h hs (hsince h₀) (h.process t since process failed h₀)
    · exact (drain_ensures hc hc' h hd hframe).1
  · intro t since process failed hframe
    rcases step_draining hs hframe with h₀ | hd
    · exact ensures_failed hc hc' h hs (hsince h₀) (h.failed t since process failed h₀)
    · exact (drain_ensures hc hc' h hd hframe).2

theorem drains (h : r.Reachable) : r.Drains := by
  induction h with
  | refl =>
    refine ⟨?_, ?_, ?_, ?_, ?_, ?_, ?_, ?_⟩ <;> simp [Frame.chosen]
  | tail hr hs ih => exact drains_preserved (custody hr) (custody (.tail hr hs)) ih hs

/-! ## Runs -/

/-- What holds of each event as it is logged holds of the whole log. -/
theorem logged {P : List RetirementEvent → RetirementEvent → Prop}
    (hP : ∀ {r r' : Retirement}, r.Reachable → r.Step r' → ∀ events pre e post,
      r'.log = r.log ++ events → events = pre ++ e :: post → P (r.log ++ pre) e)
    (h : r.Reachable) : ∀ l₁ l₂ e, r.log = l₁ ++ e :: l₂ → P l₁ e := by
  induction h with
  | refl =>
    intro l₁ l₂ e heq
    exact absurd heq.symm (List.append_ne_nil_of_right_ne_nil _ (List.cons_ne_nil _ _))
  | tail hr hs ih =>
    intro l₁ l₂ e heq
    obtain ⟨events, hlog, -⟩ := step_told hs
    rcases split_append (hlog.symm.trans heq) with ⟨l₃, h₃⟩ | ⟨pre, rfl, hpre⟩
    · exact ih l₁ l₃ e h₃
    · exact hP hr hs events pre e l₂ hlog hpre

/-- The last of its kind cuts a list in one way. -/
theorem split_unique {α : Type} {l₁ l₂ m₁ m₂ : List α} {e : α} (h : l₁ ++ e :: l₂ = m₁ ++ e :: m₂)
    (hl : e ∉ l₂) (hm : e ∉ m₂) : l₁ = m₁ ∧ l₂ = m₂ := by
  rcases List.append_eq_append_iff.1 h with ⟨l, rfl, heq⟩ | ⟨l, rfl, heq⟩
  · rcases List.cons_eq_append_iff.1 heq with ⟨rfl, heq⟩ | ⟨l', rfl, rfl⟩
    · cases heq
      exact ⟨(List.append_nil _).symm, rfl⟩
    · simp at hl
  · rcases List.cons_eq_append_iff.1 heq with ⟨rfl, heq⟩ | ⟨l', rfl, rfl⟩
    · cases heq
      exact ⟨List.append_nil _, rfl⟩
    · simp at hm

/-- A drain that returns true has joined every task that was transferred before its call. -/
theorem drain_joined (h : r.Reachable) {l₁ l₂ l₃ : List RetirementEvent}
    (heq : r.log = l₁ ++ .drainCalled t :: (l₂ ++ .drainReturned t true :: l₃))
    (hlast : .drainCalled t ∉ l₂) (hs : .transferred s ∈ l₁) : .joined s ∈ l₁ ++ l₂ := by
  have hrun := logged (P := fun l e => e = .drainReturned t true → ∀ l₁ l₂,
    l = l₁ ++ .drainCalled t :: l₂ → .drainCalled t ∉ l₂ → ∀ s, .transferred s ∈ l₁ →
      .joined s ∈ l) ?step h
  case step =>
    intro r r' hr hstep events pre e post hlog hevents he l₁ l₂ hl hlast s hs
    obtain ⟨events', hlog', htold⟩ := step_told hstep
    cases List.append_cancel_left (hlog.symm.trans hlog')
    subst he
    rw [hevents] at htold
    generalize heq : pre ++ .drainReturned t true :: post = events at htold
    cases htold with
    | nothing hn =>
      have htold := hn (.drainReturned t true) (by simp [← heq])
      cases htold
    | transferred | called | dropped => simp [append_cons_eq_singleton] at heq
    | @returned u since process failed hframe =>
      obtain ⟨rfl, he, -⟩ := append_cons_eq_singleton.1 heq
      simp only [RetirementEvent.drainReturned.injEq] at he
      obtain ⟨rfl, htrue⟩ := he
      obtain ⟨rfl, rfl⟩ : process = true ∧ failed = true := by simpa using htrue.symm
      have hd := drains hr
      have hc := custody hr
      obtain ⟨l, hsince, hnot⟩ := hd.since _ _ _ _ hframe
      rw [List.append_nil] at hl ⊢
      obtain ⟨rfl, rfl⟩ := split_unique (hl.symm.trans hsince) hlast hnot
      have hlog₁ : .transferred s ∈ r.log := hsince ▸ List.mem_append_left _ hs
      by_contra hjoined
      have hlive : r.live (.task s) := ⟨hd.spawned s hlog₁, hjoined⟩
      obtain ⟨o, ho, -⟩ := hc.linear.exists_owner hlive
      have hprocess := hd.handed s o hlog₁ ho
      obtain ⟨hqueue, hthread⟩ := hd.process _ _ _ _ hframe
      have hledger := hd.failed _ _ _ _ hframe
      cases o with
      | queue => exact hqueue s hs ho
      | thread => exact hthread s hs ho
      | ledger => exact hledger s hs ho
      | session | call => cases hprocess
  have hm := hrun (l₁ ++ .drainCalled t :: l₂) l₃ _ (by simpa using heq) rfl l₁ l₂ rfl hlast s hs
  simpa using hm

/-- A transfer is counted once, and uncounted once, after it was counted. -/
theorem counted_once (h : r.Reachable) (l₁ l₂ : List RetirementEvent) (s : ℕ) :
    (r.log = l₁ ++ .incremented s :: l₂ → .incremented s ∉ l₁) ∧
      (r.log = l₁ ++ .decremented s :: l₂ → .incremented s ∈ l₁ ∧ .decremented s ∉ l₁) := by
  have hrun := logged (P := fun l e => (e = .incremented s → .incremented s ∉ l) ∧
    (e = .decremented s → .incremented s ∈ l ∧ .decremented s ∉ l)) ?step h
  case step =>
    intro r r' hr hstep events pre e post hlog hevents
    obtain ⟨events', hlog', hl⟩ := step_logs hstep
    cases List.append_cancel_left (hlog.symm.trans hlog')
    subst hevents
    constructor
    · rintro rfl
      obtain ⟨rfl, hincremented⟩ := hl.incremented_split (custody hr)
      rwa [List.append_nil]
    · rintro rfl
      obtain ⟨rfl, hlive⟩ := hl.decremented_split (custody hr)
      rwa [List.append_nil]
  exact ⟨fun heq => (hrun l₁ l₂ _ heq).1 rfl, fun heq => (hrun l₁ l₂ _ heq).2 rfl⟩

/-- Every handle that is not joined has one owner, a permit is released once and after the join,
    `retained` counts the transfers that were incremented and not decremented yet, and a drain that
    returns true has joined every task that was transferred before its call. -/
theorem retirement_custody (h : r.Reachable) :
    (∀ o, (r.holds o).Nodup) ∧
    (∀ s, (r.session s).phase ≠ .unspawned → .joined s ∉ r.log → ∃! o, .task s ∈ r.holds o) ∧
    (∀ s, (r.session s).phase ≠ .unspawned → .released s ∉ r.log → ∃! o, .slot s ∈ r.holds o) ∧
    (∀ (l₁ l₂ : List RetirementEvent) (s : ℕ), r.log = l₁ ++ .released s :: l₂ →
      .joined s ∈ l₁ ∧ .released s ∉ l₁ ∧ ∀ o, .slot s ∉ r.holds o) ∧
    (∀ (l₁ l₂ : List RetirementEvent) (s : ℕ),
      (r.log = l₁ ++ .incremented s :: l₂ → .incremented s ∉ l₁) ∧
      (r.log = l₁ ++ .decremented s :: l₂ → .incremented s ∈ l₁ ∧ .decremented s ∉ l₁)) ∧
    (∃ counted : Finset ℕ, counted.card = r.retained ∧
      ∀ s, s ∈ counted ↔ .incremented s ∈ r.log ∧ .decremented s ∉ r.log) ∧
    r.retained ≤ usizeMax ∧ (∀ s, .underflowed s ∉ r.log) ∧
    ∀ (l₁ l₂ l₃ : List RetirementEvent) (t : ℕ),
      r.log = l₁ ++ .drainCalled t :: (l₂ ++ .drainReturned t true :: l₃) →
      .drainCalled t ∉ l₂ → ∀ s, .transferred s ∈ l₁ → .joined s ∈ l₁ ++ l₂ := by
  have hc := custody h
  refine ⟨hc.linear.nodup, ?_, ?_, ?_, counted_once h, hc.retained, hc.bounded, hc.underflowed, ?_⟩
  · intro s hphase hjoined
    have hlive : r.live (.task s) := ⟨hphase, hjoined⟩
    exact hc.linear.exists_owner hlive
  · intro s hphase hreleased
    have hlive : r.live (.slot s) := ⟨hphase, hreleased⟩
    exact hc.linear.exists_owner hlive
  · intro l₁ l₂ s heq
    obtain ⟨hjoined, hreleased⟩ := hc.released l₁ l₂ s heq
    refine ⟨hjoined, hreleased, fun o ho => ?_⟩
    exact (hc.linear.live_of_mem ho).2 (heq ▸ List.mem_append_right _ (List.mem_cons_self ..))
  · intro l₁ l₂ l₃ t heq hlast s hs
    exact drain_joined h heq hlast hs

theorem drained_run : ∃ r : Retirement, r.Reachable ∧ ∃ l₁ l₂ : List RetirementEvent,
    r.log = l₁ ++ .drainCalled 1 :: (l₂ ++ [.drainReturned 1 true]) ∧ .transferred 0 ∈ l₁ ∧
      .drainCalled 1 ∉ l₂ := by
  -- a session begins, and is dropped
  have h₁ := Relation.ReflTransGen.refl (r := Step) (a := {})
    |>.tail (.task 0 (.connect rfl (by decide)))
    |>.tail (.transfer 0 (.init rfl (show CustodianCell.started ≠ .uninit by simp)))
    |>.tail (.call 0 (.call .drop 0 rfl (by simp [modify])))
    |>.tail (.call 0 (.requestShutdown rfl))
    |>.tail (.call 0 (.takeTask rfl rfl))
    |>.tail (.call 0 (.takeSlot rfl))
  -- its handle goes to the queue
  have h₂ := h₁
    |>.tail (.transfer 0 (.known rfl (.inl rfl)))
    |>.tail (.transfer 0 (.checkTransfers rfl))
    |>.tail (.transfer 0 (.incrementTransfers rfl (by decide)))
    |>.tail (.transfer 0 (.checkRetained rfl))
    |>.tail (.transfer 0 (.incrementRetained rfl (by decide)))
    |>.tail (.transfer 0 (.publish rfl))
    |>.tail (.transfer 0 (.send rfl rfl (by decide)))
  -- a drain finds the ledger empty, and sends its barrier
  have h₃ := h₂
    |>.tail (.drain 1 (.call rfl))
    |>.tail (.drain 1 (.lock false rfl rfl))
    |>.tail (.drain 1 (.scanned rfl (by decide)))
    |>.tail (.drain 1 (.loadLedgerPoisoned rfl))
    |>.tail (.drain 1 (.loadDrainFailed rfl))
    |>.tail (.drain 1 (.sendBarrier rfl rfl (by decide)))
  -- the task ends, and the thread joins it
  have h₄ := h₃
    |>.tail (.task 0 (.connectionDone rfl))
    |>.tail (.task 0 (.publish rfl))
    |>.tail (.task 0 (.returns rfl))
    |>.tail (.thread (.receive rfl rfl rfl))
    |>.tail (.thread (.join rfl rfl))
    |>.tail (.thread (.check rfl))
    |>.tail (.thread (.decrement rfl (by decide)))
    |>.tail (.thread (.release rfl))
    |>.tail (.thread (.barrier rfl rfl rfl))
  have h₅ := h₄
    |>.tail (.drain 1 (.completed rfl (by decide)))
    |>.tail (.drain 1 (.loadRetained rfl))
    |>.tail (.drain 1 (.loadPoisoned rfl))
    |>.tail (.drain 1 (.returns rfl))
  exact ⟨_, h₅, [.cell 0 .markDisconnected, .incremented 0, .retained 0, .transferred 0],
    [.published 0 .terminalGraceful, .joined 0, .decremented 0, .released 0], rfl, by simp, by simp⟩

theorem retirement_custody_drained : ∃ r : Retirement, (∃ s, .transferred s ∈ r.log) ∧
    ∃ l₁ l₂ : List RetirementEvent,
      r.log = l₁ ++ .drainCalled 1 :: (l₂ ++ [.drainReturned 1 true]) ∧
        ∀ s, .transferred s ∈ l₁ → .joined s ∈ l₁ ++ l₂ := by
  obtain ⟨r, hr, l₁, l₂, hlog, hs, hlast⟩ := drained_run
  obtain ⟨-, -, -, -, -, -, -, -, hdrain⟩ := retirement_custody hr
  exact ⟨r, ⟨0, hlog ▸ List.mem_append_left _ hs⟩, l₁, l₂, hlog, hdrain l₁ l₂ [] 1 hlog hlast⟩

end Retirement

end

end Rspm
