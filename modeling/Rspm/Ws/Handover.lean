/-
  Who has the handle and the permit of a session, at every moment.

  The handle of a task that is not joined stands with one owner, and so does
  its capacity permit until it is released (`Custody`).  A transfer that was
  counted in `retained` and is not uncounted yet is a third such resource.
-/
import Rspm.Lib.Custody
import Rspm.Ws.Retirement

namespace Rspm

/-! ## Resources and their owners -/

inductive Resource where
  /-- the handle of the session's task -/
  | task (s : ℕ)
  /-- the capacity permit of the session -/
  | slot (s : ℕ)
  /-- one of `retained` -/
  | count (s : ℕ)
deriving DecidableEq

inductive Owner where
  | session (s : ℕ)
  /-- a call, with its guard or with what it transfers -/
  | call (t : ℕ)
  | queue
  | thread
  | ledger
deriving DecidableEq

/-- The permit, if it is there. -/
def slotOf (s : ℕ) (slot : Bool) : List Resource := if slot then [.slot s] else []

def AuthenticatedUserWsInner.holds (s : ℕ) (session : AuthenticatedUserWsInner) : List Resource :=
  (if session.task then [.task s] else []) ++ slotOf s session.retirementSlot

/-- The transfer is counted. -/
def TransferPoint.counted : TransferPoint → Bool
  | .publish | .send | .decrementRetained => true
  | _ => false

def Frame.holds : Frame → List Resource
  | .takeSlot _ s => [.task s]
  | .joining _ s slot | .transfer s slot | .failed _ s slot => .task s :: slotOf s slot
  | .joinFailed s slot | .complete s slot => slotOf s slot
  | .known point s => [.task s, .slot s] ++ if point.counted then [.count s] else []
  | _ => []

def ProcessRetirementCommand.holds : ProcessRetirementCommand → List Resource
  | .retain s => [.task s, .slot s, .count s]
  | .barrier _ => []

def ThreadState.holds : ThreadState → List Resource
  | .receiving => []
  | .joining s => [.task s, .slot s, .count s]
  | .joined s _ | .cancelling s | .decrementing s => [.slot s, .count s]
  | .releasing s => [.slot s]

def FailedRetirement.holds (entry : FailedRetirement) : List Resource :=
  .task entry.s :: slotOf entry.s entry.slot

namespace Retirement

def holds (r : Retirement) : Owner → List Resource
  | .session s => (r.session s).holds s
  | .call t => (r.frame t).holds
  | .queue => r.queue.flatMap (·.holds)
  | .thread => r.thread.holds
  | .ledger => r.ledger.flatMap (·.holds)

/-- The resource is not used up. -/
def live (r : Retirement) : Resource → Prop
  | .task s => (r.session s).phase ≠ .unspawned ∧ .joined s ∉ r.log
  | .slot s => (r.session s).phase ≠ .unspawned ∧ .released s ∉ r.log
  | .count s => .incremented s ∈ r.log ∧ .decremented s ∉ r.log

end Retirement

/-- The resource that the event uses up. -/
def RetirementEvent.spends : RetirementEvent → Option Resource
  | .joined s => some (.task s)
  | .released s => some (.slot s)
  | .decremented s => some (.count s)
  | _ => none

section

variable {r r' : Retirement} {s t : ℕ} {o : Owner} {k : Resource} {f : Frame}
  {g : AuthenticatedUserWsInner → AuthenticatedUserWsInner} {events : List RetirementEvent}
  {state : RetirementState} {phase : TaskPhase} {slot : Bool}

namespace Retirement

theorem holds_goto : (r.goto t f).holds o = if o = .call t then f.holds else r.holds o := by
  cases o with
  | call u =>
    by_cases hu : u = t <;> simp [holds, goto, hu]
  | _ => rfl

theorem holds_modify :
    (r.modify s g).holds o = if o = .session s then (g (r.session s)).holds s else r.holds o := by
  cases o with
  | session u =>
    by_cases hu : u = s
    · simp [holds, modify, hu]
    · simp [holds, modify, hu]
  | _ => rfl

theorem holds_happened : (r.happened events).holds o = r.holds o := by cases o <;> rfl

theorem holds_lost : (r.lost s).holds o = r.holds o := holds_happened

theorem holds_release : (r.release s slot).holds o = r.holds o := by
  unfold release
  split <;> cases o <;> rfl

theorem holds_publish : (r.publish s state).holds o = r.holds o := by
  unfold publish
  rw [holds_modify]
  split_ifs with ho
  · rw [ho]
    rfl
  · rfl

theorem holds_enter : (r.enter s phase).holds o = r.holds o := by
  unfold enter
  rw [holds_modify]
  split_ifs with ho
  · rw [ho]
    rfl
  · rfl

/-- Only a spawn, and the events, change what is live. -/
theorem live_modify (hg : (g (r.session s)).phase = .unspawned ↔ (r.session s).phase = .unspawned) :
    (r.modify s g).live k ↔ r.live k := by
  have hphase : ∀ u, ((r.modify s g).session u).phase = .unspawned ↔
      (r.session u).phase = .unspawned := by
    intro u
    by_cases hu : u = s
    · subst hu
      simpa [modify] using hg
    · simp [modify, hu]
  cases k with
  | task u => exact and_congr_left' (not_congr (hphase u))
  | slot u => exact and_congr_left' (not_congr (hphase u))
  | count u => exact Iff.rfl

theorem live_goto : (r.goto t f).live k ↔ r.live k := Iff.rfl

theorem live_publish : (r.publish s state).live k ↔ r.live k := live_modify Iff.rfl

theorem live_enter (hr : (r.session s).phase ≠ .unspawned) (hphase : phase ≠ .unspawned) :
    (r.enter s phase).live k ↔ r.live k := live_modify (iff_of_false hphase hr)

theorem live_happened (h : ∀ u, .incremented u ∉ events) :
    (r.happened events).live k ↔ r.live k ∧ k ∉ events.filterMap RetirementEvent.spends := by
  have hspends : ∀ k, k ∈ events.filterMap RetirementEvent.spends ↔
      ∃ event ∈ events, event.spends = some k := by simp
  rw [hspends]
  cases k with
  | task u =>
    have heq : ∀ event : RetirementEvent, event.spends = some (.task u) ↔ event = .joined u := by
      intro event
      cases event <;> simp [RetirementEvent.spends]
    simp [live, happened, heq, and_assoc]
  | slot u =>
    have heq : ∀ event : RetirementEvent, event.spends = some (.slot u) ↔ event = .released u := by
      intro event
      cases event <;> simp [RetirementEvent.spends]
    simp [live, happened, heq, and_assoc]
  | count u =>
    have heq : ∀ event : RetirementEvent, event.spends = some (.count u) ↔
        event = .decremented u := by
      intro event
      cases event <;> simp [RetirementEvent.spends]
    simp [live, happened, heq, and_assoc, h u]

theorem live_lost : (r.lost s).live k ↔ r.live k := by
  unfold lost
  rw [live_happened (by simp)]
  simp [RetirementEvent.spends]

theorem live_release : (r.release s slot).live k ↔ r.live k ∧ k ∉ slotOf s slot := by
  unfold release slotOf
  split_ifs with hslot
  · rw [live_happened (by simp)]
    simp only [List.filterMap_cons, RetirementEvent.spends, List.filterMap_nil]
    cases k <;> rfl
  · simp

/-! ## Steps that leave everything where it is -/

def Keeps (r r' : Retirement) : Prop :=
  (∀ o, (r'.holds o).Perm (r.holds o)) ∧ ∀ k, r'.live k ↔ r.live k

theorem Keeps.trans {r₁ : Retirement} (h : r.Keeps r₁) (h' : r₁.Keeps r') : r.Keeps r' :=
  ⟨fun o => (h'.1 o).trans (h.1 o), fun k => (h'.2 k).trans (h.2 k)⟩

theorem keeps_goto (hf : f.holds = (r.frame t).holds) : r.Keeps (r.goto t f) := by
  refine ⟨fun o => ?_, fun k => Iff.rfl⟩
  rw [holds_goto]
  split_ifs with ho
  · rw [ho, hf]
    exact .refl _
  · exact .refl _

theorem keeps_modify (hg : (g (r.session s)).holds s = (r.session s).holds s)
    (hphase : (g (r.session s)).phase = .unspawned ↔ (r.session s).phase = .unspawned) :
    r.Keeps (r.modify s g) := by
  refine ⟨fun o => ?_, fun _ => live_modify hphase⟩
  rw [holds_modify]
  split_ifs with ho
  · rw [ho, hg]
    exact .refl _
  · exact .refl _

theorem keeps_publish : r.Keeps (r.publish s state) :=
  ⟨fun o => by rw [holds_publish], fun _ => live_publish⟩

theorem keeps_enter (hr : (r.session s).phase ≠ .unspawned) (hphase : phase ≠ .unspawned) :
    r.Keeps (r.enter s phase) :=
  ⟨fun o => by rw [holds_enter], fun _ => live_enter hr hphase⟩

theorem keeps_happened (hi : ∀ u, .incremented u ∉ events)
    (hs : events.filterMap RetirementEvent.spends = []) : r.Keeps (r.happened events) := by
  refine ⟨fun o => by rw [holds_happened], fun k => ?_⟩
  rw [live_happened hi, hs]
  simp

theorem keeps_lost : r.Keeps (r.lost s) := ⟨fun o => by rw [holds_lost], fun _ => live_lost⟩

/-! ## Who passes what to whom -/

end Retirement

/-- A handle goes from a session to a call, and on to the process custodian or the ledger. -/
inductive Owner.Passes : Owner → Owner → Prop where
  | take (s t : ℕ) : Owner.Passes (.session s) (.call t)
  | send (t : ℕ) : Owner.Passes (.call t) .queue
  | push (t : ℕ) : Owner.Passes (.call t) .ledger
  | receive : Owner.Passes .queue .thread

namespace Retirement

/-- What one step does to the resources. -/
def Moves (r r' : Retirement) : Prop :=
  CustodyStep Owner.Passes r.holds r'.holds r.live r'.live

theorem Keeps.moves (h : r.Keeps r') : r.Moves r' := .keep h.1 h.2

/-! ## The steps of a task, and of a call -/

/-- A session that was not spawned has nothing. -/
theorem holds_unspawned (h : Linear r.holds r.live) (hphase : (r.session s).phase = .unspawned) :
    r.holds (.session s) = [] := by
  refine List.eq_nil_iff_forall_not_mem.2 fun k hk => ?_
  have hlive := h.live_of_mem hk
  have hcases : k = .task s ∨ k = .slot s := by
    simp only [holds, AuthenticatedUserWsInner.holds, slotOf, List.mem_append] at hk
    split_ifs at hk <;> simp_all
  rcases hcases with rfl | rfl <;> exact hlive.1 hphase

theorem moves_task (h : Linear r.holds r.live) (hs : TaskStep s r r')
    (hunspawned : (r.session s).phase = .unspawned → .joined s ∉ r.log ∧ .released s ∉ r.log) :
    r.Moves r' := by
  cases hs with
  | connect hphase hslots =>
    refine CustodyStep.make (b := .session s) (l := [.task s, .slot s]) (by simp) ?_ ?_ ?_ ?_
    · simp [live, hphase]
    · rw [holds_modify, if_pos rfl, holds_unspawned h hphase]
      simp [AuthenticatedUserWsInner.holds, slotOf]
    · intro o ho
      rw [holds_modify, if_neg ho]
      cases o <;> exact .refl _
    · obtain ⟨hjoined, hreleased⟩ := hunspawned hphase
      intro k
      cases k with
      | task u =>
        by_cases hu : u = s
        · simp [live, modify, hu, hjoined]
        · simp [live, modify, hu]
      | slot u =>
        by_cases hu : u = s
        · simp [live, modify, hu, hreleased]
        · simp [live, modify, hu]
      | count u => simp [live, modify]
  | connectionDone hphase => exact (keeps_enter (by simp [hphase]) (by simp)).moves
  | shutdownSeen hphase => exact (keeps_enter (by simp [hphase]) (by simp)).moves
  | requested hphase =>
    have hphase' : ((r.publish s .requested).session s).phase ≠ .unspawned := by
      simp [publish, modify, hphase]
    have hkeeps : r.Keeps ((r.publish s .requested).enter s .grace) :=
      keeps_publish.trans (keeps_enter hphase' (by simp))
    exact (hkeeps.trans (keeps_happened (by simp) rfl)).moves
  | graceDone hphase =>
    have hkeeps : r.Keeps (r.enter s (.disposed .terminalGraceful)) :=
      keeps_enter (by simp [hphase]) (by simp)
    exact (hkeeps.trans (keeps_happened (by simp) rfl)).moves
  | graceTimeout hphase =>
    have hkeeps : r.Keeps (r.enter s (.disposed .terminalCancelled)) :=
      keeps_enter (by simp [hphase]) (by simp)
    exact (hkeeps.trans keeps_lost).moves
  | @publish disposition hphase =>
    have hphase' : ((r.publish s disposition).session s).phase ≠ .unspawned := by
      simp [publish, modify, hphase]
    have hkeeps : r.Keeps ((r.publish s disposition).enter s (.published disposition)) :=
      keeps_publish.trans (keeps_enter hphase' (by simp))
    exact (hkeeps.trans (keeps_happened (by simp) rfl)).moves
  | returns hphase => exact (keeps_enter (by simp [hphase]) (by simp)).moves
  | stopped hphase =>
    have hphase' : (r.session s).phase ≠ .unspawned := by
      rcases hphase with hphase | hphase <;> simp [hphase]
    exact (keeps_enter hphase' (by simp)).moves

theorem moves_call (hs : CallStep t r r') : r.Moves r' := by
  cases hs with
  | call kind s hframe => exact (keeps_goto (by simp [hframe, Frame.holds])).moves
  | @requestShutdown kind s hframe =>
    have hmodify : r.Keeps (r.modify s fun session => { session with shutdown := true }) :=
      keeps_modify rfl Iff.rfl
    have hkeeps := hmodify.trans (keeps_goto (t := t) (f := .takeTask kind s)
      (by simp [modify, hframe, Frame.holds]))
    exact (hkeeps.trans (keeps_happened (by simp) rfl)).moves
  | @takeTask kind s hframe htask =>
    refine CustodyStep.pass (l := [.task s]) (.take s t) (by simp) ?_ ?_ ?_ ?_
    · rw [holds_goto, if_neg (by simp), holds_modify, if_pos rfl]
      simp [holds, AuthenticatedUserWsInner.holds, htask]
    · rw [holds_goto, if_pos rfl]
      simp [holds, hframe, Frame.holds]
    · intro o ha hb
      rw [holds_goto, if_neg hb, holds_modify, if_neg ha]
    · exact fun k => live_goto.trans (live_modify (by exact Iff.rfl))
  | taskTaken hframe =>
    refine (keeps_goto ?_).moves
    split_ifs <;> simp [hframe, Frame.holds]
  | @takeSlot kind s hframe =>
    refine CustodyStep.pass (l := slotOf s (r.session s).retirementSlot) (.take s t) (by simp)
      ?_ ?_ ?_ ?_
    · rw [holds_goto, if_neg (by simp), holds_modify, if_pos rfl]
      simp only [holds, AuthenticatedUserWsInner.holds, slotOf, Bool.false_eq_true, if_false,
        List.append_nil]
      exact List.perm_append_comm
    · rw [holds_goto, if_pos rfl]
      have hholds : (r.holds (.call t)) = [.task s] := by simp [holds, hframe, Frame.holds]
      rw [hholds]
      split_ifs <;> exact List.perm_append_singleton .. |>.symm
    · intro o ha hb
      rw [holds_goto, if_neg hb, holds_modify, if_neg ha]
    · exact fun k => live_goto.trans (live_modify (by exact Iff.rfl))
  | waited hframe => exact (keeps_goto (by simp [hframe, Frame.holds])).moves
  | @joined kind s slot result hframe =>
    refine CustodyStep.spend (a := .call t) (l := [.task s]) ?_ ?_ ?_
    · rw [holds_happened, holds_goto, if_pos rfl]
      split_ifs <;> simp [holds, hframe, Frame.holds]
    · intro o ho
      rw [holds_happened, holds_goto, if_neg ho]
    · exact fun k => live_happened (by simp)
  | dropGuard hframe => exact (keeps_goto (by simp [hframe, Frame.holds])).moves
  | @joinFailed s slot hframe =>
    have hkeeps := keeps_publish.trans (keeps_goto (r := r.publish s .terminalCancelled) (t := t)
      (f := .complete s slot) (by simp [publish, modify, hframe, Frame.holds]))
    exact (hkeeps.trans (keeps_happened (by simp) rfl)).moves
  | @complete s slot hframe =>
    refine CustodyStep.spend (a := .call t) (l := slotOf s slot) ?_ ?_ ?_
    · rw [holds_release, holds_goto, if_pos rfl]
      simp [holds, hframe, Frame.holds]
    · intro o ho
      rw [holds_release, holds_goto, if_neg ho]
    · exact fun k => live_release

/-! ## The steps of a transfer -/

theorem moves_transfer (h : Linear r.holds r.live) (hs : TransferStep t r r')
    (hcounted : ∀ s, r.frame t = .known .incrementRetained s →
      .incremented s ∉ r.log ∧ .decremented s ∉ r.log)
    (hpos : ∀ s, r.live (.count s) → 0 < r.retained) : r.Moves r' := by
  cases hs with
  | init hcustodian hcell => exact .keep (fun o => .refl _) fun k => Iff.rfl
  | known hframe =>
    exact (keeps_goto (by simp [hframe, Frame.holds, slotOf, TransferPoint.counted])).moves
  | unknown hframe => exact (keeps_goto (by simp [hframe, Frame.holds])).moves
  | checkTransfers hframe =>
    refine (keeps_goto ?_).moves
    split_ifs <;> simp [hframe, Frame.holds, slotOf, TransferPoint.counted]
  | incrementTransfers hframe =>
    exact (keeps_goto (r := { r with transfers := r.transfers + 1 })
      (by simp [hframe, Frame.holds, TransferPoint.counted])).moves
  | overflowTransfers hframe =>
    exact (keeps_goto (by simp [hframe, Frame.holds, TransferPoint.counted])).moves
  | checkRetained hframe =>
    refine (keeps_goto ?_).moves
    split_ifs <;> simp [hframe, Frame.holds, slotOf, TransferPoint.counted]
  | @incrementRetained s hframe =>
    obtain ⟨hincremented, hdecremented⟩ := hcounted s hframe
    refine CustodyStep.make (b := .call t) (l := [.count s]) (by simp) ?_ ?_ ?_ ?_
    · simp [live, hincremented]
    · rw [holds_happened, holds_goto, if_pos rfl]
      have hholds : r.holds (.call t) = [.task s, .slot s] := by
        simp [holds, hframe, Frame.holds, TransferPoint.counted]
      rw [hholds]
      exact List.perm_append_singleton _ [Resource.task s, Resource.slot s]
    · intro o ho
      rw [holds_happened, holds_goto, if_neg ho]
      cases o <;> exact .refl _
    · intro k
      cases k with
      | count u =>
        by_cases hu : u = s
        · simp [live, goto, happened, hu, hdecremented]
        · simp [live, goto, happened, hu]
      | _ => simp [live, goto, happened]
  | overflowRetained hframe =>
    exact (keeps_goto (by simp [hframe, Frame.holds, TransferPoint.counted])).moves
  | poison hframe =>
    exact (keeps_goto (r := { r with poisoned := true })
      (by simp [hframe, Frame.holds, slotOf, TransferPoint.counted])).moves
  | @publish s hframe =>
    have hkeeps := keeps_publish.trans (keeps_goto (r := r.publish s .retainedByProcessCustodian)
      (t := t) (f := .known .send s)
      (by simp [publish, modify, hframe, Frame.holds, TransferPoint.counted]))
    exact (hkeeps.trans (keeps_happened (by simp) rfl)).moves
  | @send s hframe =>
    refine CustodyStep.pass (l := [.task s, .slot s, .count s]) (.send t) (by simp)
      ?_ ?_ ?_ ?_
    · rw [holds_happened, holds_goto, if_pos rfl]
      simp [holds, hframe, Frame.holds, TransferPoint.counted]
    · rw [holds_happened, holds_goto, if_neg (by simp)]
      simp only [holds, List.flatMap_append, List.flatMap_cons, List.flatMap_nil, List.append_nil]
      exact List.perm_append_comm
    · intro o ha hb
      rw [holds_happened, holds_goto, if_neg ha]
      cases o <;> first | exact .refl _ | exact absurd rfl hb
    · intro k
      rw [live_happened (by simp)]
      simp [RetirementEvent.spends, goto]
      rfl
  | refused hframe =>
    exact (keeps_goto (by simp [hframe, Frame.holds, TransferPoint.counted])).moves
  | @decrementRetained s hframe =>
    refine CustodyStep.spend (a := .call t) (l := [.count s]) ?_ ?_ ?_
    · rw [holds_happened, holds_goto, if_pos rfl]
      have hholds : r.holds (.call t) = [.task s, .slot s, .count s] := by
        simp [holds, hframe, Frame.holds, TransferPoint.counted]
      rw [hholds]
      exact List.perm_append_singleton _ [Resource.task s, Resource.slot s]
    · intro o ho
      rw [holds_happened, holds_goto, if_neg ho]
      cases o <;> exact .refl _
    · intro k
      rw [live_happened (by simp)]
      rfl
  | @underflowRetained s hframe hzero =>
    have hm : .count s ∈ r.holds (.call t) := by
      simp [holds, hframe, Frame.holds, TransferPoint.counted]
    exact absurd hzero (hpos s (h.live_of_mem hm)).ne'
  | @abort s slot hframe =>
    have hkeeps : r.Keeps ((r.goto t (.failed .publish s slot)).happened [.aborted s]) :=
      (keeps_goto (by simp [hframe, Frame.holds])).trans (keeps_happened (by simp) rfl)
    exact (hkeeps.trans keeps_lost).moves
  | @publishFailed s slot hframe =>
    have hkeeps := keeps_publish.trans (keeps_goto (r := r.publish s .retainedByProcessCustodian)
      (t := t) (f := .failed .push s slot) (by simp [publish, modify, hframe, Frame.holds]))
    exact (hkeeps.trans (keeps_happened (by simp) rfl)).moves
  | @push s slot mutexPoisoned hframe =>
    refine CustodyStep.pass (l := .task s :: slotOf s slot) (.push t) (by simp)
      ?_ ?_ ?_ ?_
    · rw [holds_happened, holds_goto, if_pos rfl]
      simp [holds, hframe, Frame.holds]
    · rw [holds_happened, holds_goto, if_neg (by simp)]
      simp only [holds, lockLedger, List.flatMap_append, List.flatMap_cons, List.flatMap_nil,
        List.append_nil]
      exact List.perm_append_comm
    · intro o ha hb
      rw [holds_happened, holds_goto, if_neg ha]
      cases o <;> first | exact .refl _ | exact absurd rfl hb
    · intro k
      rw [live_happened (by simp)]
      simp [RetirementEvent.spends, goto]
      rfl

/-! ## The steps of the thread, and of a drain -/

theorem moves_thread (h : Linear r.holds r.live) (hs : ThreadStep r r')
    (hpos : ∀ s, r.live (.count s) → 0 < r.retained) : r.Moves r' := by
  cases hs with
  | @receive s queue hthread hstarted hqueue =>
    refine CustodyStep.pass (l := [.task s, .slot s, .count s]) .receive (by simp)
      ?_ ?_ ?_ fun k => Iff.rfl
    · simp [holds, hqueue, ProcessRetirementCommand.holds]
    · simp [holds, hthread, ThreadState.holds]
    · intro o ha hb
      cases o <;> first | exact .refl _ | exact absurd rfl ha | exact absurd rfl hb
  | barrier hthread hstarted hqueue =>
    refine .keep (fun o => ?_) fun k => Iff.rfl
    cases o with
    | queue => simp [holds, hqueue, ProcessRetirementCommand.holds]
    | _ => exact .refl _
  | @join s result hthread =>
    refine CustodyStep.spend (a := .thread) (l := [.task s]) ?_ ?_ fun k => live_happened (by simp)
    · simp [holds, happened, hthread, ThreadState.holds]
    · intro o ho
      cases o <;> first | exact .refl _ | exact absurd rfl ho
  | check hthread =>
    refine .keep (fun o => ?_) fun k => Iff.rfl
    cases o with
    | thread =>
      simp only [holds, hthread]
      split_ifs <;> exact .refl _
    | _ => exact .refl _
  | @cancel s hthread =>
    have hkeeps : r.Keeps { r with thread := .decrementing s } := by
      refine ⟨fun o => ?_, fun k => Iff.rfl⟩
      cases o with
      | thread => simp [holds, hthread, ThreadState.holds]
      | _ => exact .refl _
    exact ((hkeeps.trans keeps_publish).trans keeps_lost).moves
  | @decrement s hthread =>
    refine CustodyStep.spend (a := .thread) (l := [.count s]) ?_ ?_ fun k => live_happened (by simp)
    · simp only [holds, happened, hthread, ThreadState.holds]
      exact List.perm_append_singleton _ [Resource.slot s]
    · intro o ho
      cases o <;> first | exact .refl _ | exact absurd rfl ho
  | @underflow s hthread hzero =>
    have hm : .count s ∈ r.holds .thread := by simp [holds, hthread, ThreadState.holds]
    exact absurd hzero (hpos s (h.live_of_mem hm)).ne'
  | @release s hthread =>
    refine CustodyStep.spend (a := .thread) (l := [.slot s]) ?_ ?_ fun k => live_release
    · rw [holds_release]
      simp [holds, hthread, ThreadState.holds]
    · intro o ho
      rw [holds_release]
      cases o <;> first | exact .refl _ | exact absurd rfl ho

/-- A drain owns nothing. -/
theorem keeps_draining {since since' : List RetirementEvent}
    {process process' : ProcessDrain} {failed failed' : FailedDrain}
    (hframe : r.frame t = .draining since process failed) :
    r.Keeps (r.goto t (.draining since' process' failed')) :=
  keeps_goto (by simp [hframe, Frame.holds])

theorem swapRemove_perm {α : Type} {l : List α} {index : ℕ} {a : α} (ha : l[index]? = some a) :
    l.Perm (a :: swapRemove l index) := by
  obtain ⟨hlt, rfl⟩ := List.getElem?_eq_some_iff.1 ha
  have hne : l ≠ [] := List.ne_nil_of_length_pos (Nat.zero_lt_of_lt hlt)
  obtain ⟨last, hlast⟩ : ∃ last, l.getLast? = some last := ⟨_, List.getLast?_eq_some_getLast hne⟩
  obtain ⟨init, rfl⟩ := List.getLast?_eq_some_iff.1 hlast
  unfold swapRemove
  rw [hlast]
  dsimp only
  by_cases hi : index < init.length
  · rw [List.getElem_append_left hi, List.set_append_left _ _ hi, List.dropLast_concat]
    refine (List.perm_append_singleton last init).trans ?_
    refine ((List.getElem_cons_eraseIdx_perm hi).symm.cons last).trans ?_
    exact (List.Perm.swap ..).trans ((List.set_perm_cons_eraseIdx hi last).symm.cons _)
  · have heq : index = init.length := by
      rw [List.length_append, List.length_singleton] at hlt
      omega
    subst heq
    rw [List.getElem_concat_length rfl, List.set_append_right _ _ le_rfl, Nat.sub_self]
    simp only [List.set_cons_zero, List.dropLast_concat]
    exact List.perm_append_singleton last init

theorem moves_drain (hs : DrainStep t r r') : r.Moves r' := by
  cases hs with
  | call hframe =>
    have hkeeps : r.Keeps (r.goto t (.draining r.log .start .lock)) :=
      keeps_goto (by simp [hframe, Frame.holds])
    exact (hkeeps.trans (keeps_happened (by simp) rfl)).moves
  | noCustodian hframe => exact (keeps_draining hframe).moves
  | sendBarrier hframe =>
    have hkeeps : r.Keeps { r with
        queue := r.queue ++ [ProcessRetirementCommand.barrier r.nextBarrier]
        nextBarrier := r.nextBarrier + 1 } := by
      refine ⟨fun o => ?_, fun k => Iff.rfl⟩
      cases o with
      | queue => simp [holds, ProcessRetirementCommand.holds]
      | _ => exact .refl _
    exact (hkeeps.trans (keeps_draining hframe)).moves
  | refused hframe => exact (keeps_draining hframe).moves
  | completed hframe => exact (keeps_draining hframe).moves
  | loadRetained hframe => exact (keeps_draining hframe).moves
  | loadPoisoned hframe => exact (keeps_draining hframe).moves
  | lock mutexPoisoned hframe =>
    exact (keeps_draining (r := { r with ledgerLock := some t }.lockLedger mutexPoisoned)
      hframe).moves
  | notReady hframe => exact (keeps_draining hframe).moves
  | @reap since process index entry result hframe hentry =>
    refine CustodyStep.spend (a := .ledger) (l := .task entry.s :: slotOf entry.s entry.slot)
      ?_ ?_ ?_
    · rw [holds_release, holds_happened, holds_publish]
      exact (swapRemove_perm hentry).flatMap_right _
    · intro o ho
      rw [holds_release, holds_happened, holds_publish]
      cases o <;> first | exact .refl _ | exact absurd rfl ho
    · intro k
      rw [live_release, live_happened (by simp), live_publish]
      simp only [List.filterMap_cons, RetirementEvent.spends, List.filterMap_nil, List.mem_cons,
        List.not_mem_nil, or_false, not_or, and_assoc]
      rfl
  | scanned hframe => exact (keeps_draining (r := { r with ledgerLock := none }) hframe).moves
  | loadLedgerPoisoned hframe => exact (keeps_draining hframe).moves
  | loadDrainFailed hframe => exact (keeps_draining hframe).moves
  | returns hframe =>
    have hkeeps : r.Keeps (r.goto t .idle) := keeps_goto (by simp [hframe, Frame.holds])
    exact (hkeeps.trans (keeps_happened (by simp) rfl)).moves
  | dropped hframe =>
    have hkeeps : r.Keeps (r.goto t .idle) := keeps_goto (by simp [hframe, Frame.holds])
    exact (hkeeps.trans (keeps_happened (by simp) rfl)).moves

end Retirement

end

end Rspm
