/-
  The watch channel of the state, under concurrent callers.

  A call is two atomic halves: its locked section, and the `send_replace` of the
  snapshot that the section took.  Other callers may run between the two.
  A caller that is alone makes the calls of `cellMachine` (`exec_alone`); with
  overlapping callers the value of the channel is the locked state whenever
  the last send was of the last change (`published_state_current`), and an
  older snapshot sent last stays there (`published_state_stale`).
-/
import Rspm.Ws.Calls

namespace Rspm

/-! ## Sections and sends -/

/-- A snapshot between its section and its send, with the number of changes behind it. -/
structure Unsent where
  snapshot : AuthenticatedUserWsState
  version : ℕ

/-- A cell with the snapshots of the callers that are between their two halves. -/
structure Channel where
  cell : StateCell
  /-- the locked sections that changed the state so far -/
  version : ℕ := 0
  unsent : List Unsent := []

/-- One half of a call; a send names its snapshot by its place among the unsent ones. -/
inductive Half where
  | locked (op : Op)
  | send (index : ℕ)

namespace Channel

variable (channel : Channel)

def locked (op : Op) : Channel × Option Reply :=
  let l := channel.cell.perform op
  let version :=
    if l.cell.state = channel.cell.state then channel.version else channel.version + 1
  (⟨l.cell, version, channel.unsent ++ (l.unsent.map (⟨·, version⟩)).toList⟩, some l.result)

def send (index : ℕ) : Channel × Option Reply :=
  match channel.unsent[index]? with
  | some u =>
    ({ channel with
        cell := { channel.cell with stateTx := u.snapshot }
        unsent := channel.unsent.eraseIdx index }, none)
  | none => (channel, none)

end Channel

def channelMachine : Machine Channel Half (Option Reply) where
  step channel
    | .locked op => channel.locked op
    | .send index => channel.send index

abbrev ChannelCall := channelMachine.Call

/-- Finalizations are opaque to callers here as well. -/
def Half.available (cs : List ChannelCall) : Half → Prop
  | .locked (.commitCatchUpFinalization finalization) =>
    ∃ c ∈ cs, c.out = some (.finalization (some finalization))
  | _ => True

/-- The runs of the halves of any number of callers, in any order. -/
abbrev ChannelRun (credentialIdentity : AuthenticatedCredentialIdentity) :
    List ChannelCall → Channel → Prop :=
  Machine.Run channelMachine Half.available
    { cell := StateCell.newWithIdentity credentialIdentity }

/-! ## What a section leaves to send -/

/-- A section that changes the state sends it under the lock, or leaves it to be sent. -/
def Locked.Publishes {β : Type} (cell : StateCell) (l : Locked β) : Prop :=
  match l.unsent with
  | some snapshot => snapshot = l.cell.state
  | none => l.cell.stateTx = l.cell.state ∨
      l.cell.state = cell.state ∧ l.cell.stateTx = cell.stateTx

namespace StateCell

variable {cell : StateCell} {β γ : Type}

@[simp] theorem publishes_map {l : Locked β} {f : β → γ} :
    (l.map f).Publishes cell ↔ l.Publishes cell := Iff.rfl

theorem publishes_publishPoisoned (cell : StateCell) : cell.publishPoisoned.Publishes cell := rfl

theorem publishes_failUnderLock (cell : StateCell) (refused : β) :
    (cell.failUnderLock refused).Publishes cell := .inl rfl

theorem publishes_rest (cell : StateCell) (result : β) :
    (⟨cell, none, result⟩ : Locked β).Publishes cell := .inr ⟨rfl, rfl⟩

/-- A refused lock is published; so is the section it guards. -/
theorem publishes_lock {refused : β} {body : StateCell → Locked β}
    (h : (body cell).Publishes cell) : (cell.lock refused body).Publishes cell := by
  unfold lock
  split_ifs
  · exact publishes_map.2 (publishes_publishPoisoned cell)
  · rfl
  · exact h

theorem publishes_update (cell : StateCell)
    (f : AuthenticatedUserWsState → AuthenticatedUserWsState × β) :
    (cell.update f).Publishes cell := publishes_lock rfl

theorem publishes_modify (cell : StateCell)
    (f : AuthenticatedUserWsState → AuthenticatedUserWsState) :
    (cell.modify f).Publishes cell := publishes_map.2 (publishes_update cell _)

theorem publishes_snapshot (cell : StateCell) : cell.snapshot.Publishes cell := by
  unfold snapshot
  split_ifs
  · rfl
  · exact .inl rfl
  · exact publishes_rest cell _

theorem publishes_retainRawFrame (cell : StateCell) (evidence : AuthenticatedUserRawFrame) :
    (cell.retainRawFrame evidence).Publishes cell := by
  have hrelease : ∀ l : Locked Bool, l.Publishes cell →
      (if l.result then l else { l with cell := l.cell.releaseCapacity }).Publishes cell := by
    intro l hl
    split_ifs
    · exact hl
    · exact hl
  refine hrelease _ ?_
  split_ifs
  · exact publishes_map.2 (publishes_modify cell _)
  · refine publishes_lock ?_
    split_ifs
    · exact publishes_failUnderLock cell false
    · rfl

theorem publishes_pendingRawFrames (cell : StateCell) :
    cell.pendingRawFrames.Publishes cell := by
  unfold pendingRawFrames
  dsimp only
  split_ifs
  · exact publishes_map.2 (publishes_publishPoisoned cell)
  · exact publishes_rest cell _

theorem publishes_acknowledgeRawFrameDurable (cell : StateCell) (frameSequence : ℕ) :
    (cell.acknowledgeRawFrameDurable frameSequence).Publishes cell := by
  refine publishes_lock ?_
  split_ifs
  · exact publishes_failUnderLock cell false
  · rfl
  · rfl

theorem publishes_markDropped (cell : StateCell) (range : TransportSequenceRange) :
    (cell.markDropped range).Publishes cell := by
  refine publishes_lock ?_
  by_cases hk : cell.state.knowsRange range
  · rw [if_neg (not_not.2 hk)]
    by_cases hp : cell.droppedPoisoned
    · rw [if_pos hp]; exact publishes_failUnderLock cell false
    · rw [if_neg hp]
      split
      · rfl
      · rfl
  · rw [if_pos hk]; rfl

theorem publishes_acknowledgeDurable (cell : StateCell) (sequence : ℕ) :
    (cell.acknowledgeDurable sequence).Publishes cell := by
  refine publishes_lock ?_
  split_ifs
  · exact publishes_rest cell false
  · exact publishes_rest cell true
  · exact publishes_failUnderLock cell false
  · rfl
  · rfl

theorem publishes_prepareCatchUpFinalization (cell : StateCell)
    (token : AuthenticatedUserRecoveryToken)
    (credentialAuthority : AuthenticatedCredentialAuthority)
    (transportWatermark minimumLivenessVersion : ℕ) :
    (cell.prepareCatchUpFinalization token credentialAuthority transportWatermark
      minimumLivenessVersion).Publishes cell := by
  refine publishes_lock ?_
  split_ifs
  · exact publishes_failUnderLock cell none
  · exact publishes_failUnderLock cell none
  · exact publishes_rest cell _
  · exact publishes_rest cell none

theorem publishes_commitCatchUpFinalization (cell : StateCell)
    (finalization : AuthenticatedUserCatchUpFinalization) :
    (cell.commitCatchUpFinalization finalization).Publishes cell := by
  refine publishes_lock ?_
  split_ifs
  · exact publishes_failUnderLock cell false
  · exact publishes_failUnderLock cell false
  · rfl
  · exact publishes_rest cell false

theorem publishes_perform (cell : StateCell) (op : Op) : (cell.perform op).Publishes cell := by
  cases op with
  | markAuthorityPoisoned => exact publishes_publishPoisoned cell
  | snapshot => simp only [perform, publishes_map]; exact publishes_snapshot cell
  | markConnecting | markSubscriptionWritten | markServerLivenessProven | markDisconnected
  | markSchemaGap | markDeliveryGap | markConsumerClosed | markEvidenceGap | markEnqueued =>
    simp only [perform, publishes_map]; exact publishes_modify cell _
  | tryMarkConnected =>
    simp only [perform, tryMarkConnected, publishes_map]; exact publishes_update cell _
  | markAuthenticatedRestProven token credentialAuthority =>
    simp only [perform, markAuthenticatedRestProven, publishes_map]
    exact publishes_update cell _
  | reserveRawFrameSequence =>
    simp only [perform, reserveRawFrameSequence, publishes_map]; exact publishes_update cell _
  | reserveTransportSequences eventCount =>
    simp only [perform, reserveTransportSequences, publishes_map]
    split_ifs
    · exact publishes_rest cell none
    · rw [publishes_map]; exact publishes_update cell _
  | reserveRawFrameCapacity =>
    simp only [perform, reserveRawFrameCapacity, publishes_map]
    split_ifs
    · exact publishes_rest cell false
    · exact .inr ⟨rfl, rfl⟩
  | retainRawFrame evidence =>
    simp only [perform, publishes_map]; exact publishes_retainRawFrame cell evidence
  | pendingRawFrames =>
    simp only [perform, publishes_map]; exact publishes_pendingRawFrames cell
  | acknowledgeRawFrameDurable frameSequence =>
    simp only [perform, publishes_map]
    exact publishes_acknowledgeRawFrameDurable cell frameSequence
  | markDropped range =>
    simp only [perform, publishes_map]; exact publishes_markDropped cell range
  | acknowledgeDurable sequence =>
    simp only [perform, publishes_map]; exact publishes_acknowledgeDurable cell sequence
  | prepareCatchUpFinalization token credentialAuthority transportWatermark floor =>
    simp only [perform, publishes_map]
    exact publishes_prepareCatchUpFinalization cell token credentialAuthority transportWatermark
      floor
  | commitCatchUpFinalization finalization =>
    simp only [perform, publishes_map]
    exact publishes_commitCatchUpFinalization cell finalization
  | authorityMatches token credentialAuthority transportWatermark =>
    simp only [perform, authorityMatches, publishes_map]; exact publishes_snapshot cell
  | dropRawFrameCapacity => exact .inr ⟨rfl, rfl⟩
  | poisonMutex mutex => cases mutex <;> exact .inr ⟨rfl, rfl⟩

end StateCell

/-! ## A caller that is alone -/

/-- The halves of calls that do not overlap. -/
def alone (ops : List Op) : List Half := ops.flatMap fun op => [.locked op, .send 0]

/-- Calls that do not overlap are calls of the cell. -/
theorem exec_alone (ops : List Op) : ∀ channel : Channel, channel.unsent = [] →
    (channelMachine.exec channel (alone ops)).cell = cellMachine.exec channel.cell ops ∧
      (channelMachine.exec channel (alone ops)).unsent = [] := by
  induction ops with
  | nil => exact fun channel h => ⟨rfl, h⟩
  | cons op ops ih =>
    intro channel h
    have hcall : ((channel.locked op).1.send 0).1.cell = (cellMachine.step channel.cell op).1 ∧
        ((channel.locked op).1.send 0).1.unsent = [] := by
      unfold Channel.send Channel.locked
      cases hu : (channel.cell.perform op).unsent with
      | none =>
        simp only [h, hu, Option.map_none, Option.toList_none, List.nil_append,
          List.getElem?_nil]
        refine ⟨?_, trivial⟩
        show _ = (channel.cell.perform op).settle.1
        rw [Locked.settle, hu]
      | some snapshot =>
        simp only [h, hu, Option.map_some, Option.toList_some, List.nil_append,
          List.getElem?_cons_zero, List.eraseIdx_cons_zero]
        refine ⟨?_, trivial⟩
        show _ = (channel.cell.perform op).settle.1
        rw [Locked.settle, hu]
    have hrest := ih _ hcall.2
    rw [hcall.1] at hrest
    exact hrest

/-! ## What a quiescent channel shows -/

/-- A send that leaves nothing unsent is of the last change of the state. -/
def ChannelCall.Timely (c : ChannelCall) : Prop :=
  c.input = .send 0 → ∀ u, c.pre.unsent = [u] → u.version = c.pre.version

/-- A quiescent channel shows the locked state; a snapshot of the last change is that state. -/
structure Channel.Current (channel : Channel) : Prop where
  quiescent : channel.unsent = [] → channel.cell.stateTx = channel.cell.state
  version_le : ∀ u ∈ channel.unsent, u.version ≤ channel.version
  snapshot : ∀ u ∈ channel.unsent, u.version = channel.version →
    u.snapshot = channel.cell.state

namespace Channel.Current

variable {channel : Channel}

theorem locked (h : channel.Current) (op : Op) : (channel.locked op).1.Current := by
  have hpub := channel.cell.publishes_perform op
  have hversion : channel.version ≤ (channel.locked op).1.version := by
    show channel.version ≤ if _ then _ else _
    split_ifs
    · exact le_rfl
    · exact Nat.le_succ _
  have hsame : (channel.locked op).1.version = channel.version →
      (channel.cell.perform op).cell.state = channel.cell.state := by
    intro hv
    by_contra hne
    replace hv : (if _ then _ else _) = channel.version := hv
    rw [if_neg hne] at hv
    exact Nat.succ_ne_self _ hv
  have hmem : ∀ u ∈ (channel.locked op).1.unsent, u ∈ channel.unsent ∨
      u.version = (channel.locked op).1.version ∧
        u.snapshot = (channel.cell.perform op).cell.state := by
    intro u hu
    rcases List.mem_append.1 hu with hu | hu
    · exact .inl hu
    · right
      unfold Locked.Publishes at hpub
      cases hs : (channel.cell.perform op).unsent with
      | none => rw [hs] at hu; cases hu
      | some snapshot =>
        rw [hs] at hu hpub
        obtain rfl := List.mem_singleton.1 hu
        exact ⟨rfl, hpub⟩
  constructor
  · intro hq
    obtain ⟨hnone, hsection⟩ := List.append_eq_nil_iff.1 hq
    unfold Locked.Publishes at hpub
    cases hs : (channel.cell.perform op).unsent with
    | some snapshot => rw [hs] at hsection; cases hsection
    | none =>
      rw [hs] at hpub
      rcases hpub with hpub | ⟨hst, htx⟩
      · exact hpub
      · show (channel.cell.perform op).cell.stateTx = (channel.cell.perform op).cell.state
        rw [hst, htx]
        exact h.quiescent hnone
  · intro u hu
    rcases hmem u hu with hu | ⟨hv, -⟩
    · exact (h.version_le u hu).trans hversion
    · exact hv.le
  · intro u hu hv
    rcases hmem u hu with hu | ⟨-, hs⟩
    · have hle := h.version_le u hu
      have hback : (channel.locked op).1.version = channel.version :=
        le_antisymm (hv ▸ hle) hversion
      rw [h.snapshot u hu (hv.trans hback)]
      exact (hsame hback).symm
    · exact hs

theorem send (h : channel.Current) {index : ℕ}
    (ht : ChannelCall.Timely ⟨channel, .send index⟩) : (channel.send index).1.Current := by
  unfold Channel.send
  cases hu : channel.unsent[index]? with
  | none => exact h
  | some u =>
    obtain ⟨hlt, hget⟩ := List.getElem?_eq_some_iff.1 hu
    constructor
    · intro hq
      -- the last unsent snapshot: it is of the last change
      have hlen := congrArg List.length hq
      rw [List.length_eraseIdx_of_lt hlt, List.length_nil] at hlen
      obtain ⟨v, hv⟩ := List.length_eq_one_iff.1 (show channel.unsent.length = 1 by omega)
      have hindex : index = 0 := by rw [hv, List.length_singleton] at hlt; omega
      subst hindex
      have huv : v = u := by simpa [hv] using hget
      subst huv
      exact h.snapshot v (hv ▸ List.mem_singleton_self v) (ht rfl v hv)
    · exact fun v hv => h.version_le v (List.mem_of_mem_eraseIdx hv)
    · exact fun v hv => h.snapshot v (List.mem_of_mem_eraseIdx hv)

theorem call {c : ChannelCall} (h : c.pre.Current) (ht : c.Timely) : c.post.Current := by
  obtain ⟨channel, input⟩ := c
  cases input with
  | locked op => exact h.locked op
  | send index => exact h.send ht

end Channel.Current

/-- In every run in which each send that leaves nothing unsent is of the last change, a
    quiescent channel shows the locked state. -/
theorem published_state_current {credentialIdentity : AuthenticatedCredentialIdentity}
    {cs : List ChannelCall} {channel : Channel} (h : ChannelRun credentialIdentity cs channel)
    (ht : ∀ c ∈ cs, ChannelCall.Timely c) (hq : channel.unsent = []) :
    channel.cell.stateTx = channel.cell.state := by
  have hcurrent : channel.Current := by
    refine h.path.closed_of_mem (P := Channel.Current) (fun c hc hp => hp.call (ht c hc)) ?_
    exact ⟨fun _ => rfl, fun u hu => absurd hu List.not_mem_nil,
      fun u hu => absurd hu List.not_mem_nil⟩
  exact hcurrent.quiescent hq

/-! ## Runs with and without overlap -/

/-- Without overlap every send is timely. -/
theorem alone_timely (ops : List Op) : ∀ channel : Channel, channel.unsent = [] →
    ∀ c ∈ channelMachine.calls channel (alone ops), ChannelCall.Timely c := by
  induction ops with
  | nil => exact fun channel _ c hc => absurd hc List.not_mem_nil
  | cons op ops ih =>
    intro channel h c hc
    rcases List.mem_cons.1 hc with rfl | hc
    · intro hin; cases hin
    rcases List.mem_cons.1 hc with rfl | hc
    · intro _ u hu
      replace hu : channel.unsent ++ _ = [u] := hu
      rw [h, List.nil_append] at hu
      cases hs : (channel.cell.perform op).unsent with
      | none => rw [hs] at hu; cases hu
      | some snapshot =>
        rw [hs] at hu
        obtain rfl := List.singleton_injective hu
        rfl
    · exact ih _ (exec_alone [op] channel h).2 c hc

/-- Two sections, and then their sends, in the same order. -/
def inOrder (op op' : Op) : List Half := [.locked op, .locked op', .send 0, .send 0]

/-- The last send is of the second section, which is the last one. -/
theorem inOrder_timely {channel : Channel} (h : channel.unsent = []) {op op' : Op}
    (hs' : ((channel.cell.perform op).cell.perform op').unsent.isSome) :
    ∀ c ∈ channelMachine.calls channel (inOrder op op'), ChannelCall.Timely c := by
  obtain ⟨snapshot', hs'⟩ := Option.isSome_iff_exists.1 hs'
  have hunsent : ((channel.locked op).1.locked op').1.unsent =
      ((channel.cell.perform op).unsent.map (⟨·, (channel.locked op).1.version⟩)).toList ++
        [⟨snapshot', ((channel.locked op).1.locked op').1.version⟩] := by
    simp [Channel.locked, h, hs']
  intro c hc
  obtain rfl | hc := List.mem_cons.1 hc
  · intro hin; cases hin
  obtain rfl | hc := List.mem_cons.1 hc
  · intro hin; cases hin
  obtain rfl | hc := List.mem_cons.1 hc
  · intro _ u hu
    replace hu := hunsent.symm.trans hu
    cases hs : (channel.cell.perform op).unsent with
    | some snapshot => rw [hs] at hu; cases hu
    | none =>
      rw [hs] at hu
      obtain rfl := List.singleton_injective hu
      rfl
  · obtain rfl := List.mem_singleton.1 hc
    intro _ u hu
    replace hu : (((channel.locked op).1.locked op').1.send 0).1.unsent = [u] := hu
    show u.version = (((channel.locked op).1.locked op').1.send 0).1.version
    rw [Channel.send, hunsent] at hu ⊢
    cases hs : (channel.cell.perform op).unsent with
    | none => rw [hs] at hu; cases hu
    | some snapshot =>
      rw [hs] at hu
      obtain rfl := List.singleton_injective hu
      rfl

/-- After the calls `recoverySetup`, a gap mark that overlaps a PONG, with the sends in order:
    two snapshots are in flight, and in the end the channel shows the gap. -/
theorem published_state_current_overlap :
    ∃ (cs : List ChannelCall) (channel : Channel), ChannelRun {} cs channel ∧
      (∃ c ∈ cs, c.pre.unsent.length = 2) ∧ channel.cell.state.evidenceGap = true ∧
      channel.cell.stateTx = channel.cell.state := by
  have hfree : ∀ half ∈ alone recoverySetup ++
      inOrder .markEvidenceGap (.markServerLivenessProven 1), ∀ cs, half.available cs := by
    simp [alone, inOrder, recoverySetup, Half.available]
  have hrun : ChannelRun {} _ _ := .of_inputs (.of_forall hfree [] _)
  have htimely : ∀ c ∈ channelMachine.calls { cell := .newWithIdentity {} }
      (alone recoverySetup ++ inOrder .markEvidenceGap (.markServerLivenessProven 1)),
      ChannelCall.Timely c := by
    intro c hc
    rw [Machine.calls_append] at hc
    obtain hc | hc := List.mem_append.1 hc
    · exact alone_timely recoverySetup _ rfl c hc
    · exact inOrder_timely (exec_alone recoverySetup _ rfl).2 (by decide) c hc
  exact ⟨_, _, hrun, by decide, by decide, published_state_current hrun htimely (by decide)⟩

/-- One caller runs its section, another its whole call, then the first one sends. -/
def overlap (op op' : Op) : List Half := [.locked op, .locked op', .send 1, .send 0]

/-- The snapshot of the first caller stays in the channel. -/
theorem exec_overlap {channel : Channel} (h : channel.unsent = []) {op op' : Op}
    {snapshot snapshot' : AuthenticatedUserWsState}
    (hs : (channel.cell.perform op).unsent = some snapshot)
    (hs' : ((channel.cell.perform op).cell.perform op').unsent = some snapshot') :
    (channelMachine.exec channel (overlap op op')).unsent = [] ∧
      (channelMachine.exec channel (overlap op op')).cell.stateTx = snapshot ∧
      (channelMachine.exec channel (overlap op op')).cell.state =
        ((channel.cell.perform op).cell.perform op').cell.state := by
  show (Channel.send (Channel.send (Channel.locked (channel.locked op).1 op').1 1).1 0).1.unsent =
      [] ∧ (Channel.send (Channel.send (Channel.locked (channel.locked op).1 op').1 1).1
        0).1.cell.stateTx = _ ∧ (Channel.send (Channel.send (Channel.locked (channel.locked op).1
          op').1 1).1 0).1.cell.state = _
  simp [Channel.send, Channel.locked, h, hs, hs']

/-- On a recovered channel, an enqueue that overlaps a gap mark: nothing is in flight, the gap
    was marked, and the channel shows a ready state. -/
theorem published_state_stale :
    ∃ (cs : List ChannelCall) (channel : Channel), ChannelRun {} cs channel ∧
      channel.unsent = [] ∧ channel.cell.stateTx ≠ channel.cell.state ∧
      channel.cell.stateTx.isReady ∧ channel.cell.state.evidenceGap = true := by
  let f := (recoveryFinalization [] 1).get (by decide)
  have hf : recoveryFinalization [] 1 = some f := (Option.some_get _).symm
  have hfree : ∀ half ∈ alone (recoveryOps []), ∀ cs, half.available cs := by
    simp [alone, recoveryOps, recoverySetup, recoveryProof, Half.available]
  have hsetup : ChannelRun {} _ _ := .of_inputs (.of_forall hfree [] _)
  obtain ⟨hcell, hunsent⟩ := exec_alone (recoveryOps []) { cell := .newWithIdentity {} } rfl
  generalize channelMachine.calls { cell := .newWithIdentity {} } (alone (recoveryOps [])) = cs,
    channelMachine.exec { cell := .newWithIdentity {} } (alone (recoveryOps [])) = channel at *
  replace hcell : channel.cell = recoveryCell [] := hcell
  let prepare : Op := .prepareCatchUpFinalization ⟨1, 1, {}⟩ (sampleAuthority 0) 1 1
  have hout : (channel.locked prepare).2 = some (.finalization (some f)) := by
    show some (Reply.finalization (channel.cell.prepareCatchUpFinalization _ _ _ _).result) = _
    rw [hcell]
    exact congrArg (some ∘ Reply.finalization) hf
  have hprepare := Machine.Run.extend (alone [prepare]) hsetup
    (by exact ⟨trivial, trivial, trivial⟩)
  have hcommit := Machine.Run.extend (alone [.commitCatchUpFinalization f]) hprepare
    (by exact ⟨⟨_, List.mem_append_right _ List.mem_cons_self, hout⟩, trivial, trivial⟩)
  have hlate := Machine.Run.extend (overlap (.markEnqueued ⟨1, 1⟩) .markEvidenceGap) hcommit
    (by exact ⟨trivial, trivial, trivial, trivial, trivial⟩)
  obtain ⟨hcell', hunsent'⟩ := exec_alone [prepare] channel hunsent
  obtain ⟨hcell'', hunsent''⟩ := exec_alone [.commitCatchUpFinalization f] _ hunsent'
  rw [hcell', hcell] at hcell''
  generalize channelMachine.exec (channelMachine.exec channel (alone [prepare]))
    (alone [.commitCatchUpFinalization f]) = ready at *
  replace hcell'' : ready.cell = (recoveryCommit [] 1 f).post := hcell''
  have hs : (ready.cell.perform (.markEnqueued ⟨1, 1⟩)).unsent =
      some (ready.cell.perform (.markEnqueued ⟨1, 1⟩)).cell.state := by
    rw [hcell'']; decide
  have hs' : ((ready.cell.perform (.markEnqueued ⟨1, 1⟩)).cell.perform .markEvidenceGap).unsent =
      some ((ready.cell.perform (.markEnqueued ⟨1, 1⟩)).cell.perform
        .markEvidenceGap).cell.state := by
    rw [hcell'']; decide
  obtain ⟨hq, htx, hstate⟩ := exec_overlap hunsent'' hs hs'
  have hgap : ((ready.cell.perform (.markEnqueued ⟨1, 1⟩)).cell.perform
      .markEvidenceGap).cell.state.evidenceGap = true := by
    rw [hcell'']; decide
  have hready : (ready.cell.perform (.markEnqueued ⟨1, 1⟩)).cell.state.isReady := by
    rw [hcell'']; decide
  refine ⟨_, _, hlate, hq, ?_, htx ▸ hready, hstate ▸ hgap⟩
  rw [htx, hstate]
  intro heq
  rw [← heq, hready.1.2.2.2.2.2.2.2.2.2.1] at hgap
  cases hgap

end Rspm
