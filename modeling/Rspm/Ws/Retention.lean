/-
  What the calls do to the retained raw frames and to their capacity.

  A frame enters the ledger by its retention and leaves it by its
  acknowledgement (`RawMove`); each keeps the sum of the retained frames and the
  free permits, but for the permits that callers take and give back
  (`CellCall.permits`).  A reservation or a retention that fails leaves the cell
  dead.
-/
import Rspm.Ws.Closure
import Rspm.Ws.Delivery

namespace Rspm

/-! ## The retained frames -/

/-- What a call does to the retained frames. -/
inductive CellCall.RawMove (c : CellCall) : Prop
  | kept (h : c.post.rawFrames = c.pre.rawFrames)
      (hretain : ∀ evidence, c.input = .retainRawFrame evidence → c.out = .bool false)
      (hack : ∀ n, c.input = .acknowledgeRawFrameDurable n → c.out = .bool false)
  | retained {evidence : AuthenticatedUserRawFrame} (hi : c.input = .retainRawFrame evidence)
      (hr : c.out = .bool true) (hn : c.pre.rawFrames.contains evidence.frameSequence = false)
      (h : c.post.rawFrames = c.pre.rawFrames.insert evidence.frameSequence evidence)
  | replaced {evidence : AuthenticatedUserRawFrame} (hi : c.input = .retainRawFrame evidence)
      (hr : c.out = .bool false) (hn : c.pre.rawFrames.contains evidence.frameSequence = true)
      (h : c.post.rawFrames = c.pre.rawFrames.insert evidence.frameSequence evidence)
  | released {n : ℕ} (hi : c.input = .acknowledgeRawFrameDurable n) (hr : c.out = .bool true)
      (hn : c.pre.rawFrames.contains n = true) (h : c.post.rawFrames = c.pre.rawFrames.erase n)

/-- A call that returns a Boolean and grants nothing returns `false`. -/
theorem Reply.bool_of_not_grants {r : Reply} {b : Bool} (hr : r.grants = false)
    (hb : r = .bool b) : r = .bool false := by
  subst hb
  rw [show b = false from hr]

theorem CellCall.out_retainRawFrame {c : CellCall} {evidence : AuthenticatedUserRawFrame}
    (h : c.input = .retainRawFrame evidence) :
    c.out = .bool (c.pre.retainRawFrame evidence).result := by
  obtain ⟨pre, input⟩ := c
  subst h
  rfl

theorem CellCall.out_acknowledgeRawFrameDurable {c : CellCall} {n : ℕ}
    (h : c.input = .acknowledgeRawFrameDurable n) :
    c.out = .bool (c.pre.acknowledgeRawFrameDurable n).result := by
  obtain ⟨pre, input⟩ := c
  subst h
  rfl

theorem CellCall.rawMove (c : CellCall) : c.RawMove := by
  have hretain : ∀ e, c.input = .retainRawFrame e → c.out = .bool (c.pre.retainRawFrame e).result :=
    fun e => c.out_retainRawFrame
  have hack : ∀ n, c.input = .acknowledgeRawFrameDurable n →
      c.out = .bool (c.pre.acknowledgeRawFrameDurable n).result :=
    fun n => c.out_acknowledgeRawFrameDurable
  have ho := c.outcome
  have hframes : c.post.rawFrames = c.post.books.rawFrames := rfl
  generalize hb : c.post.books = books, hr : c.out = r, hop : c.input = op at ho
  rw [hb] at hframes
  rw [hr, hop] at hretain hack
  -- a call whose reply grants nothing returns `false` where it returns a Boolean
  have hidle : r.grants = false → c.post.rawFrames = c.pre.rawFrames → c.RawMove := by
    intro hg h
    refine .kept h (fun e he => ?_) fun n hn => ?_
    · exact hr.trans (Reply.bool_of_not_grants hg (hretain e (hop.symm.trans he)))
    · exact hr.trans (Reply.bool_of_not_grants hg (hack n (hop.symm.trans hn)))
  have hother : (∀ e, op ≠ .retainRawFrame e) → (∀ n, op ≠ .acknowledgeRawFrameDurable n) →
      c.post.rawFrames = c.pre.rawFrames → c.RawMove := by
    intro he hn h
    refine .kept h (fun e h => ?_) fun n h => ?_
    · exact absurd (hop.symm.trans h) (he e)
    · exact absurd (hop.symm.trans h) (hn n)
  cases ho with
  | refused hg hu => exact hidle hg hframes
  | answers ha =>
    cases ha with
    | nothing hg hm => exact hidle hg hframes
    | capacity | durable | prepared | authority => exact hother (by simp) (by simp) hframes
  | acts hopen ha =>
    cases ha with
    | @update op state r hu =>
      by_cases he : ∃ e, op = .retainRawFrame e
      · obtain ⟨e, rfl⟩ := he
        simp only [Op.transition, Option.ite_none_right_eq_some, Option.some.injEq,
          Prod.mk.injEq] at hu
        obtain ⟨-, -, rfl⟩ := hu
        exact hidle rfl hframes
      · refine hother (fun e h => he ⟨e, h⟩) ?_ hframes
        rintro n rfl
        cases hu
    | retained hz hn => exact .retained hop hr hn hframes
    | replaced hz hn => exact .replaced hop hr hn hframes
    | released hn => exact .released hop hr hn hframes
    | strangerDropped | dropped | dropOverflowed | acknowledgeOverflowed | acknowledged
    | installed => exact hother (by simp) (by simp) hframes

/-! ## The pending frames -/

theorem values_eq_toList {α : Type} (frames : Std.TreeMap ℕ α) :
    frames.values = frames.toList.map Prod.snd := by
  change frames.inner.inner.values =
    (Std.DTreeMap.Internal.Impl.Const.toList frames.inner.inner).map Prod.snd
  rw [Std.DTreeMap.Internal.Impl.Const.toList_eq_toListModel_map, List.map_map]
  unfold Std.DTreeMap.Internal.Impl.values
  rw [Std.DTreeMap.Internal.Impl.foldr_eq_foldr]
  induction frames.inner.inner.toListModel with
  | nil => rfl
  | cons p l ih => simp [ih]

namespace StateCell

variable {cell : StateCell}

/-- Poisoned or not, every retained frame is reported. -/
theorem pendingRawFrames_result (cell : StateCell) :
    cell.pendingRawFrames.result = cell.rawFrames.values := by
  unfold pendingRawFrames
  dsimp only
  split_ifs <;> rfl

theorem mem_pendingRawFrames {n : ℕ} {evidence : AuthenticatedUserRawFrame}
    (h : cell.rawFrames[n]? = some evidence) : evidence ∈ cell.pendingRawFrames.result := by
  rw [pendingRawFrames_result, values_eq_toList]
  exact List.mem_map.2 ⟨(n, evidence), Std.TreeMap.mem_toList_iff_getElem?_eq_some.2 h, rfl⟩

theorem length_pendingRawFrames (cell : StateCell) :
    cell.pendingRawFrames.result.length = cell.rawFrames.size := by
  rw [pendingRawFrames_result, values_eq_toList, List.length_map, Std.TreeMap.length_toList]

end StateCell

/-! ## The capacity -/

namespace StateCell

variable {cell : StateCell}

/-- A refused lock leaves the free permits alone. -/
theorem lock_capacity {β : Type} {refused : β} {body : StateCell → Locked β} {P : ℕ → β → Prop}
    (hr : P cell.rawFrameCapacity refused)
    (hb : P (body cell).cell.rawFrameCapacity (body cell).result) :
    P (cell.lock refused body).cell.rawFrameCapacity (cell.lock refused body).result := by
  unfold lock
  split_ifs
  · exact hr
  · exact hr
  · exact hb

theorem capacity_lock {β : Type} {refused : β} {body : StateCell → Locked β}
    (hb : (body cell).cell.rawFrameCapacity = cell.rawFrameCapacity) :
    (cell.lock refused body).cell.rawFrameCapacity = cell.rawFrameCapacity :=
  lock_capacity (P := fun capacity _ => capacity = cell.rawFrameCapacity) rfl hb

theorem capacity_update {β : Type}
    (f : AuthenticatedUserWsState → AuthenticatedUserWsState × β) :
    (cell.update f).cell.rawFrameCapacity = cell.rawFrameCapacity := by
  refine capacity_lock ?_
  dsimp only
  split_ifs <;> rfl

theorem capacity_modify (f : AuthenticatedUserWsState → AuthenticatedUserWsState) :
    (cell.modify f).cell.rawFrameCapacity = cell.rawFrameCapacity := capacity_update _

theorem capacity_snapshot : cell.snapshot.cell.rawFrameCapacity = cell.rawFrameCapacity := by
  unfold snapshot
  split_ifs <;> rfl

end StateCell

/-- The calls that move a permit. -/
def Op.movesPermit : Op → Bool
  | .reserveRawFrameCapacity | .dropRawFrameCapacity | .retainRawFrame _
  | .acknowledgeRawFrameDurable _ => true
  | _ => false

theorem CellCall.capacity_post (c : CellCall) :
    c.post.rawFrameCapacity = (c.pre.perform c.input).cell.rawFrameCapacity := by
  simp only [Machine.Call.post, cellMachine, Locked.settle]
  split <;> rfl

open StateCell in
/-- The other calls leave the free permits alone. -/
theorem CellCall.capacity_kept {c : CellCall} (h : c.input.movesPermit = false) :
    c.post.rawFrameCapacity = c.pre.rawFrameCapacity := by
  rw [c.capacity_post]
  obtain ⟨cell, op⟩ := c
  dsimp only at h ⊢
  cases op with
  | reserveRawFrameCapacity | dropRawFrameCapacity | retainRawFrame
  | acknowledgeRawFrameDurable => cases h
  | snapshot => exact capacity_snapshot
  | markAuthorityPoisoned => rfl
  | tryMarkConnected | markAuthenticatedRestProven | reserveRawFrameSequence =>
    exact capacity_update _
  | reserveTransportSequences eventCount =>
    simp only [StateCell.perform, StateCell.reserveTransportSequences]
    split_ifs
    · rfl
    · exact capacity_update _
  | pendingRawFrames =>
    simp only [StateCell.perform, StateCell.pendingRawFrames]
    split_ifs <;> rfl
  | markDropped range =>
    refine capacity_lock ?_
    dsimp only
    split_ifs
    · rfl
    · split <;> rfl
    · rfl
  | acknowledgeDurable sequence =>
    refine capacity_lock ?_
    dsimp only
    split_ifs <;> rfl
  | prepareCatchUpFinalization token credentialAuthority transportWatermark floor =>
    refine capacity_lock ?_
    split_ifs <;> rfl
  | commitCatchUpFinalization finalization =>
    refine capacity_lock ?_
    split_ifs <;> rfl
  | authorityMatches token credentialAuthority transportWatermark => exact capacity_snapshot
  | poisonMutex mutex => cases mutex <;> rfl
  | _ => exact capacity_modify _

open StateCell in
/-- A retention takes the permit of its caller, and lets one go where it fails. -/
theorem CellCall.capacity_retain {c : CellCall} {evidence : AuthenticatedUserRawFrame} {b : Bool}
    (h : c.input = .retainRawFrame evidence) (hb : c.out = .bool b) :
    c.post.rawFrameCapacity = c.pre.rawFrameCapacity + (!b).toNat := by
  rw [c.out_retainRawFrame h] at hb
  rw [c.capacity_post, h, ← Reply.bool.inj hb]
  generalize c.pre = cell
  simp only [StateCell.perform, Locked.map, StateCell.retainRawFrame]
  generalize ho : (if evidence.frameSequence = 0 then _ else _ : Locked Bool) = outcome
  have hkept : outcome.cell.rawFrameCapacity = cell.rawFrameCapacity := by
    rw [← ho]
    split_ifs
    · exact capacity_modify _
    · refine capacity_lock ?_
      split_ifs <;> rfl
  cases hr : outcome.result with
  | true => simp [hr, hkept]
  | false => simp [hkept, releaseCapacity]

open StateCell in
/-- The permit of an acknowledged frame goes back. -/
theorem CellCall.capacity_acknowledge {c : CellCall} {n : ℕ} {b : Bool}
    (h : c.input = .acknowledgeRawFrameDurable n) (hb : c.out = .bool b) :
    c.post.rawFrameCapacity = c.pre.rawFrameCapacity + b.toNat := by
  rw [c.out_acknowledgeRawFrameDurable h] at hb
  rw [c.capacity_post, h, ← Reply.bool.inj hb]
  generalize c.pre = cell
  refine lock_capacity (P := fun capacity (b : Bool) =>
    capacity = cell.rawFrameCapacity + b.toNat) rfl ?_
  split_ifs <;> rfl

/-! ## The permits -/

/-- The permits that the caller takes. -/
def Op.takes : Op → Reply → ℕ
  | .reserveRawFrameCapacity, .bool true => 1
  | _, _ => 0

/-- The permits that the caller gives back. -/
def Op.gives : Op → ℕ
  | .dropRawFrameCapacity | .retainRawFrame _ => 1
  | _ => 0

theorem size_pos_of_contains {α : Type} {rawFrames : Std.TreeMap ℕ α} {n : ℕ}
    (h : rawFrames.contains n = true) : 0 < rawFrames.size := by
  have hne := Std.TreeMap.isEmpty_eq_false_of_contains h
  rw [Std.TreeMap.isEmpty_eq_size_eq_zero] at hne
  exact Nat.pos_of_ne_zero fun h0 => by simp [h0] at hne

/-- The retained frames and the free permits, with what the caller takes and gives. -/
theorem CellCall.permits (c : CellCall) :
    c.post.rawFrames.size + c.post.rawFrameCapacity + c.input.takes c.out =
      c.pre.rawFrames.size + c.pre.rawFrameCapacity + c.input.gives := by
  by_cases hmoves : c.input.movesPermit = false
  · rw [c.capacity_kept hmoves]
    have hzero : c.input.takes c.out = 0 ∧ c.input.gives = 0 := by
      generalize c.input = op at hmoves
      cases op <;> simp_all [Op.movesPermit, Op.takes, Op.gives]
    cases c.rawMove with
    | kept h => rw [h, hzero.1, hzero.2]
    | retained hi | replaced hi | released hi =>
      rw [hi] at hmoves
      cases hmoves
  have hmove := c.rawMove
  cases hop : c.input with
  | reserveRawFrameCapacity =>
    obtain ⟨cell, op⟩ := c
    subst hop
    by_cases hz : cell.rawFrameCapacity = 0
    · simp [Machine.Call.post, Machine.Call.out, cellMachine, StateCell.perform,
        StateCell.reserveRawFrameCapacity, Locked.map, Locked.settle, hz, Op.takes, Op.gives]
    · simp [Machine.Call.post, Machine.Call.out, cellMachine, StateCell.perform,
        StateCell.reserveRawFrameCapacity, Locked.map, Locked.settle, hz, Op.takes, Op.gives]
      omega
  | dropRawFrameCapacity =>
    obtain ⟨cell, op⟩ := c
    subst hop
    rfl
  | retainRawFrame evidence =>
    cases hmove with
    | kept h hout hack =>
      rw [h, c.capacity_retain hop (hout evidence hop)]
      simp [Op.takes, Op.gives, Nat.add_assoc]
    | @retained evidence' hi hr hn h =>
      rw [h, c.capacity_retain hop hr, Std.TreeMap.size_insert, hn]
      simp only [Op.takes, Op.gives]
      grind
    | @replaced evidence' hi hr hn h =>
      rw [h, c.capacity_retain hop hr, Std.TreeMap.size_insert, hn]
      simp only [Op.takes, Op.gives]
      grind
    | released hi => cases hop.symm.trans hi
  | acknowledgeRawFrameDurable n =>
    cases hmove with
    | kept h hout hack =>
      rw [h, c.capacity_acknowledge hop (hack n hop)]
      rfl
    | retained hi | replaced hi => cases hop.symm.trans hi
    | @released n' hi hr hn h =>
      rw [h, c.capacity_acknowledge hop hr, Std.TreeMap.size_erase, hn]
      simp only [Op.takes, Op.gives, if_true, Bool.toNat_true]
      have hsize := size_pos_of_contains hn
      omega
  | _ => exact absurd (by rw [hop]; rfl) hmoves

/-! ## Failed reservations -/

theorem StateCell.failClosedAfterPoison_dead (cell : StateCell) :
    cell.failClosedAfterPoison.state.Dead := .inl cell.failClosedAfterPoison_state_authorityPoisoned

theorem AuthenticatedUserWsState.failCounter_dead (state : AuthenticatedUserWsState)
    (exhaustion : AuthenticatedUserCounterExhaustion) : (state.failCounter exhaustion).Dead :=
  (state.failCounter_closed exhaustion).permanent

/-- A call that has something to do is refused, and leaves a dead cell, or it acts. -/
theorem CellCall.dead_or_acts {c : CellCall} (hrest : c.input.mayRest = false)
    (hg : c.out.grants = false) :
    c.post.state.Dead ∨ c.pre.Acts c.input c.post.books c.out := by
  have ho := c.outcome
  rw [show c.post.state = c.post.books.state from rfl]
  generalize c.post.books = books, c.out = r, c.input = op at ho hg hrest ⊢
  cases ho with
  | refused hr hopen => exact .inl c.pre.failClosedAfterPoison_dead
  | answers ha =>
    cases ha with
    | nothing hr hm => rw [hm] at hrest; cases hrest
    | capacity | durable | prepared | authority => cases hrest
  | acts hopen ha => exact .inr ha

/-- A call that is not granted, and has something to do, leaves a dead cell if all it can do is
    to leave one. -/
theorem CellCall.dead_of_acts {c : CellCall} {op : Op} {r : Reply} (hi : c.input = op)
    (hr : c.out = r) (hrest : op.mayRest = false) (hg : r.grants = false)
    (hacts : ∀ {books : Books}, c.pre.Acts op books r → books.state.Dead) :
    c.post.state.Dead := by
  subst hi hr
  exact (c.dead_or_acts hrest hg).elim id hacts

theorem CellCall.dead_of_no_range {c : CellCall} {eventCount : ℕ} (hn : eventCount ≠ 0)
    (hi : c.input = .reserveTransportSequences eventCount) (hr : c.out = .range none) :
    c.post.state.Dead := by
  refine CellCall.dead_of_acts hi hr (by simp [Op.mayRest, hn]) rfl fun ha => ?_
  cases ha with
  | update hu =>
    simp only [Op.transition, if_neg hn, Option.some.injEq, Prod.mk.injEq, Reply.range.injEq] at hu
    obtain ⟨rfl, hnone⟩ := hu
    rcases c.pre.state.reserveTransportSequences_cases eventCount with ⟨-, he⟩ | ⟨-, he⟩
    · rw [he] at hnone; cases hnone
    · rw [he]; exact AuthenticatedUserWsState.failCounter_dead _ _

theorem CellCall.dead_of_no_sequence {c : CellCall} (hi : c.input = .reserveRawFrameSequence)
    (hr : c.out = .sequence none) : c.post.state.Dead := by
  refine CellCall.dead_of_acts hi hr rfl rfl fun ha => ?_
  cases ha with
  | update hu =>
    simp only [Op.transition, Option.some.injEq, Prod.mk.injEq, Reply.sequence.injEq] at hu
    obtain ⟨rfl, hnone⟩ := hu
    unfold AuthenticatedUserWsState.reserveRawFrameSequence at hnone ⊢
    cases hc : checkedAdd c.pre.state.rawFrameSequence 1 with
    | none => exact AuthenticatedUserWsState.failCounter_dead _ _
    | some next => simp [hc] at hnone

theorem CellCall.dead_of_not_retained {c : CellCall} {evidence : AuthenticatedUserRawFrame}
    (hz : evidence.frameSequence ≠ 0)
    (hn : c.pre.rawFrames.contains evidence.frameSequence = false)
    (hi : c.input = .retainRawFrame evidence) (hr : c.out = .bool false) :
    c.post.state.Dead := by
  refine CellCall.dead_of_acts hi hr rfl rfl fun ha => ?_
  cases ha with
  | update hu => simp [Op.transition, hz] at hu
  | replaced hz hc => rw [hc] at hn; cases hn

/-- A dead cell connects no socket. -/
theorem CellCall.not_connected_of_dead {c : CellCall} (hc : Coherent c.pre)
    (h : c.pre.state.Dead) (generation : ℕ) : c.out ≠ .connection (.ok generation) := by
  intro hout
  have hdead := (CellCall.kept hc).dead h
  have hoff := hc.step.disconnected hdead
  rw [c.connected_out hout] at hoff
  cases hoff

end Rspm
