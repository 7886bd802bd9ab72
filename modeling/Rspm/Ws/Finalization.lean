/-
  Prepare and commit as a compare-and-set without ABA.

  `Departed` says how a cell differs for good from what a finalization
  expects: a counter or a permanent flag moved on, the socket is no longer
  responsive, an acknowledgement is new, or a catch-up was installed.  No call
  leads back (`Departed.call`), so a commit that succeeds proves that every
  call since the preparation left the expected state alone.
-/
import Rspm.Ws.Durability
import Rspm.Ws.Provenance

namespace Rspm

/-! ## States that were left for good -/

/-- The state is not the expected one, and will never be again. -/
def Departed (expected : AuthenticatedUserWsState) (acknowledged : Finset ℕ)
    (cell : StateCell) : Prop :=
  cell.state.counters ≠ expected.counters ∨ cell.state.connection ≠ .connected ∨
    cell.state.subscription ≠ .serverResponsive ∨ acknowledged ⊂ cell.durableOutOfOrder ∨
    (¬ cell.state.GapOpen ∧ cell.state.catchUpGeneration = some cell.state.generation ∧
      (expected.GapOpen ∨ expected.catchUpGeneration ≠ some expected.generation))

/-- What a finalization expects has not departed from itself. -/
theorem AuthenticatedUserCatchUpFinalization.not_departed
    {f : AuthenticatedUserCatchUpFinalization} {cell : StateCell} (h : cell.expects f) :
    ¬ Departed f.expectedState f.expectedDurableOutOfOrder cell := by
  have hr := f.evidence.ready.1
  rw [f.evidence.next_eq] at hr
  obtain ⟨hs, ho, -⟩ := h
  unfold Departed
  rw [hs, ho]
  rintro (h | h | h | h | ⟨hg, hc, h⟩)
  · exact h rfl
  · exact h hr.1
  · exact h hr.2.2.1
  · exact h.ne rfl
  · rcases h with h | h
    · exact hg h
    · exact h hc

/-- Counters that return to where they were never left. -/
theorem counters_eq_of_between {a b c : AuthenticatedUserWsState} (ha : ¬ a.Shut)
    (hab : Grows a b) (hbc : Grows b c) (hk : Kept b c) (h : c.counters = a.counters) :
    b.counters = a.counters := by
  simp only [AuthenticatedUserWsState.counters, Prod.mk.injEq] at h ⊢
  obtain ⟨-, h2, h3, h4, h5, h6, h7, h8, h9, h10, h11⟩ := h
  refine ⟨hab.credentialIdentity, (hbc.generation.trans h2.le).antisymm hab.generation,
    (hbc.livenessVersion.trans h3.le).antisymm hab.livenessVersion,
    (hbc.gapVersion.trans h4.le).antisymm hab.gapVersion,
    (hbc.transportSequence.trans h5.le).antisymm hab.transportSequence,
    (hbc.enqueuedSequence.trans h6.le).antisymm hab.enqueuedSequence,
    (hbc.durableSequence.trans h7.le).antisymm hab.durableSequence,
    (hbc.rawFrameSequence.trans h8.le).antisymm hab.rawFrameSequence, ?_, ?_, ?_⟩
  · have hn : a.consumerClosed = false := by simpa using fun h => ha (.inl h)
    rw [hn] at h9 ⊢
    by_contra hb
    rw [hk.consumerClosed (by simpa using hb)] at h9
    cases h9
  · have hn : a.counterExhaustion = none := by
      by_contra hx
      exact ha (.inr (.inr (Option.isSome_iff_ne_none.2 hx)))
    rw [hn] at h10 ⊢
    by_contra hb
    obtain ⟨e, he⟩ := Option.ne_none_iff_exists'.1 hb
    rw [hk.counterExhaustion e he] at h10
    cases h10
  · have hn : a.authorityPoisoned = false := by simpa using fun h => ha (.inr (.inl h))
    rw [hn] at h11 ⊢
    by_contra hb
    rw [hk.authorityPoisoned (by simpa using hb)] at h11
    cases h11

/-- A move that touches no counter and ends on a responsive socket changes the frame count at
    most, or installs a catch-up. -/
theorem Move.still {s s' : AuthenticatedUserWsState} {e : Event} (h : Move s e s')
    (hn : s'.counters = s.counters) (hc : s'.connection = .connected)
    (hr : s'.subscription = .serverResponsive) :
    (e = .other ∧ ∃ n, s' = { s with pendingRawFrameCount := n }) ∨
      ∃ f, e = .caughtUp f ∧ s = f.expectedState ∧ s' = f.nextState := by
  simp only [AuthenticatedUserWsState.counters, Prod.mk.injEq] at hn
  obtain ⟨-, hgen, hlive, hgap, htr, henq, hdur, hraw, -⟩ := hn
  cases h with
  | ledger transport enqueued durable raw pending =>
    dsimp only at htr henq hdur hraw
    subst htr henq hdur hraw
    exact .inl ⟨rfl, pending, rfl⟩
  | connecting | disconnected => cases hc
  | connected => exact absurd hgen (Nat.succ_ne_self _)
  | responded => exact absurd hlive (Nat.succ_ne_self _)
  | subscribed | proven => cases hr
  | gap | lost | overflowed => exact absurd hgap (Nat.succ_ne_self _)
  | @caughtUp f he => exact .inr ⟨f, rfl, he, rfl⟩
  | closed he hcl => rw [hcl.connection] at hc; cases hc

/-- With the durable frontier at the transport sequence a catch-up leaves the ledgers alone. -/
theorem AuthenticatedUserCatchUpFinalization.ledgers_of_drained
    {f : AuthenticatedUserCatchUpFinalization}
    (h : f.expectedState.transportSequence ≤ f.expectedState.durableSequence) :
    f.nextDurableOutOfOrder = f.expectedDurableOutOfOrder ∧
      f.nextDroppedRanges = f.expectedDroppedRanges := by
  have hf := f.evidence.frontier
  rw [catchUpFrontier_of_le h] at hf
  simp only [Option.some.injEq, Prod.mk.injEq] at hf
  exact ⟨hf.2.1.symm, hf.2.2.symm⟩

/-- Acknowledgements out of order are only given up when the durable frontier moves on. -/
theorem CellCall.outOfOrder_grows {c : CellCall} (h : Sound c.pre.books) :
    c.pre.durableOutOfOrder ⊆ c.post.durableOutOfOrder ∨
      c.pre.state.durableSequence < c.post.state.durableSequence := by
  have ho := c.outcome
  rw [show c.post.durableOutOfOrder = c.post.books.durableOutOfOrder from rfl,
    show c.post.state = c.post.books.state from rfl]
  generalize c.post.books = books, c.out = r at ho ⊢
  cases ho with
  | refused | answers => exact .inl subset_rfl
  | acts hopen ha =>
    generalize c.input = op at ha
    cases ha with
    | acknowledged hd ht hf ha =>
      obtain ⟨rfl, rfl, hdn, -⟩ := h.advanced ha
      rcases hdn.lt_or_eq with hlt | heq
      · exact .inr hlt
      · left
        rw [← heq, Finset.Ioc_self, Finset.sdiff_empty]
        exact Finset.subset_insert _ _
    | @installed f he =>
      obtain ⟨hst, ho, -⟩ := he
      have hnext : f.nextState.durableSequence = c.pre.state.transportSequence := by
        rw [f.evidence.next_eq, ← hst]; rfl
      have hle : c.pre.state.durableSequence ≤ c.pre.state.transportSequence := h.durable_le
      rcases hle.lt_or_eq with hlt | heq
      · exact .inr (hlt.trans_eq hnext.symm)
      · have hkeep := (f.ledgers_of_drained (hst ▸ heq.ge)).1
        exact .inl (ho.trans hkeep.symm).subset
    | _ => exact .inl subset_rfl

/-- No call leads back. -/
theorem Departed.call {expected : AuthenticatedUserWsState} {acknowledged : Finset ℕ}
    {c : CellCall} (hE : ¬ expected.Shut) (hc : Coherent c.pre) (hs : Sound c.pre.books)
    (hg : Grows expected c.pre.state) (h : Departed expected acknowledged c.pre) :
    Departed expected acknowledged c.post := by
  by_contra hn
  simp only [Departed, not_or, not_not, ne_eq] at hn
  obtain ⟨hcount, hconn, hresp, hack, hcaught⟩ := hn
  have hpre := counters_eq_of_between hE hg c.grows (CellCall.kept hc) hcount
  have hmove := c.move.still (hcount.trans hpre.symm) hconn hresp
  have hdur : c.pre.state.durableSequence = c.post.state.durableSequence := by
    have := hcount.trans hpre.symm
    simp only [AuthenticatedUserWsState.counters, Prod.mk.injEq] at this
    exact this.2.2.2.2.2.2.1.symm
  have hsub := (CellCall.outOfOrder_grows hs).resolve_right (hdur ▸ lt_irrefl _)
  rcases h with h | h | h | h | h
  · exact h hpre
  · rcases hmove with ⟨-, n, hm⟩ | ⟨f, -, he, hf⟩
    · rw [hm] at hconn; exact h hconn
    · rw [hf, f.evidence.next_eq, ← he] at hconn; exact h hconn
  · rcases hmove with ⟨-, n, hm⟩ | ⟨f, -, he, hf⟩
    · rw [hm] at hresp; exact h hresp
    · rw [hf, f.evidence.next_eq, ← he] at hresp; exact h hresp
  · exact hack (h.trans_subset hsub)
  · rcases hmove with ⟨-, n, hm⟩ | ⟨f, -, he, hf⟩
    · rw [hm] at hcaught; exact hcaught h
    · refine hcaught ⟨?_, ?_, h.2.2⟩
      · rw [hf]; exact f.evidence.ready.1.not_gapOpen
      · rw [hf]; exact f.evidence.ready.1.2.2.2.2.1

/-! ## Calls that keep what is expected -/

/-- The books are as the finalization expects them, but for the retained frames. -/
structure Still (f : AuthenticatedUserCatchUpFinalization) (books : Books) : Prop where
  state : ∃ n, books.state = { f.expectedState with pendingRawFrameCount := n }
  outOfOrder : books.durableOutOfOrder = f.expectedDurableOutOfOrder
  dropped : books.droppedRanges = f.expectedDroppedRanges

/-- The retained frames may change, with their count. -/
theorem Still.frames {f : AuthenticatedUserCatchUpFinalization} {books : Books} (h : Still f books)
    (rawFrames : Std.TreeMap ℕ AuthenticatedUserRawFrame) (n : ℕ) :
    Still f { books with rawFrames, state := { books.state with pendingRawFrameCount := n } } := by
  obtain ⟨m, hm⟩ := h.state
  exact ⟨⟨n, by rw [hm]⟩, h.outOfOrder, h.dropped⟩

/-- The call retains a raw frame. -/
def Op.retains : Op → Reply → Bool
  | .retainRawFrame _, .bool true => true
  | _, _ => false

/-- The call releases a raw frame. -/
def Op.releases : Op → Reply → Bool
  | .acknowledgeRawFrameDurable _, .bool true => true
  | _, _ => false

/-- The completed call retained a raw frame. -/
def CellCall.retains (c : CellCall) : Bool := c.input.retains c.out

/-- The completed call released a raw frame. -/
def CellCall.releases (c : CellCall) : Bool := c.input.releases c.out

/-- What a call does that does not depart: it retains a frame, or releases one, or changes
    nothing at all. -/
inductive Keeps (before : Books) (op : Op) (r : Reply) (after : Books) : Prop
  | retained (h : op.retains r = true) (hr : op.releases r = false)
      (hn : after.rawFrames.size = before.rawFrames.size + 1)
  | released (h : op.releases r = true) (hr : op.retains r = false)
      (hn : before.rawFrames.size = after.rawFrames.size + 1)
  | unchanged (hr : op.retains r = false) (hr' : op.releases r = false) (h : after = before)

theorem Keeps.frames {c : CellCall} (h : Keeps c.pre.books c.input c.out c.post.books) :
    c.post.rawFrames.size + (if c.releases then 1 else 0) =
      c.pre.rawFrames.size + (if c.retains then 1 else 0) := by
  unfold CellCall.releases CellCall.retains
  cases h with
  | retained hret hrel hn => rw [hret, hrel]; exact hn
  | released hrel hret hn => rw [hret, hrel]; exact hn.symm
  | unchanged hret hrel heq => rw [hret, hrel]; exact congrArg (fun b => b.rawFrames.size) heq

/-- A catch-up of a drained generation without gaps changes nothing. -/
theorem AuthenticatedUserWsState.caughtUp_eq_self {s : AuthenticatedUserWsState}
    (hg : ¬ s.GapOpen) (hc : s.catchUpGeneration = some s.generation)
    (hd : s.transportSequence = s.durableSequence) :
    s.caughtUp s.generation s.transportSequence = s := by
  simp only [AuthenticatedUserWsState.GapOpen, not_or, Bool.not_eq_true] at hg
  obtain ⟨hschema, hdelivery, hevidence⟩ := hg
  rw [AuthenticatedUserWsState.caughtUp, hd, ← hc, ← hschema]
  cases s
  simp_all

/-- A catch-up that ends in the expected state changed nothing. -/
theorem Still.installed {f g : AuthenticatedUserCatchUpFinalization} {s : AuthenticatedUserWsState}
    {n : ℕ} (hs : s = { f.expectedState with pendingRawFrameCount := n })
    (hg : s = g.expectedState) (hn : g.nextState.counters = s.counters)
    (hcaught : ¬ (¬ g.nextState.GapOpen ∧
      g.nextState.catchUpGeneration = some g.nextState.generation ∧
      (f.expectedState.GapOpen ∨
        ¬ f.expectedState.catchUpGeneration = some f.expectedState.generation))) :
    g.nextState = s ∧ g.nextDurableOutOfOrder = g.expectedDurableOutOfOrder ∧
      g.nextDroppedRanges = g.expectedDroppedRanges := by
  have hready := g.evidence.ready.1
  have hopen : ¬ f.expectedState.GapOpen ∧
      f.expectedState.catchUpGeneration = some f.expectedState.generation := by
    by_contra hno
    refine hcaught ⟨hready.not_gapOpen, hready.2.2.2.2.1, ?_⟩
    by_contra hc
    rw [not_or, not_not] at hc
    exact hno hc
  rw [g.evidence.next_eq, ← hg] at hn
  simp only [AuthenticatedUserWsState.counters, Prod.mk.injEq] at hn
  have hdur : s.transportSequence = s.durableSequence := hn.2.2.2.2.2.2.1
  refine ⟨?_, g.ledgers_of_drained (hg ▸ hdur.le)⟩
  rw [g.evidence.next_eq, ← hg]
  have hflags : ¬ s.GapOpen ∧ s.catchUpGeneration = some s.generation := by rw [hs]; exact hopen
  exact AuthenticatedUserWsState.caughtUp_eq_self hflags.1 hflags.2 hdur

/-- An advance of the gap version is seen, in the counter or in the connection. -/
theorem AuthenticatedUserWsState.advanceGapVersion_seen (s : AuthenticatedUserWsState)
    (h : s.advanceGapVersion.1.gapVersion = s.gapVersion) :
    s.advanceGapVersion.1.connection ≠ .connected := by
  rcases s.advanceGapVersion_cases with ⟨-, ha⟩ | ⟨-, ha⟩ <;> rw [ha] at h ⊢
  · exact absurd h (Nat.succ_ne_self _)
  · rw [(s.failCounter_closed _).connection]; decide

/-- An update is neither a retained nor a released frame, and never a commit. -/
theorem Op.transition_not_retains {op : Op} {s s' : AuthenticatedUserWsState} {r : Reply}
    (h : op.transition s = some (s', r)) :
    op.retains r = false ∧ op.releases r = false ∧
      ∀ cell f, op.event cell r ≠ .caughtUp f := by
  have hretains : op.retains r = false := by
    unfold Op.retains
    split
    · simp [Op.transition] at h
    · rfl
  have hreleases : op.releases r = false := by
    unfold Op.releases
    split
    · simp [Op.transition] at h
    · rfl
  refine ⟨hretains, hreleases, fun cell f he => ?_⟩
  unfold Op.event at he
  split at he <;> first | cases he | skip
  · split_ifs at he
  · split_ifs at he
  · simp [Op.transition] at h
  · split_ifs at he
  · split_ifs at he

/-- An acting call that does not depart retains a frame, or releases one, or changes nothing. -/
theorem StateCell.Acts.keeps {f : AuthenticatedUserCatchUpFinalization} {cell : StateCell}
    {op : Op} {books : Books} {r : Reply} (ha : cell.Acts op books r) (hs : Sound cell.books)
    (h : Still f cell.books) (hmove : Move cell.state (op.event cell r) books.state)
    (hn : ¬ Departed f.expectedState f.expectedDurableOutOfOrder { cell with
      state := books.state, durableOutOfOrder := books.durableOutOfOrder }) :
    Still f books ∧ Keeps cell.books op r books := by
  simp only [Departed, not_or, not_not, ne_eq] at hn
  obtain ⟨hcount, hconn, hresp, hack, hcaught⟩ := hn
  obtain ⟨m, hm⟩ := h.state
  have hpre : cell.state.counters = f.expectedState.counters := by
    rw [show cell.state = _ from hm]; rfl
  have hsame := hcount.trans hpre.symm
  have hgap : books.state.gapVersion = cell.state.gapVersion :=
    congrArg (fun c => c.2.2.2.1) hsame
  have hdur : books.state.durableSequence = cell.state.durableSequence :=
    congrArg (fun c => c.2.2.2.2.2.2.1) hsame
  cases ha with
  | @update op state r hu =>
    obtain ⟨hretains, hreleases, hevent⟩ := Op.transition_not_retains hu
    rcases hmove.still hsame hconn hresp with ⟨-, n, hst⟩ | ⟨g, he, -⟩
    · have hpending : n = cell.state.pendingRawFrameCount := by
        have := (LedgerStep.transition hu).pending
        rwa [show state = _ from hst] at this
      have hstate : state = cell.state := hst.trans (by rw [hpending])
      rw [hstate]
      exact ⟨h, .unchanged hretains hreleases rfl⟩
    · exact absurd he (hevent cell g)
  | @retained evidence hz hc =>
    refine ⟨h.frames _ _, .retained rfl rfl ?_⟩
    rw [Std.TreeMap.size_insert, if_neg (by rw [hc]; decide)]
    rfl
  | @released frameSequence hc =>
    refine ⟨h.frames _ _, .released rfl rfl ?_⟩
    have hpos : 0 < cell.rawFrames.size := by
      have hne := Std.TreeMap.isEmpty_eq_false_of_contains hc
      rw [Std.TreeMap.isEmpty_eq_size_eq_zero, beq_eq_false_iff_ne] at hne
      exact Nat.pos_of_ne_zero hne
    rw [Std.TreeMap.size_erase, if_pos hc]
    exact (Nat.sub_add_cancel hpos).symm
  | replaced | strangerDropped | dropped | dropOverflowed | acknowledgeOverflowed =>
    exact absurd hconn (AuthenticatedUserWsState.advanceGapVersion_seen _ hgap)
  | @acknowledged sequence n _ _ hd ht hf ha =>
    obtain ⟨rfl, rfl, -⟩ := hs.advanced ha
    obtain rfl : n = cell.state.durableSequence := hdur
    rw [Finset.Ioc_self, Finset.sdiff_empty] at hack ⊢
    -- the frontier stayed: the acknowledgement is in the set, and it is not new
    have hmem : sequence ∈ cell.durableOutOfOrder := by
      by_contra hnew
      refine hack ?_
      rw [← show cell.durableOutOfOrder = _ from h.outOfOrder]
      exact Finset.ssubset_insert hnew
    rw [Finset.insert_eq_of_mem hmem]
    exact ⟨h, .unchanged rfl rfl rfl⟩
  | @installed g he =>
    obtain ⟨hst, ho, hdr⟩ := he
    obtain ⟨h1, h2, h3⟩ := Still.installed hm hst hsame hcaught
    rw [h1, h2, h3, ← ho, ← hdr]
    exact ⟨h, .unchanged rfl rfl rfl⟩

theorem Still.call {f : AuthenticatedUserCatchUpFinalization} {c : CellCall}
    (h : Still f c.pre.books) (hs : Sound c.pre.books)
    (hn : ¬ Departed f.expectedState f.expectedDurableOutOfOrder c.post) :
    Still f c.post.books ∧ Keeps c.pre.books c.input c.out c.post.books := by
  have hmove := c.move
  have ho := c.outcome
  unfold CellCall.event at hmove
  replace hn : ¬ Departed f.expectedState f.expectedDurableOutOfOrder { c.pre with
      state := c.post.books.state, durableOutOfOrder := c.post.books.durableOutOfOrder } := hn
  rw [show c.post.state = c.post.books.state from rfl] at hmove
  generalize c.post.books = books, c.out = r, c.input = op at *
  cases ho with
  | refused hr hu => exact absurd (.inr (.inl (by
      rw [show c.pre.failClosedAfterPoison.books.state.connection = .disconnected from
        c.pre.failClosedAfterPoison_closed.connection]; decide))) hn
  | answers ha =>
    refine ⟨h, .unchanged ?_ ?_ rfl⟩
    · cases ha with
      | nothing hr hm => unfold Op.retains; split <;> trivial
      | _ => rfl
    · cases ha with
      | nothing hr hm => unfold Op.releases; split <;> trivial
      | _ => rfl
  | acts hopen ha => exact ha.keeps hs h hmove hn

/-! ## Calls that would be seen -/

/-- Gap marks, connection changes and reservations. -/
def Op.alwaysMoves : Op → Bool
  | .markConnecting | .tryMarkConnected | .markDisconnected | .markSchemaGap | .markDeliveryGap
  | .markConsumerClosed | .markEvidenceGap | .markAuthorityPoisoned
  | .reserveRawFrameSequence => true
  | .reserveTransportSequences eventCount => eventCount != 0
  | _ => false

/-- The calls that a successful commit rules out. -/
inductive CellCall.Disturbs (c : CellCall) : Prop
  | moves (h : c.input.alwaysMoves = true)
  /-- a written subscription, an accepted PONG, a recorded REST proof, a drop, or lost evidence -/
  | recorded (h : c.event ≠ .other) (hf : ∀ f, c.event ≠ .caughtUp f)
  | acknowledged {sequence : ℕ} (h : c.input = .acknowledgeDurable sequence)
      (hr : c.out = .bool true) (hd : c.pre.state.durableSequence < sequence)
      (ho : sequence ∉ c.pre.durableOutOfOrder)

theorem AuthenticatedUserWsState.advanceGapVersion_ne {s s' : AuthenticatedUserWsState}
    (hg : s'.gapVersion = s.gapVersion) (hc : s.connection = .connected) :
    s'.advanceGapVersion.1 ≠ s := by
  intro h
  have hseen := s'.advanceGapVersion_seen (by rw [h, hg])
  rw [h] at hseen
  exact hseen hc

theorem AuthenticatedUserWsState.failCounter_ne {s s' : AuthenticatedUserWsState}
    (e : AuthenticatedUserCounterExhaustion) (hc : s.connection = .connected) :
    s'.failCounter e ≠ s := by
  intro h
  have hd := (s'.failCounter_closed e).connection
  rw [h, hc] at hd
  cases hd

/-- On a connected state without exhausted counters these updates are seen. -/
theorem Op.transition_ne {op : Op} {s s' : AuthenticatedUserWsState} {r : Reply}
    (h : op.transition s = some (s', r)) (hc : s.connection = .connected)
    (hx : s.counterExhaustion = none) (ho : op.alwaysMoves = true) : s' ≠ s := by
  cases op <;> simp only [Op.alwaysMoves, Bool.false_eq_true] at ho <;>
    simp only [Op.transition, reduceCtorEq, Option.some.injEq, Prod.mk.injEq,
      Option.ite_none_left_eq_some] at h
  case reserveTransportSequences =>
    obtain ⟨hn, rfl, -⟩ := h
    unfold AuthenticatedUserWsState.reserveTransportSequences
    split
    · exact AuthenticatedUserWsState.failCounter_ne _ hc
    · next next hnext =>
      split
      · exact AuthenticatedUserWsState.failCounter_ne _ hc
      · next last hlast =>
        intro heq
        have h1 := (checkedAdd_eq_some.1 hnext).2
        have h2 := (checkedAdd_eq_some.1 hlast).2
        have h3 : last = s.transportSequence := congrArg (·.transportSequence) heq
        omega
  all_goals obtain ⟨rfl, -⟩ := h
  case markConnecting =>
    unfold AuthenticatedUserWsState.markConnecting
    rw [hx, if_neg (by decide)]
    intro heq
    have := congrArg (·.connection) heq
    rw [hc] at this
    cases this
  case tryMarkConnected =>
    unfold AuthenticatedUserWsState.tryMarkConnected
    rw [hx]
    dsimp only
    split
    · exact AuthenticatedUserWsState.failCounter_ne _ hc
    · split_ifs <;> exact AuthenticatedUserWsState.advanceGapVersion_ne rfl hc
  case reserveRawFrameSequence =>
    unfold AuthenticatedUserWsState.reserveRawFrameSequence
    split
    · exact AuthenticatedUserWsState.failCounter_ne _ hc
    · next last hlast =>
      intro heq
      have h1 := (checkedAdd_eq_some.1 hlast).2
      have h2 : last = s.rawFrameSequence := congrArg (·.rawFrameSequence) heq
      omega
  all_goals exact AuthenticatedUserWsState.advanceGapVersion_ne rfl hc

/-- A disturbing call changes the books of a connected cell. -/
theorem CellCall.Disturbs.seen {c : CellCall} (h : c.Disturbs) (hs : Sound c.pre.books)
    (hc : c.pre.state.connection = .connected) (hx : c.pre.state.counterExhaustion = none)
    (hr : c.pre.state.subscription = .serverResponsive) : c.post.books ≠ c.pre.books := by
  intro hbooks
  have hstate : c.post.state = c.pre.state := congrArg Books.state hbooks
  have hclosed : c.pre.failClosedAfterPoison.books ≠ c.pre.books := by
    intro hb
    have hd : c.pre.failClosedAfterPoison.books.state.connection = .disconnected :=
      c.pre.failClosedAfterPoison_closed.connection
    rw [hb, show c.pre.books.state.connection = .connected from hc] at hd
    cases hd
  have ho := c.outcome
  rw [hbooks] at ho
  generalize hb : c.pre.books = books at ho
  cases h with
  | recorded h hf =>
    rcases c.move.still (congrArg _ hstate) (hstate ▸ hc) (hstate ▸ hr) with ⟨he, -⟩ | ⟨f, he, -⟩
    · exact h he
    · exact hf f he
  | moves h =>
    generalize c.out = r, c.input = op at ho h
    cases ho with
    | refused => exact hclosed hb.symm
    | answers ha =>
      cases ha with
      | nothing hg hm => cases op <;> simp_all [Op.alwaysMoves, Op.mayRest]
      | _ => cases h
    | acts hopen ha =>
      cases ha with
      | @update _ state _ hu => exact Op.transition_ne hu hc hx h (congrArg Books.state hb).symm
      | _ => cases h
  | @acknowledged sequence h hout hd hnew =>
    rw [h, hout] at ho
    cases ho with
    | refused hg => cases hg
    | answers ha =>
      cases ha with
      | nothing hg hm => cases hg
      | durable hz hle => exact absurd hd (not_lt.2 hle)
    | acts hopen ha =>
      generalize hr : Reply.bool true = r at ha
      cases ha with
      | update hu => cases hu
      | acknowledgeOverflowed => cases hr
      | @acknowledged _ n _ _ hd ht hf ha =>
        obtain ⟨rfl, rfl, -⟩ := hs.advanced ha
        -- the frontier stayed, so the acknowledgement is in the set
        obtain rfl : n = c.pre.state.durableSequence :=
          (congrArg (fun b => b.state.durableSequence) hb).symm
        have hset := congrArg Books.durableOutOfOrder hb
        dsimp only at hset
        rw [Finset.Ioc_self, Finset.sdiff_empty] at hset
        refine hnew ?_
        rw [show c.pre.durableOutOfOrder = _ from hset]
        exact Finset.mem_insert_self _ _

/-! ## From the preparation to the commit, and on -/

/-- A cell that stands behind a finalization prepared in it. -/
structure Behind (expected : AuthenticatedUserWsState) (cell : StateCell) : Prop where
  coherent : Coherent cell
  sound : Sound cell.books
  grows : Grows expected cell.state

theorem Behind.call {expected : AuthenticatedUserWsState} {c : CellCall}
    (h : Behind expected c.pre) : Behind expected c.post :=
  ⟨h.coherent.step, h.sound.call, h.grows.trans c.grows⟩

/-- A state that was left stays left. -/
theorem Departed.path {expected : AuthenticatedUserWsState} {acknowledged : Finset ℕ}
    {cell cell' : StateCell} {cs : List CellCall} (hpath : Machine.Path cellMachine cell cs cell')
    (hE : ¬ expected.Shut) (hb : Behind expected cell) (h : Departed expected acknowledged cell) :
    Departed expected acknowledged cell' ∧ ∀ c ∈ cs, Departed expected acknowledged c.pre := by
  have hstep : ∀ s i, Behind expected s ∧ Departed expected acknowledged s →
      Behind expected (cellMachine.step s i).1 ∧
        Departed expected acknowledged (cellMachine.step s i).1 := by
    rintro s i ⟨hb, hd⟩
    exact ⟨Behind.call (c := ⟨s, i⟩) hb,
      Departed.call (c := ⟨s, i⟩) hE hb.coherent hb.sound hb.grows hd⟩
  exact ⟨(hpath.closed hstep ⟨hb, h⟩).2, fun c hc => (hpath.mem_closed hstep ⟨hb, h⟩ c hc).1.2⟩

theorem Op.not_alwaysMoves {op : Op} {r : Reply}
    (h : op.retains r = true ∨ op.releases r = true) :
    op.alwaysMoves = false ∧ ∀ sequence, op ≠ .acknowledgeDurable sequence := by
  unfold Op.retains Op.releases at h
  rcases h with h | h <;> split at h
  · exact ⟨rfl, fun _ => nofun⟩
  · cases h
  · exact ⟨rfl, fun _ => nofun⟩
  · cases h

theorem Still.not_disturbs {f : AuthenticatedUserCatchUpFinalization} {c : CellCall}
    (h : Still f c.pre.books) (hs : Sound c.pre.books)
    (hk : Keeps c.pre.books c.input c.out c.post.books)
    (hn : ¬ Departed f.expectedState f.expectedDurableOutOfOrder c.post) : ¬ c.Disturbs := by
  intro hd
  obtain ⟨n, hn'⟩ := h.state
  have hready := f.evidence.ready.1
  rw [f.evidence.next_eq] at hready
  have hc : c.pre.state.connection = .connected := by
    rw [show c.pre.state = _ from hn']; exact hready.1
  have hr : c.pre.state.subscription = .serverResponsive := by
    rw [show c.pre.state = _ from hn']; exact hready.2.2.1
  have hx : c.pre.state.counterExhaustion = none := by
    rw [show c.pre.state = _ from hn']; exact hready.2.2.2.2.2.2.2.2.2.2.2
  have hframe : c.input.retains c.out = true ∨ c.input.releases c.out = true → False := by
    intro hf
    obtain ⟨hmoves, hack⟩ := Op.not_alwaysMoves hf
    cases hd with
    | moves hm => rw [hmoves] at hm; cases hm
    | acknowledged hi => exact hack _ hi
    | recorded he hf =>
      simp only [Departed, not_or, not_not, ne_eq] at hn
      have hpre : c.pre.state.counters = f.expectedState.counters := by
        rw [show c.pre.state = _ from hn']; rfl
      rcases c.move.still (hn.1.trans hpre.symm) hn.2.1 hn.2.2.1 with ⟨h, -⟩ | ⟨g, h, -⟩
      · exact he h
      · exact hf g h
  cases hk with
  | unchanged _ _ hb => exact hd.seen hs hc hx hr hb
  | retained hret => exact hframe (.inl hret)
  | released hrel => exact hframe (.inr hrel)

/-- Between a preparation and what still meets it, frames come and go and nothing else. -/
theorem Still.path {f : AuthenticatedUserCatchUpFinalization} {cell cell' : StateCell}
    {cs : List CellCall} (hpath : Machine.Path cellMachine cell cs cell')
    (hb : Behind f.expectedState cell) (h : Still f cell.books)
    (hn : ¬ Departed f.expectedState f.expectedDurableOutOfOrder cell') :
    (∀ c ∈ cs, Keeps c.pre.books c.input c.out c.post.books ∧ ¬ c.Disturbs) ∧
      cell'.rawFrames.size + cs.countP CellCall.releases =
        cell.rawFrames.size + cs.countP CellCall.retains := by
  induction hpath with
  | nil s => exact ⟨fun c hc => absurd hc List.not_mem_nil, rfl⟩
  | @cons s s' i cs hrest ih =>
    let c : CellCall := ⟨s, i⟩
    have hpost : ¬ Departed f.expectedState f.expectedDurableOutOfOrder c.post := fun hd =>
      hn (hd.path hrest f.expected_not_shut (Behind.call (c := c) hb)).1
    obtain ⟨hstill, hkeeps⟩ := Still.call (c := c) h hb.sound hpost
    obtain ⟨hall, hsize⟩ := ih (Behind.call (c := c) hb) hstill hn
    refine ⟨?_, ?_⟩
    · intro d hd
      rcases List.mem_cons.1 hd with rfl | hd
      · exact ⟨hkeeps, Still.not_disturbs (c := c) h hb.sound hkeeps hpost⟩
      · exact hall d hd
    · have hfirst := Keeps.frames (c := ⟨s, i⟩) hkeeps
      rw [List.countP_cons, List.countP_cons]
      replace hsize : s'.rawFrames.size + cs.countP CellCall.releases =
        (Machine.Call.post (⟨s, i⟩ : CellCall)).rawFrames.size + cs.countP CellCall.retains :=
          hsize
      replace hfirst : _ = s.rawFrames.size + _ := hfirst
      omega

/-- Once it is installed, a catch-up of a state that was not ready is expected no more. -/
theorem AuthenticatedUserCatchUpFinalization.departed {f : AuthenticatedUserCatchUpFinalization}
    {cell : StateCell} (h : cell.state = f.nextState) (hr : ¬ f.expectedState.isReady)
    (acknowledged : Finset ℕ) : Departed f.expectedState acknowledged cell := by
  have hnext := f.evidence.next_eq
  have hready := f.evidence.ready
  by_contra hn
  simp only [Departed, not_or, not_not, ne_eq] at hn
  obtain ⟨hcount, -, -, -, hcaught⟩ := hn
  rw [h] at hcount hcaught
  have hopen : ¬ f.expectedState.GapOpen ∧
      f.expectedState.catchUpGeneration = some f.expectedState.generation := by
    by_contra hno
    refine hcaught ⟨hready.1.not_gapOpen, hready.1.2.2.2.2.1, ?_⟩
    by_contra hc
    rw [not_or, not_not] at hc
    exact hno hc
  have hdur : f.nextState.durableSequence = f.expectedState.durableSequence :=
    congrArg (fun c => c.2.2.2.2.2.2.1) hcount
  rw [hnext] at hdur
  have hself := AuthenticatedUserWsState.caughtUp_eq_self hopen.1 hopen.2 hdur
  rw [← hnext] at hself
  exact hr (hself ▸ hready)

section
variable {credentialIdentity : AuthenticatedCredentialIdentity}
  {before between after : List CellCall} {prepare commit : CellCall} {cell : StateCell}
  {f : AuthenticatedUserCatchUpFinalization}

/-- Where a finalization was prepared, the cell stands behind it. -/
theorem CellRun.behind (h : CellRun credentialIdentity (before ++ prepare :: after) cell)
    (hp : prepare.out = .finalization (some f)) :
    Behind f.expectedState prepare.post ∧ Still f prepare.post.books := by
  obtain ⟨⟨hs, ho, hd⟩, hsame, -⟩ := CellCall.prepared hp
  have hpre : CellRun credentialIdentity before prepare.pre := h.before.1
  have hbehind : Behind f.expectedState prepare.pre :=
    ⟨CellRun.coherent hpre, CellRun.sound hpre, hs ▸ .refl _⟩
  refine ⟨hbehind.call, ?_⟩
  rw [hsame]
  exact ⟨⟨f.expectedState.pendingRawFrameCount, hs⟩, ho, hd⟩

/-- A commit that returns `false` changes nothing, or fails the poisoned cell closed. -/
theorem CellCall.commit_rejected {c : CellCall} (hc : c.input = .commitCatchUpFinalization f)
    (hn : c.out ≠ .bool true) :
    c.post.books = c.pre.books ∨ c.post.books = c.pre.failClosedAfterPoison.books := by
  have ho := c.outcome
  rw [hc] at ho
  generalize c.post.books = books, c.out = r at ho hn ⊢
  cases ho with
  | refused => exact .inr rfl
  | answers => exact .inl rfl
  | acts hopen ha =>
    cases ha with
    | update hu => cases hu
    | installed => exact absurd rfl hn

/-- Prepare and commit are a compare-and-set.  A preparation changes nothing; a rejected commit
    changes nothing but for the fail-close of a poisoned cell; and between the preparation and a
    commit that succeeds every call retained a frame, or released one, or changed nothing, and as
    many were retained as released.  Of the finalizations that expect one state that is not
    ready, no second one is committed. -/
theorem prepare_commit_compare_and_set
    (h : CellRun credentialIdentity
      (before ++ prepare :: between ++ commit :: after) cell)
    (hp : prepare.out = .finalization (some f))
    (hc : commit.input = .commitCatchUpFinalization f) :
    prepare.post.books = prepare.pre.books ∧
    (commit.out ≠ .bool true → commit.post.books = commit.pre.books ∨
      commit.post.books = commit.pre.failClosedAfterPoison.books) ∧
    (commit.out = .bool true →
      commit.pre.expects f ∧
      (∀ c ∈ between, Keeps c.pre.books c.input c.out c.post.books ∧ ¬ c.Disturbs) ∧
      between.countP CellCall.retains = between.countP CellCall.releases ∧
      (¬ f.expectedState.isReady → ∀ d ∈ after, ∀ g,
        g.expectedState = f.expectedState → d.event ≠ .caughtUp g)) := by
  obtain ⟨hexp, hsame, -⟩ := CellCall.prepared hp
  refine ⟨hsame, CellCall.commit_rejected hc, fun hout => ?_⟩
  have hcommit : commit.event = .caughtUp f := CellCall.event_eq_caughtUp.2 ⟨hc, hout⟩
  obtain ⟨hexp', hnext, -⟩ := CellCall.installed hcommit
  have hrun : CellRun credentialIdentity
      (before ++ prepare :: (between ++ commit :: after)) cell := by simpa using h
  obtain ⟨hbehind, hstill⟩ := CellRun.behind hrun hp
  obtain ⟨hall, hsize⟩ := Still.path h.between hbehind hstill (f.not_departed hexp')
  have hlater : Behind f.expectedState commit.pre :=
    h.between.closed (fun s i => Behind.call (c := ⟨s, i⟩)) hbehind
  refine ⟨hexp', hall, ?_, fun hr d hd g hg hev => ?_⟩
  · -- as many frames are pending at both ends: those of the expected state
    have hfirst : prepare.post.state.pendingRawFrameCount = prepare.post.rawFrames.size :=
      hbehind.sound.pending
    have hlast : commit.pre.state.pendingRawFrameCount = commit.pre.rawFrames.size :=
      hlater.sound.pending
    rw [show prepare.post.state = f.expectedState from
      (congrArg Books.state hsame).trans hexp.1] at hfirst
    rw [hexp'.1] at hlast
    omega
  · have hleft := Departed.path h.after f.expected_not_shut hlater.call
      (f.departed hnext hr g.expectedDurableOutOfOrder)
    refine g.not_departed (CellCall.installed hev).1 ?_
    rw [hg]
    exact hleft.2 d hd

end

/-- A preparation, calls that are always available, and two commits of what was prepared. -/
theorem CellRun.commit_again {credentialIdentity : AuthenticatedCredentialIdentity}
    {before : List CellCall} {f : AuthenticatedUserCatchUpFinalization} (prepare : CellCall)
    (passing : List Op) (h : CellRun credentialIdentity before prepare.pre)
    (hprepare : prepare.input.available before) (hf : prepare.out = .finalization (some f))
    (hpassing : ∀ op ∈ passing, ∀ cs, op.available cs) {c again : CellCall}
    (hc : c = ⟨cellMachine.exec prepare.post passing, .commitCatchUpFinalization f⟩)
    (hagain : again = ⟨c.post, .commitCatchUpFinalization f⟩) :
    CellRun credentialIdentity
      (before ++ prepare :: cellMachine.calls prepare.post passing ++ c :: [again])
      again.post := by
  subst hc hagain
  have hpassed := (h.snoc hprepare).extend passing (.of_forall hpassing _ _)
  have hfirst := hpassed.snoc (i := .commitCatchUpFinalization f)
    (by exact ⟨prepare, by simp, hf⟩)
  have hsecond := hfirst.snoc (i := .commitCatchUpFinalization f)
    (by exact ⟨prepare, by simp, hf⟩)
  rwa [List.append_assoc, List.append_assoc before] at hsecond

/-- A frame that is retained, and stored, between a preparation and its commit. -/
def passingFrame : AuthenticatedUserRawFrame :=
  ⟨1, 1, 1, 1, 1, ⟨0, 1, 1⟩, .text, none, []⟩

/-- The finalization of a recovery commits after a frame that came and went, and does not commit
    again. -/
theorem prepare_commit_compare_and_set_recovered :
    ∃ (before between : List CellCall) (prepare commit again : CellCall)
      (f : AuthenticatedUserCatchUpFinalization),
      CellRun {} (before ++ prepare :: between ++ commit :: [again]) again.post ∧
      prepare.out = .finalization (some f) ∧
      between.countP CellCall.retains = 1 ∧ between.countP CellCall.releases = 1 ∧
      commit.event = .caughtUp f ∧ again.input = commit.input ∧ again.event ≠ .caughtUp f := by
  let during : List Op := [.reserveRawFrameSequence, .reserveRawFrameCapacity]
  let passing : List Op := [.retainRawFrame passingFrame, .acknowledgeRawFrameDurable 1]
  let f := (recoveryFinalization during 1).get (by decide)
  have hf : recoveryFinalization during 1 = some f := (Option.some_get _).symm
  let commit : CellCall :=
    ⟨cellMachine.exec (recoveryPrepare during 1).post passing, .commitCatchUpFinalization f⟩
  have hfree : ∀ op ∈ recoveryOps during, ∀ cs, op.available cs := by
    simp [during, recoveryOps, recoverySetup, recoveryProof, Op.available]
  have hrun : CellRun {} _ (recoveryCell during) := .of_inputs (.of_forall hfree [] _)
  have hagain := CellRun.commit_again (recoveryPrepare during 1) passing hrun trivial
    (recoveryPrepare_out hf) (by simp [passing, Op.available]) (c := commit) rfl rfl
  have hresult : (commit.pre.commitCatchUpFinalization f).result = true := by decide +kernel
  have hout : commit.out = .bool true := congrArg Reply.bool hresult
  have hready : ¬ f.expectedState.isReady := by decide
  have hset := prepare_commit_compare_and_set hagain (recoveryPrepare_out hf) rfl
  refine ⟨_, _, recoveryPrepare during 1, commit, _, f, hagain, recoveryPrepare_out hf,
    by decide +kernel, by decide +kernel, CellCall.event_eq_caughtUp.2 ⟨rfl, hout⟩, rfl, ?_⟩
  exact (hset.2.2 hout).2.2.2 hready _ (List.mem_singleton_self _) f rfl

end Rspm
