/-
  Permanent closure.

  A closed consumer, a poisoned authority and an exhausted counter stay for
  good, and no later call, in any order, rebuilds an authority or hands out a
  sequence or a generation a second time.
-/
import Rspm.Ws.Moves

namespace Rspm

namespace AuthenticatedUserWsState

variable (state : AuthenticatedUserWsState)

/-- A permanent reason is set. -/
def Shut : Prop :=
  state.consumerClosed = true ∨ state.authorityPoisoned = true ∨
    state.counterExhaustion.isSome

/-- A reason that also drops the connection is set. -/
def Dead : Prop := state.authorityPoisoned = true ∨ state.counterExhaustion.isSome

variable {state}

theorem Dead.shut (h : state.Dead) : state.Shut := .inr h

theorem Shut.not_intact (h : state.Shut) : ¬ state.channelAuthorityIntact := by
  rintro ⟨-, -, -, -, -, -, -, -, hc, -, hp, hx⟩
  rcases h with h | h | h
  · rw [hc] at h; cases h
  · rw [hp] at h; cases h
  · rw [hx] at h; cases h

theorem Shut.not_ready (h : state.Shut) : ¬ state.isReady := fun hr => h.not_intact hr.1

end AuthenticatedUserWsState

/-- No finalization expects a shut state. -/
theorem AuthenticatedUserCatchUpFinalization.expected_not_shut
    (f : AuthenticatedUserCatchUpFinalization) : ¬ f.expectedState.Shut := by
  intro h
  have hr := f.evidence.ready
  rw [f.evidence.next_eq] at hr
  exact (show (f.expectedState.caughtUp _ _).Shut from h).not_ready hr

/-! ## The parts of a cell agree -/

/-- The poison flag of a cell and that of its state agree, and a dead cell is disconnected. -/
structure Coherent (cell : StateCell) : Prop where
  poisoned : cell.state.authorityPoisoned = cell.authorityPoisoned
  disconnected : cell.state.Dead → cell.state.connection = .disconnected

theorem StateCell.failClosedAfterPoison_state_authorityPoisoned (cell : StateCell) :
    cell.failClosedAfterPoison.state.authorityPoisoned = true := by
  unfold failClosedAfterPoison
  dsimp only
  split_ifs
  · rw [(Advances.advanceGapVersion _).authorityPoisoned]
  · rfl

theorem Coherent.new (credentialIdentity : AuthenticatedCredentialIdentity) :
    Coherent (.newWithIdentity credentialIdentity) :=
  ⟨rfl, fun _ => rfl⟩

/-- An exhausted counter keeps the connection down under every move. -/
theorem Move.stays_disconnected {s s' : AuthenticatedUserWsState} {e : Event} (h : Move s e s')
    (hs : s.counterExhaustion.isSome → s.connection = .disconnected)
    (hx : s'.counterExhaustion.isSome) : s'.connection = .disconnected := by
  cases h with
  | ledger | lost | overflowed | gap => exact hs hx
  | connecting hn | connected hn =>
    simp only [AuthenticatedUserWsState.clearRestProof, hn] at hx; cases hx
  | subscribed hc => have := hs hx; rw [hc] at this; cases this
  | responded hp => have := hs hx; rw [hp.2.1] at this; cases this
  | proven ht hi =>
    have := hs hx
    rw [((s.recoveryToken_eq_some).1 ht).1] at this; cases this
  | disconnected => rfl
  | @caughtUp f he =>
    have := f.evidence.ready.1
    exact absurd this (AuthenticatedUserWsState.Shut.not_intact (.inr (.inr hx)))
  | closed he hc => exact hc.connection

/-- Acting on an open cell leaves the poison flags alone. -/
theorem StateCell.Acts.authorityPoisoned {cell : StateCell} {op : Op} {books : Books} {r : Reply}
    (h : cell.Acts op books r) : books.authorityPoisoned = cell.authorityPoisoned := by
  cases h <;> rfl

theorem Coherent.step {c : CellCall} (h : Coherent c.pre) : Coherent c.post := by
  have hmove := c.move
  have ho := c.outcome
  suffices hb : c.post.books.state.authorityPoisoned = c.post.books.authorityPoisoned ∧
      (c.post.books.state.Dead → c.post.books.state.connection = .disconnected) from ⟨hb.1, hb.2⟩
  rw [show c.post.state = c.post.books.state from rfl] at hmove
  generalize c.post.books = books, c.out = r at ho hmove ⊢
  cases ho with
  | refused hr hu =>
    exact ⟨c.pre.failClosedAfterPoison_state_authorityPoisoned,
      fun _ => c.pre.failClosedAfterPoison_closed.connection⟩
  | answers => exact ⟨h.poisoned, h.disconnected⟩
  | acts hopen hacts =>
    have hp : books.state.authorityPoisoned = false := by
      rw [hacts.advances.authorityPoisoned, h.poisoned]; exact hopen.1
    refine ⟨by rw [hp, hacts.authorityPoisoned]; exact hopen.1.symm, fun hd => ?_⟩
    rcases hd with hd | hd
    · rw [hp] at hd; cases hd
    · exact hmove.stays_disconnected (fun hx => h.disconnected (.inr hx)) hd

theorem CellRun.coherent {credentialIdentity : AuthenticatedCredentialIdentity}
    {cs : List CellCall} {cell : StateCell} (h : CellRun credentialIdentity cs cell) :
    Coherent cell :=
  h.invariant (Coherent.new _) fun s i hs => Coherent.step (c := ⟨s, i⟩) hs

/-! ## Nothing is handed out twice -/

namespace AuthenticatedUserWsState

variable {s : AuthenticatedUserWsState}

theorem reserveTransportSequences_some {eventCount : ℕ} {range : TransportSequenceRange}
    (h : (s.reserveTransportSequences eventCount).2 = some range) :
    s.transportSequence < range.first ∧ range.first ≤ range.last ∧
      range.last = (s.reserveTransportSequences eventCount).1.transportSequence := by
  unfold reserveTransportSequences at h ⊢
  cases hn : checkedAdd s.transportSequence 1 with
  | none => simp [hn] at h
  | some next =>
    rw [hn] at h
    dsimp only at h ⊢
    cases hl : checkedAdd next (eventCount - 1) with
    | none => simp [hl] at h
    | some last =>
      rw [hl] at h
      obtain rfl := Option.some.inj h
      have h1 := (checkedAdd_eq_some.1 hn).2
      have h2 := (checkedAdd_eq_some.1 hl).2
      exact ⟨show s.transportSequence < next by omega, show next ≤ last by omega, rfl⟩

theorem reserveRawFrameSequence_some {n : ℕ} (h : s.reserveRawFrameSequence.2 = some n) :
    s.rawFrameSequence < n ∧ n = s.reserveRawFrameSequence.1.rawFrameSequence := by
  unfold reserveRawFrameSequence at h ⊢
  cases hn : checkedAdd s.rawFrameSequence 1 with
  | none => simp [hn] at h
  | some next =>
    rw [hn] at h
    obtain rfl := Option.some.inj h
    have h1 := (checkedAdd_eq_some.1 hn).2
    exact ⟨by omega, rfl⟩

theorem tryMarkConnected_ok {generation : ℕ} (h : s.tryMarkConnected.2 = .ok generation) :
    s.generation < generation ∧ generation = s.tryMarkConnected.1.generation := by
  unfold tryMarkConnected at h ⊢
  cases hx : s.counterExhaustion with
  | some exhaustion => simp [hx] at h
  | none =>
    rw [hx] at h
    dsimp only at h ⊢
    cases hn : checkedAdd s.generation 1 with
    | none => simp [hn] at h
    | some next =>
      rw [hn] at h
      have h1 := (checkedAdd_eq_some.1 hn).2
      dsimp only at h ⊢
      rcases advanceGapVersion_cases _ with ⟨-, ha⟩ | ⟨-, ha⟩ <;> rw [ha] at h ⊢
      · obtain rfl := Except.ok.inj h
        exact ⟨by omega, rfl⟩
      · cases h

end AuthenticatedUserWsState

/-- What a reply hands out lies beyond the counter of `s`, and up to that of `s'`. -/
def Reply.HandsOut (s s' : AuthenticatedUserWsState) : Reply → Prop
  | .range (some r) =>
    s.transportSequence < r.first ∧ r.first ≤ r.last ∧ r.last = s'.transportSequence
  | .sequence (some n) => s.rawFrameSequence < n ∧ n = s'.rawFrameSequence
  | .connection (.ok generation) => s.generation < generation ∧ generation = s'.generation
  | _ => True

/-- A reply that grants nothing hands nothing out. -/
theorem Reply.handsOut_of_not_grants {r : Reply} (h : r.grants = false)
    (s s' : AuthenticatedUserWsState) : r.HandsOut s s' := by
  unfold HandsOut
  split <;> trivial

theorem Op.transition_handsOut {op : Op} {s s' : AuthenticatedUserWsState} {r : Reply}
    (h : op.transition s = some (s', r)) : r.HandsOut s s' := by
  cases op <;> simp only [Op.transition, reduceCtorEq, Option.some.injEq, Prod.mk.injEq,
    Option.ite_none_left_eq_some, Option.ite_none_right_eq_some] at h
  case reserveTransportSequences eventCount =>
    obtain ⟨-, rfl, rfl⟩ := h
    cases hr : (s.reserveTransportSequences eventCount).2 with
    | none => trivial
    | some range => exact AuthenticatedUserWsState.reserveTransportSequences_some hr
  case reserveRawFrameSequence =>
    obtain ⟨rfl, rfl⟩ := h
    cases hr : s.reserveRawFrameSequence.2 with
    | none => trivial
    | some n => exact AuthenticatedUserWsState.reserveRawFrameSequence_some hr
  case tryMarkConnected =>
    obtain ⟨rfl, rfl⟩ := h
    cases hr : s.tryMarkConnected.2 with
    | error exhaustion => trivial
    | ok generation => exact AuthenticatedUserWsState.tryMarkConnected_ok hr
  case markAuthenticatedRestProven => obtain ⟨rfl, rfl⟩ := h; trivial
  case retainRawFrame => obtain ⟨-, rfl, rfl⟩ := h; trivial
  all_goals obtain ⟨rfl, rfl⟩ := h; trivial

theorem CellCall.handsOut (c : CellCall) : c.out.HandsOut c.pre.state c.post.state := by
  have ho := c.outcome
  rw [show c.post.state = c.post.books.state from rfl]
  generalize c.post.books = books, c.out = r at ho ⊢
  cases ho with
  | refused hr hu => exact Reply.handsOut_of_not_grants hr _ _
  | answers h =>
    generalize c.input = op at h
    cases h with
    | nothing hr hm => exact Reply.handsOut_of_not_grants hr _ _
    | _ => trivial
  | acts hopen h =>
    generalize c.input = op at h
    cases h with
    | update h => exact Op.transition_handsOut h
    | _ => trivial

/-- Nothing that `later` hands out was handed out by `earlier`. -/
structure CellCall.Fresh (earlier later : CellCall) : Prop where
  transport : ∀ r r', earlier.out = .range (some r) → later.out = .range (some r') →
    r.last < r'.first
  rawFrame : ∀ n n', earlier.out = .sequence (some n) → later.out = .sequence (some n') → n < n'
  generation : ∀ g g', earlier.out = .connection (.ok g) → later.out = .connection (.ok g') →
    g < g'

theorem CellRun.fresh {credentialIdentity : AuthenticatedCredentialIdentity}
    {cs ds : List CellCall} {d : CellCall} {cell : StateCell}
    (h : CellRun credentialIdentity (cs ++ d :: ds) cell) : ∀ c ∈ cs, c.Fresh d := by
  intro c hc
  have hg : Grows c.post.state d.pre.state :=
    h.earlier (r := fun a b => Grows a.state b.state) (fun _ => .refl _)
      (fun _ _ _ => .trans) (fun s i => CellCall.grows ⟨s, i⟩) c hc
  have h1 := c.handsOut
  have h2 := d.handsOut
  refine ⟨fun r r' hr hr' => ?_, fun n n' hn hn' => ?_, fun g g' hc hd => ?_⟩
  · rw [hr] at h1; rw [hr'] at h2
    have := hg.transportSequence
    have := h1.2.2
    have := h2.1
    omega
  · rw [hn] at h1; rw [hn'] at h2
    have := hg.rawFrameSequence
    have := h1.2
    have := h2.1
    omega
  · rw [hc] at h1; rw [hd] at h2
    have := hg.generation
    have := h1.2
    have := h2.1
    omega

/-! ## Closure -/

/-- A poisoned cell stays poisoned. -/
theorem CellCall.authorityPoisoned {c : CellCall} (h : c.pre.authorityPoisoned = true) :
    c.post.authorityPoisoned = true := by
  have ho := c.outcome
  rw [show c.post.authorityPoisoned = c.post.books.authorityPoisoned from rfl]
  generalize c.post.books = books, c.out = r at ho ⊢
  cases ho with
  | refused hr hu => rfl
  | answers ha => exact h
  | acts hopen ha => rw [ha.authorityPoisoned]; exact h

/-- The permanent reasons of a state are among those of the next one. -/
structure Kept (s s' : AuthenticatedUserWsState) : Prop where
  consumerClosed : s.consumerClosed = true → s'.consumerClosed = true
  authorityPoisoned : s.authorityPoisoned = true → s'.authorityPoisoned = true
  counterExhaustion : ∀ e, s.counterExhaustion = some e → s'.counterExhaustion = some e

theorem Kept.shut {s s' : AuthenticatedUserWsState} (h : Kept s s') (hs : s.Shut) : s'.Shut := by
  rcases hs with hs | hs | hs
  · exact .inl (h.consumerClosed hs)
  · exact .inr (.inl (h.authorityPoisoned hs))
  · obtain ⟨e, he⟩ := Option.isSome_iff_exists.1 hs
    exact .inr (.inr (by rw [h.counterExhaustion e he]; rfl))

theorem Kept.dead {s s' : AuthenticatedUserWsState} (h : Kept s s') (hs : s.Dead) : s'.Dead := by
  rcases hs with hs | hs
  · exact .inl (h.authorityPoisoned hs)
  · obtain ⟨e, he⟩ := Option.isSome_iff_exists.1 hs
    exact .inr (by rw [h.counterExhaustion e he]; rfl)

theorem CellCall.kept {c : CellCall} (h : Coherent c.pre) : Kept c.pre.state c.post.state where
  consumerClosed := c.grows.consumerClosed
  authorityPoisoned hp := by
    rw [h.poisoned] at hp
    exact h.step.poisoned.trans (CellCall.authorityPoisoned hp)
  counterExhaustion _ := c.grows.counterExhaustion

/-- Along a path the parts of the cell agree, and the reasons of its start are kept. -/
def KeptFrom (s : AuthenticatedUserWsState) (cell : StateCell) : Prop :=
  Coherent cell ∧ Kept s cell.state

theorem KeptFrom.step {s : AuthenticatedUserWsState} {cell : StateCell} (op : Op)
    (h : KeptFrom s cell) : KeptFrom s (cellMachine.step cell op).1 :=
  have hk := CellCall.kept (c := ⟨cell, op⟩) h.1
  ⟨Coherent.step (c := ⟨cell, op⟩) h.1, fun hs => hk.consumerClosed (h.2.consumerClosed hs),
    fun hs => hk.authorityPoisoned (h.2.authorityPoisoned hs),
    fun e he => hk.counterExhaustion e (h.2.counterExhaustion e he)⟩

theorem KeptFrom.refl {cell : StateCell} (h : Coherent cell) : KeptFrom cell.state cell :=
  ⟨h, id, id, fun _ => id⟩

/-- No call of a shut cell prepares or commits a catch-up. -/
theorem CellCall.no_catchUp {c : CellCall} (h : c.pre.state.Shut)
    (f : AuthenticatedUserCatchUpFinalization) :
    c.out ≠ .finalization (some f) ∧
      ¬ (c.input = .commitCatchUpFinalization f ∧ c.out = .bool true) := by
  refine ⟨fun hout => ?_, fun hcommit => ?_⟩
  · obtain ⟨hexpects, -⟩ := CellCall.prepared hout
    exact f.expected_not_shut (hexpects.1 ▸ h)
  · obtain ⟨hexpects, -⟩ := CellCall.installed (CellCall.event_eq_caughtUp.2 hcommit)
    exact f.expected_not_shut (hexpects.1 ▸ h)

/-- Only `try_mark_connected` returns a generation, and it leaves a connected state. -/
theorem CellCall.connected_out {c : CellCall} {generation : ℕ}
    (h : c.out = .connection (.ok generation)) : c.post.state.connection = .connected := by
  have he : c.event = .connected generation := by
    have ho := c.outcome
    unfold CellCall.event
    generalize c.post.books = books, c.out = r, c.input = op at ho h ⊢
    subst h
    cases ho with
    | refused hr hu => cases hr
    | answers ha => cases ha with | nothing hr hm => cases hr
    | acts hopen ha =>
      cases ha with
      | update hu => cases op <;> simp [Op.transition] at hu; rfl
  have hm := c.move
  rw [he] at hm
  generalize c.post.state = s' at hm ⊢
  cases hm with
  | connected => rfl
  | overflowed he => rcases he with he | he <;> cases he
  | closed he => rcases he with he | he <;> cases he

/-- Closure is absorbing: whatever is called after it, the reasons stay, readiness and
    catch-ups are gone for good, and nothing is handed out that was handed out before. -/
theorem closure_absorbing {credentialIdentity : AuthenticatedCredentialIdentity}
    {cs ds : List CellCall} {cell cell' : StateCell}
    (h : CellRun credentialIdentity cs cell)
    (h' : CellRun credentialIdentity (cs ++ ds) cell') :
    Kept cell.state cell'.state ∧
      (cell.state.Shut → ¬ cell'.state.isReady ∧ ∀ d ∈ ds, ∀ f,
        d.out ≠ .finalization (some f) ∧
          ¬ (d.input = .commitCatchUpFinalization f ∧ d.out = .bool true)) ∧
      (cell.state.Dead → cell'.state.connection = .disconnected ∧
        cell'.state.recoveryToken = none ∧
        ∀ d ∈ ds, ∀ generation, d.out ≠ .connection (.ok generation)) ∧
      ∀ as d bs, cs ++ ds = as ++ d :: bs → ∀ c ∈ as, c.Fresh d := by
  have hpath := h.rest h'
  obtain ⟨hc', hk⟩ := hpath.closed (fun s op => KeptFrom.step op) (KeptFrom.refl h.coherent)
  have hmem := hpath.mem_closed (fun s op => KeptFrom.step op) (KeptFrom.refl h.coherent)
  refine ⟨hk, fun hs => ⟨(hk.shut hs).not_ready, fun d hd f => ?_⟩, fun hs => ?_, ?_⟩
  · exact CellCall.no_catchUp ((hmem d hd).1.2.shut hs) f
  · have hdis := hc'.disconnected (hk.dead hs)
    refine ⟨hdis, ?_, fun d hd generation hout => ?_⟩
    · exact AuthenticatedUserWsState.recoveryToken_eq_none_of_disconnected _ (by rw [hdis]; decide)
    · obtain ⟨-, hpost, hkept⟩ := hmem d hd
      have := hpost.disconnected (hkept.dead hs)
      rw [CellCall.connected_out hout] at this
      cases this
  · intro as d bs he c hc
    rw [he] at h'
    exact h'.fresh c hc

/-- A cell that is poisoned and then asked to connect. -/
theorem closure_absorbing_poisoned :
    let ops := [Op.markAuthorityPoisoned, Op.tryMarkConnected]
    let cell := StateCell.newWithIdentity {}
    (∀ d ∈ (cellMachine.calls cell ops).drop 1, ∀ generation,
        d.out ≠ .connection (.ok generation)) ∧
      ¬ (cellMachine.exec cell ops).state.isReady := by
  intro ops cell
  have h₁ : CellRun {} (cellMachine.calls cell (ops.take 1)) _ := .of_inputs ⟨trivial, trivial⟩
  have h₂ : CellRun {} (cellMachine.calls cell ops) _ := .of_inputs ⟨trivial, trivial, trivial⟩
  have h := @closure_absorbing _ _ ((cellMachine.calls cell ops).drop 1) _ _ h₁ h₂
  exact ⟨(h.2.2.1 (.inl rfl)).2.2, (h.2.1 (.inr (.inl rfl))).1⟩

end Rspm
