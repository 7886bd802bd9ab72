/-
  What only rises.

  `Grows` is the order of the counters, the closed consumer and the exhaustion
  reason; every call respects it (`CellCall.grows`).  A call that acts on an
  open cell also leaves the poison flag alone (`Advances`).
-/
import Rspm.Ws.Frontier
import Rspm.Ws.Outcome

namespace Rspm

/-! ## What only rises -/

/-- The counters and the permanent flags, with the credential identity. -/
def AuthenticatedUserWsState.counters (s : AuthenticatedUserWsState) :=
  (s.credentialIdentity, s.generation, s.livenessVersion, s.gapVersion, s.transportSequence,
    s.enqueuedSequence, s.durableSequence, s.rawFrameSequence, s.consumerClosed,
    s.counterExhaustion, s.authorityPoisoned)

/-- Counters never fall, the consumer stays closed, the first exhaustion reason stays. -/
structure Grows (s s' : AuthenticatedUserWsState) : Prop where
  credentialIdentity : s'.credentialIdentity = s.credentialIdentity
  generation : s.generation ≤ s'.generation
  livenessVersion : s.livenessVersion ≤ s'.livenessVersion
  gapVersion : s.gapVersion ≤ s'.gapVersion
  transportSequence : s.transportSequence ≤ s'.transportSequence
  enqueuedSequence : s.enqueuedSequence ≤ s'.enqueuedSequence
  durableSequence : s.durableSequence ≤ s'.durableSequence
  rawFrameSequence : s.rawFrameSequence ≤ s'.rawFrameSequence
  consumerClosed : s.consumerClosed = true → s'.consumerClosed = true
  counterExhaustion : ∀ {e}, s.counterExhaustion = some e → s'.counterExhaustion = some e

/-- What an open cell does: it grows, and never touches the poison flag. -/
structure Advances (s s' : AuthenticatedUserWsState) : Prop extends Grows s s' where
  authorityPoisoned : s'.authorityPoisoned = s.authorityPoisoned

namespace Grows

variable {s s' s'' : AuthenticatedUserWsState}

theorem refl (s : AuthenticatedUserWsState) : Grows s s :=
  ⟨rfl, le_rfl, le_rfl, le_rfl, le_rfl, le_rfl, le_rfl, le_rfl, id, id⟩

theorem trans (h : Grows s s') (h' : Grows s' s'') : Grows s s'' where
  credentialIdentity := h'.credentialIdentity.trans h.credentialIdentity
  generation := h.generation.trans h'.generation
  livenessVersion := h.livenessVersion.trans h'.livenessVersion
  gapVersion := h.gapVersion.trans h'.gapVersion
  transportSequence := h.transportSequence.trans h'.transportSequence
  enqueuedSequence := h.enqueuedSequence.trans h'.enqueuedSequence
  durableSequence := h.durableSequence.trans h'.durableSequence
  rawFrameSequence := h.rawFrameSequence.trans h'.rawFrameSequence
  consumerClosed := h'.consumerClosed ∘ h.consumerClosed
  counterExhaustion := h'.counterExhaustion ∘ h.counterExhaustion

end Grows

namespace Advances

variable {s s' s'' : AuthenticatedUserWsState}

/-- A step that touches none of the counters. -/
theorem of_counters (h : s'.counters = s.counters) : Advances s s' := by
  simp only [AuthenticatedUserWsState.counters, Prod.mk.injEq] at h
  obtain ⟨h1, h2, h3, h4, h5, h6, h7, h8, h9, h10, h11⟩ := h
  exact ⟨⟨h1, h2.ge, h3.ge, h4.ge, h5.ge, h6.ge, h7.ge, h8.ge, h9 ▸ id,
    fun he => h10 ▸ he⟩, h11⟩

theorem refl (s : AuthenticatedUserWsState) : Advances s s := .of_counters rfl

theorem trans (h : Advances s s') (h' : Advances s' s'') : Advances s s'' :=
  ⟨h.toGrows.trans h'.toGrows, h'.authorityPoisoned.trans h.authorityPoisoned⟩

theorem failCounter (s : AuthenticatedUserWsState)
    (exhaustion : AuthenticatedUserCounterExhaustion) : Advances s (s.failCounter exhaustion) := by
  refine ⟨⟨rfl, le_rfl, le_rfl, le_rfl, le_rfl, le_rfl, le_rfl, le_rfl, id, ?_⟩, rfl⟩
  intro e he
  simp [AuthenticatedUserWsState.failCounter, he]

theorem advanceGapVersion (s : AuthenticatedUserWsState) : Advances s s.advanceGapVersion.1 := by
  rcases s.advanceGapVersion_cases with ⟨-, h⟩ | ⟨-, h⟩ <;> rw [h]
  · exact ⟨⟨rfl, le_rfl, le_rfl, Nat.le_succ _, le_rfl, le_rfl, le_rfl, le_rfl, id, id⟩, rfl⟩
  · exact failCounter s _

end Advances

/-! ## Every call respects the order -/

namespace Advances

variable (s : AuthenticatedUserWsState)

/-- An advance of the gap version at the end of a step. -/
theorem andAdvance {s s' : AuthenticatedUserWsState} (h : Advances s s') :
    Advances s s'.advanceGapVersion.1 :=
  h.trans (advanceGapVersion s')

theorem tryMarkConnected : Advances s s.tryMarkConnected.1 := by
  unfold AuthenticatedUserWsState.tryMarkConnected
  split
  · exact refl s
  · split
    · exact failCounter s _
    · next next hn =>
      obtain ⟨-, rfl⟩ := checkedAdd_eq_some.1 hn
      dsimp only
      have h : Advances s { s.clearRestProof with
          generation := s.generation + 1
          connection := .connected
          authentication := .inactive
          subscription := .inactive
          catchUpGeneration := none
          evidenceGap := true } :=
        ⟨⟨rfl, Nat.le_succ _, le_rfl, le_rfl, le_rfl, le_rfl, le_rfl, le_rfl, id, id⟩, rfl⟩
      split_ifs
      · exact h.andAdvance
      · exact h.andAdvance

theorem markServerLivenessProven (generation : ℕ) :
    Advances s (s.markServerLivenessProven generation) := by
  unfold AuthenticatedUserWsState.markServerLivenessProven
  split_ifs
  · split
    · exact failCounter s _
    · next next hn =>
      obtain ⟨-, rfl⟩ := checkedAdd_eq_some.1 hn
      exact ⟨⟨rfl, le_rfl, Nat.le_succ _, le_rfl, le_rfl, le_rfl, le_rfl, le_rfl, id, id⟩, rfl⟩
  · exact refl s

theorem reserveTransportSequences (eventCount : ℕ) :
    Advances s (s.reserveTransportSequences eventCount).1 := by
  unfold AuthenticatedUserWsState.reserveTransportSequences
  split
  · exact failCounter s _
  · next next hn =>
    obtain ⟨-, rfl⟩ := checkedAdd_eq_some.1 hn
    split
    · exact failCounter s _
    · next last hl =>
      obtain ⟨-, rfl⟩ := checkedAdd_eq_some.1 hl
      have hle : s.transportSequence ≤ s.transportSequence + 1 + (eventCount - 1) := by omega
      exact ⟨⟨rfl, le_rfl, le_rfl, le_rfl, hle, le_rfl, le_rfl, le_rfl, id, id⟩, rfl⟩

theorem reserveRawFrameSequence : Advances s s.reserveRawFrameSequence.1 := by
  unfold AuthenticatedUserWsState.reserveRawFrameSequence
  split
  · exact failCounter s _
  · next next hn =>
    obtain ⟨-, rfl⟩ := checkedAdd_eq_some.1 hn
    exact ⟨⟨rfl, le_rfl, le_rfl, le_rfl, le_rfl, le_rfl, le_rfl, Nat.le_succ _, id, id⟩, rfl⟩

/-- What every gap mark does after it raised its flags. -/
theorem andReopen {s s' : AuthenticatedUserWsState} (h : Advances s s') :
    Advances s s'.reopenProof :=
  h.trans (andAdvance (.of_counters rfl))

theorem transition {op : Op} {s s' : AuthenticatedUserWsState} {r : Reply}
    (h : op.transition s = some (s', r)) : Advances s s' := by
  cases op <;> simp only [Op.transition, reduceCtorEq, Option.some.injEq, Prod.mk.injEq,
    Option.ite_none_left_eq_some, Option.ite_none_right_eq_some] at h
  case markConnecting =>
    obtain ⟨rfl, rfl⟩ := h
    unfold AuthenticatedUserWsState.markConnecting
    split_ifs
    · exact refl s
    · exact .of_counters rfl
  case tryMarkConnected => obtain ⟨rfl, rfl⟩ := h; exact tryMarkConnected s
  case markSubscriptionWritten generation =>
    obtain ⟨rfl, rfl⟩ := h
    unfold AuthenticatedUserWsState.markSubscriptionWritten
    split_ifs
    · exact .of_counters rfl
    · exact refl s
  case markServerLivenessProven generation =>
    obtain ⟨rfl, rfl⟩ := h; exact markServerLivenessProven s generation
  case markAuthenticatedRestProven token credentialAuthority =>
    obtain ⟨rfl, rfl⟩ := h
    unfold AuthenticatedUserWsState.markAuthenticatedRestProven
    split_ifs
    · exact .of_counters rfl
    · exact refl s
  case markDisconnected =>
    obtain ⟨rfl, rfl⟩ := h
    exact andAdvance (.of_counters rfl)
  case markSchemaGap =>
    obtain ⟨rfl, rfl⟩ := h
    exact andReopen (.of_counters rfl)
  case markDeliveryGap =>
    obtain ⟨rfl, rfl⟩ := h
    exact andReopen (.of_counters rfl)
  case markConsumerClosed =>
    obtain ⟨rfl, rfl⟩ := h
    exact andReopen
      ⟨⟨rfl, le_rfl, le_rfl, le_rfl, le_rfl, le_rfl, le_rfl, le_rfl, fun _ => rfl, id⟩, rfl⟩
  case markEvidenceGap =>
    obtain ⟨rfl, rfl⟩ := h
    exact andReopen (.of_counters rfl)
  case reserveTransportSequences eventCount =>
    obtain ⟨-, rfl, rfl⟩ := h; exact reserveTransportSequences s eventCount
  case reserveRawFrameSequence => obtain ⟨rfl, rfl⟩ := h; exact reserveRawFrameSequence s
  case retainRawFrame evidence =>
    obtain ⟨-, rfl, rfl⟩ := h
    exact andReopen (.of_counters rfl)
  case markEnqueued range =>
    obtain ⟨rfl, rfl⟩ := h
    unfold AuthenticatedUserWsState.markEnqueued
    split_ifs
    · exact ⟨⟨rfl, le_rfl, le_rfl, le_rfl, le_rfl, le_max_left _ _, le_rfl, le_rfl, id, id⟩, rfl⟩
    · exact andAdvance (.of_counters rfl)

/-- An installed catch-up moves the durable frontier to the transport sequence. -/
theorem finalization (f : AuthenticatedUserCatchUpFinalization) :
    Advances f.expectedState f.nextState := by
  rw [f.evidence.next_eq]
  have hle := (catchUpFrontier_spec _ f.evidence.frontier).1
  exact ⟨⟨rfl, le_rfl, le_rfl, le_rfl, le_rfl, le_rfl, hle, le_rfl, id, id⟩, rfl⟩

end Advances

theorem StateCell.Acts.advances {cell : StateCell} {op : Op} {books : Books} {r : Reply}
    (h : cell.Acts op books r) : Advances cell.state books.state := by
  cases h with
  | update h => exact .transition h
  | retained | released =>
    exact .of_counters rfl
  | replaced | strangerDropped | dropped =>
    exact .andAdvance (.of_counters rfl)
  | dropOverflowed | acknowledgeOverflowed =>
    exact .andAdvance
      ⟨⟨rfl, le_rfl, le_rfl, le_rfl, le_rfl, le_rfl, le_rfl, le_rfl, fun _ => rfl, id⟩, rfl⟩
  | @acknowledged sequence durableSequence durableOutOfOrder exhausted hd ht hf ha =>
    have hle := le_advanceDurable cell.state.transportSequence
      (cell.state.transportSequence - cell.state.durableSequence) cell.state.durableSequence
      (insert sequence cell.durableOutOfOrder)
    rw [ha] at hle
    have hg : Advances cell.state { cell.state with durableSequence } :=
      ⟨⟨rfl, le_rfl, le_rfl, le_rfl, le_rfl, le_rfl, hle, le_rfl, id, id⟩, rfl⟩
    dsimp only
    split_ifs
    · exact hg.trans (.failCounter _ _)
    · exact hg
  | @installed finalization he => rw [he.1]; exact .finalization finalization

/-! ## Refused calls, and every call -/

theorem CellCall.outcome (c : CellCall) : c.pre.Outcome c.input c.post.books c.out := by
  have h := c.pre.perform_outcome c.input
  have hs : ∀ l : Locked Reply, l.settle.1.books = l.cell.books := by
    intro l; unfold Locked.settle; cases l.unsent <;> rfl
  rw [← hs] at h
  exact h

theorem Grows.failClosedAfterPoison (cell : StateCell) :
    Grows cell.state cell.failClosedAfterPoison.state := by
  have hflags : ∀ s : AuthenticatedUserWsState, Grows s { s with
      connection := .disconnected
      authentication := .inactive
      subscription := .inactive
      schemaGap := true
      deliveryGap := true
      consumerClosed := true
      evidenceGap := true
      authorityPoisoned := true
      catchUpGeneration := none
      restProofGeneration := none
      restCredentialAuthority := none
      restProofLivenessFloor := none } := fun s =>
    ⟨rfl, le_rfl, le_rfl, le_rfl, le_rfl, le_rfl, le_rfl, le_rfl, fun _ => rfl, id⟩
  unfold StateCell.failClosedAfterPoison
  dsimp only
  split_ifs
  · exact (hflags cell.state).trans (Advances.advanceGapVersion _).toGrows
  · exact hflags cell.state

theorem CellCall.grows (c : CellCall) : Grows c.pre.state c.post.state := by
  have h := c.outcome
  rw [show c.post.state = c.post.books.state from rfl]
  generalize c.post.books = books, c.out = r at h ⊢
  cases h with
  | refused hr hu => exact .failClosedAfterPoison c.pre
  | answers h => exact .refl c.pre.state
  | acts ho h => exact h.advances.toGrows

theorem grows_of_path {cell cell' : StateCell} {cs : List CellCall}
    (h : Machine.Path cellMachine cell cs cell') : Grows cell.state cell'.state :=
  h.rel (r := fun a b => Grows a.state b.state) (fun _ => .refl _) (fun _ _ _ => .trans)
    fun s op => CellCall.grows ⟨s, op⟩

end Rspm
