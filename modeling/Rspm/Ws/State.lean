/-
  The public state of the authenticated user channel, and what it grants.

  `AuthenticatedUserWsState` is the value that live admission reads.  Counters
  are `u64` in the source: naturals here, advanced only by `checkedAdd`.
-/
import Mathlib

namespace Rspm

/-- `u64::MAX`. -/
def u64Max : ℕ := 2 ^ 64 - 1

/-- `u64::checked_add`. -/
def checkedAdd (a b : ℕ) : Option ℕ := if a + b ≤ u64Max then some (a + b) else none

theorem checkedAdd_eq_some {a b c : ℕ} :
    checkedAdd a b = some c ↔ a + b ≤ u64Max ∧ a + b = c := by
  unfold checkedAdd; split_ifs with h <;> simp [h]

theorem checkedAdd_eq_none {a b : ℕ} : checkedAdd a b = none ↔ u64Max < a + b := by
  unfold checkedAdd; split_ifs with h <;> simp <;> omega

/-- The digest of one credential tuple. -/
structure AuthenticatedCredentialIdentity where
  digest : Vector UInt8 32 := .replicate 32 0
deriving DecidableEq

/-- One credential identity installed for one recovery generation, which is never zero. -/
structure AuthenticatedCredentialAuthority where
  identity : AuthenticatedCredentialIdentity
  generation : ℕ
  generation_ne : generation ≠ 0
deriving DecidableEq

inductive AuthenticatedUserConnectionState where
  | disconnected | connecting | connected
deriving DecidableEq

inductive AuthenticatedUserAuthenticationState where
  | inactive | credentialsSubmitted
deriving DecidableEq

inductive AuthenticatedUserSubscriptionState where
  | inactive | awaitingServerProof | serverResponsive
deriving DecidableEq

/-- The permanent reason of an exhausted counter. -/
inductive AuthenticatedUserCounterExhaustion where
  | generation | liveness | gapVersion | transportSequence | rawFrameSequence | durableSequence
deriving DecidableEq

/-- The exact state used by live admission; the defaults are `Default::default()`. -/
structure AuthenticatedUserWsState where
  credentialIdentity : AuthenticatedCredentialIdentity := {}
  connection : AuthenticatedUserConnectionState := .disconnected
  authentication : AuthenticatedUserAuthenticationState := .inactive
  subscription : AuthenticatedUserSubscriptionState := .inactive
  generation : ℕ := 0
  livenessVersion : ℕ := 0
  gapVersion : ℕ := 0
  transportSequence : ℕ := 0
  enqueuedSequence : ℕ := 0
  durableSequence : ℕ := 0
  rawFrameSequence : ℕ := 0
  pendingRawFrameCount : ℕ := 0
  catchUpGeneration : Option ℕ := none
  restProofGeneration : Option ℕ := none
  restCredentialAuthority : Option AuthenticatedCredentialAuthority := none
  restProofLivenessFloor : Option ℕ := none
  schemaGap : Bool := false
  deliveryGap : Bool := false
  consumerClosed : Bool := false
  evidenceGap : Bool := false
  authorityPoisoned : Bool := false
  counterExhaustion : Option AuthenticatedUserCounterExhaustion := none
deriving DecidableEq

/-- The compare-and-set token of one recovery. -/
structure AuthenticatedUserRecoveryToken where
  generation : ℕ
  gapVersion : ℕ
  credentialIdentity : AuthenticatedCredentialIdentity
deriving DecidableEq

namespace AuthenticatedUserWsState

variable (self : AuthenticatedUserWsState)

def channelAuthorityIntact : Prop :=
  self.connection = .connected ∧ self.authentication = .credentialsSubmitted ∧
    self.subscription = .serverResponsive ∧ self.generation ≠ 0 ∧
    self.catchUpGeneration = some self.generation ∧ self.restCredentialAuthority.isSome ∧
    self.schemaGap = false ∧ self.deliveryGap = false ∧ self.consumerClosed = false ∧
    self.evidenceGap = false ∧ self.authorityPoisoned = false ∧ self.counterExhaustion = none

instance : Decidable self.channelAuthorityIntact := inferInstanceAs (Decidable (_ ∧ _))

def isReady : Prop :=
  self.channelAuthorityIntact ∧ self.durableSequence = self.transportSequence ∧
    self.pendingRawFrameCount = 0

instance : Decidable self.isReady := inferInstanceAs (Decidable (_ ∧ _))

/-- The session the socket is bound to, across the REST-proof window. -/
def recoveryIdentity : Option AuthenticatedUserRecoveryToken :=
  if self.connection = .connected ∧ self.authentication = .credentialsSubmitted ∧
      (self.subscription = .awaitingServerProof ∨ self.subscription = .serverResponsive) ∧
      self.generation ≠ 0 then
    some ⟨self.generation, self.gapVersion, self.credentialIdentity⟩
  else none

/-- The session identity, plus proof that the session is open for recovery now. -/
def recoveryToken : Option AuthenticatedUserRecoveryToken :=
  self.recoveryIdentity.filter fun _ => self.subscription = .serverResponsive

theorem recoveryToken_eq_some {t : AuthenticatedUserRecoveryToken} :
    self.recoveryToken = some t ↔ self.connection = .connected ∧
      self.authentication = .credentialsSubmitted ∧ self.subscription = .serverResponsive ∧
      self.generation ≠ 0 ∧ t = ⟨self.generation, self.gapVersion, self.credentialIdentity⟩ := by
  simp only [recoveryToken, recoveryIdentity, Option.filter_eq_some_iff, decide_eq_true_eq]
  constructor
  · rintro ⟨h, hs⟩
    split_ifs at h with hc
    exact ⟨hc.1, hc.2.1, hs, hc.2.2.2, (Option.some.inj h).symm⟩
  · rintro ⟨h1, h2, h3, h4, rfl⟩
    simp [h1, h2, h3, h4]

theorem recoveryToken_eq_none_of_disconnected (h : self.connection ≠ .connected) :
    self.recoveryToken = none := by
  simp [recoveryToken, recoveryIdentity, h]

/-! ## Closing on an exhausted counter -/

/-- `StateCell::fail_counter`: the first reason stays, every authority is dropped. -/
def failCounter (exhaustion : AuthenticatedUserCounterExhaustion) : AuthenticatedUserWsState :=
  { self with
    counterExhaustion :=
      if self.counterExhaustion.isNone then some exhaustion else self.counterExhaustion
    connection := .disconnected
    authentication := .inactive
    subscription := .inactive
    schemaGap := true
    deliveryGap := true
    evidenceGap := true
    catchUpGeneration := none
    restProofGeneration := none
    restCredentialAuthority := none
    restProofLivenessFloor := none }

/-- A state that was failed closed for good: nothing of its authority is left. -/
structure Closed (state : AuthenticatedUserWsState) : Prop where
  connection : state.connection = .disconnected
  authentication : state.authentication = .inactive
  subscription : state.subscription = .inactive
  schemaGap : state.schemaGap = true
  deliveryGap : state.deliveryGap = true
  evidenceGap : state.evidenceGap = true
  catchUpGeneration : state.catchUpGeneration = none
  restProofGeneration : state.restProofGeneration = none
  restCredentialAuthority : state.restCredentialAuthority = none
  restProofLivenessFloor : state.restProofLivenessFloor = none
  permanent : state.authorityPoisoned = true ∨ state.counterExhaustion.isSome

theorem failCounter_closed (exhaustion : AuthenticatedUserCounterExhaustion) :
    (self.failCounter exhaustion).Closed := by
  refine ⟨rfl, rfl, rfl, rfl, rfl, rfl, rfl, rfl, rfl, rfl, .inr ?_⟩
  cases h : self.counterExhaustion <;> simp [failCounter, h]

/-- `StateCell::advance_gap_version`, with the boolean it returns. -/
def advanceGapVersion : AuthenticatedUserWsState × Bool :=
  match checkedAdd self.gapVersion 1 with
  | none => (self.failCounter .gapVersion, false)
  | some next => ({ self with gapVersion := next }, true)

/-- The gap version moves on, or it is exhausted and the state fails closed. -/
theorem advanceGapVersion_cases :
    self.gapVersion < u64Max ∧
        self.advanceGapVersion = ({ self with gapVersion := self.gapVersion + 1 }, true) ∨
      u64Max ≤ self.gapVersion ∧
        self.advanceGapVersion = (self.failCounter .gapVersion, false) := by
  unfold advanceGapVersion
  cases h : checkedAdd self.gapVersion 1 with
  | none => right; rw [checkedAdd_eq_none] at h; exact ⟨by omega, rfl⟩
  | some next =>
    left; rw [checkedAdd_eq_some] at h; obtain ⟨h1, rfl⟩ := h; exact ⟨by omega, rfl⟩

end AuthenticatedUserWsState

end Rspm
