/-
  The protocol authority, and the gate of submissions of one client.
-/
import Rspm.Ws.State

namespace Rspm

inductive ProtocolVersion where
  | v1 | v2
deriving DecidableEq

/-- One installed SDK protocol contract and credential generation. -/
structure AuthenticatedProtocolAuthority where
  version : ProtocolVersion
  credentials : AuthenticatedCredentialAuthority
deriving DecidableEq

/-- The generation of the credentials, which is never zero. -/
def AuthenticatedProtocolAuthority.generation (self : AuthenticatedProtocolAuthority) : ℕ :=
  self.credentials.generation

structure ProtocolSubmissionPermit where
  authority : AuthenticatedProtocolAuthority
deriving DecidableEq

inductive ProtocolSubmissionState where
  | closed
  | active (authority : AuthenticatedProtocolAuthority)
  | indeterminate (authority : AuthenticatedProtocolAuthority)
deriving DecidableEq

structure ProtocolSubmissionGate where
  state : ProtocolSubmissionState := .closed
  quarantinedThroughGeneration : ℕ := 0
deriving DecidableEq

namespace ProtocolSubmissionGate

variable (gate : ProtocolSubmissionGate)

def close : ProtocolSubmissionGate :=
  match gate.state with
  | .active authority =>
    ⟨.closed, max gate.quarantinedThroughGeneration authority.generation⟩
  -- only a newer exact recovery generation may replace the indeterminate state
  | .indeterminate _ | .closed => gate

def quarantine (authority : AuthenticatedProtocolAuthority) : ProtocolSubmissionGate where
  quarantinedThroughGeneration := max gate.quarantinedThroughGeneration authority.generation
  state :=
    match gate.state with
    | .indeterminate authority' => .indeterminate authority'
    | .active _ | .closed => .closed

def markIndeterminate (authority : AuthenticatedProtocolAuthority) : ProtocolSubmissionGate :=
  ⟨.indeterminate authority, max gate.quarantinedThroughGeneration authority.generation⟩

def canActivate (authority : AuthenticatedProtocolAuthority) : Prop :=
  authority.generation > gate.quarantinedThroughGeneration ∧ ∀ a, gate.state ≠ .active a

def activate (authority : AuthenticatedProtocolAuthority) : ProtocolSubmissionGate :=
  { gate with state := .active authority }

def permit : Option ProtocolSubmissionPermit :=
  match gate.state with
  | .active authority => some ⟨authority⟩
  | .closed | .indeterminate _ => none

/-- `matches`: the permit is of the active authority, above the quarantine. -/
def admits (permit : ProtocolSubmissionPermit) : Prop :=
  gate.state = .active permit.authority ∧
    permit.authority.generation > gate.quarantinedThroughGeneration

instance (permit : ProtocolSubmissionPermit) : Decidable (gate.admits permit) :=
  inferInstanceAs (Decidable (_ ∧ _))

end ProtocolSubmissionGate

end Rspm
