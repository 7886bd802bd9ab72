/-
  The identity of a credential tuple.

  The identity is a digest of the three components, each behind its length.
  `credential_identity_inj`: what is fed to the digest determines the components,
  so that the identities of two tuples differ unless the digest collides on them,
  and a socket is never proven by the REST authority of another tuple.
-/
import Rspm.Lib.Framing
import Rspm.Ws.StateCell

namespace Rspm

open Framing

/-- The bytes of the key text, of the secret and of the passphrase. -/
structure Credentials where
  key : List UInt8
  secret : List UInt8
  passphrase : List UInt8
deriving DecidableEq

namespace AuthenticatedCredentialIdentity

/-- `rspm-authenticated-credential-identity-v1\0`. -/
def domain : List UInt8 :=
  ("rspm-authenticated-credential-identity-v1".toList.map fun c => UInt8.ofNat c.toNat) ++ [0]

/-- What is fed to the digest: the loop over the components. -/
def fed (credentials : Credentials) : List UInt8 :=
  [credentials.key, credentials.secret, credentials.passphrase].foldl
    (fun digest component => digest ++ bigEndian 8 component.length ++ component) domain

def fromCredentials (sha256 : List UInt8 → Vector UInt8 32) (credentials : Credentials) :
    AuthenticatedCredentialIdentity :=
  ⟨sha256 (fed credentials)⟩

end AuthenticatedCredentialIdentity

open AuthenticatedCredentialIdentity

/-- The lengths of the components fit their prefix. -/
def Credentials.Short (credentials : Credentials) : Prop :=
  credentials.key.length < 2 ^ 64 ∧ credentials.secret.length < 2 ^ 64 ∧
    credentials.passphrase.length < 2 ^ 64

instance (credentials : Credentials) : Decidable credentials.Short :=
  inferInstanceAs (Decidable (_ ∧ _ ∧ _))

/-- Two byte strings with one digest. -/
def Collides (sha256 : List UInt8 → Vector UInt8 32) (bytes bytes' : List UInt8) : Prop :=
  bytes ≠ bytes' ∧ sha256 bytes = sha256 bytes'

variable {c c' : Credentials}

/-- The components are fed as frames. -/
theorem fed_eq (credentials : Credentials) :
    fed credentials = domain ++
      [credentials.key, credentials.secret, credentials.passphrase].flatMap (frame 8) := by
  simp [fed, frame]

/-- What is fed to the digest determines the components. -/
theorem fed_inj (hc : c.Short) (hc' : c'.Short) : fed c = fed c' ↔ c = c' := by
  constructor
  · intro h
    rw [fed_eq, fed_eq] at h
    have hshort : ∀ {d : Credentials}, d.Short →
        ∀ bytes ∈ [d.key, d.secret, d.passphrase], bytes.length < 256 ^ 8 := by
      rintro d ⟨hkey, hsecret, hpassphrase⟩
      simpa using ⟨hkey, hsecret, hpassphrase⟩
    have hcomponents := frames_inj (by decide) (hshort hc) (hshort hc') (List.append_cancel_left h)
    cases c
    cases c'
    simpa using hcomponents
  · rintro rfl
    rfl

/-- Two identities are equal for equal tuples only, unless the digest collides. -/
theorem fromCredentials_inj {sha256 : List UInt8 → Vector UInt8 32} (hc : c.Short)
    (hc' : c'.Short) (hfree : ¬ Collides sha256 (fed c) (fed c')) :
    fromCredentials sha256 c = fromCredentials sha256 c' ↔ c = c' := by
  constructor
  · intro h
    have hdigest : sha256 (fed c) = sha256 (fed c') := congrArg digest h
    by_contra hne
    exact hfree ⟨fun heq => hne ((fed_inj hc hc').1 heq), hdigest⟩
  · rintro rfl
    rfl

/-- A proof under another identity is refused. -/
theorem markAuthenticatedRestProven_of_ne {cell : StateCell}
    {token : AuthenticatedUserRecoveryToken} {authority : AuthenticatedCredentialAuthority}
    (h : token.credentialIdentity ≠ authority.identity) :
    (cell.markAuthenticatedRestProven token authority).result = none := by
  have hstate : ∀ state : AuthenticatedUserWsState,
      state.markAuthenticatedRestProven token authority = (state, none) := by
    intro state
    unfold AuthenticatedUserWsState.markAuthenticatedRestProven
    rw [if_neg]
    rintro ⟨-, hsame, -⟩
    exact h hsame
  unfold StateCell.markAuthenticatedRestProven StateCell.update StateCell.lock
  simp only [hstate]
  split_ifs <;> rfl

/-- What is fed to the digest is the same for equal tuples only.  Unless the digest collides on
    two tuples, so are their identities, and the authority of one does not prove the socket of the
    other. -/
theorem credential_identity_inj (hc : c.Short) (hc' : c'.Short) :
    (fed c = fed c' ↔ c = c') ∧
    ∀ sha256, ¬ Collides sha256 (fed c) (fed c') →
      (fromCredentials sha256 c = fromCredentials sha256 c' ↔ c = c') ∧
      ∀ (cell : StateCell) (token : AuthenticatedUserRecoveryToken)
        (authority : AuthenticatedCredentialAuthority),
        token.credentialIdentity = fromCredentials sha256 c →
        authority.identity = fromCredentials sha256 c' → c ≠ c' →
          (cell.markAuthenticatedRestProven token authority).result = none := by
  refine ⟨fed_inj hc hc', ?_⟩
  intro sha256 hfree
  refine ⟨fromCredentials_inj hc hc' hfree, ?_⟩
  intro cell token authority htoken hauthority hne
  have hdiffers : token.credentialIdentity ≠ authority.identity := by
    rw [htoken, hauthority]
    exact fun hsame => hne ((fromCredentials_inj hc hc' hfree).1 hsame)
  exact markAuthenticatedRestProven_of_ne hdiffers

def sampleCredentials : Credentials where
  key := [107, 101, 121]
  secret := [115, 101, 99, 114, 101, 116]
  passphrase := [112, 97, 115, 115]

/-- The first byte of the secret has moved to the key. -/
def movedCredentials : Credentials where
  key := [107, 101, 121, 115]
  secret := [101, 99, 114, 101, 116]
  passphrase := [112, 97, 115, 115]

/-- The digest, on what is fed for these two. -/
def sampleSha256 (bytes : List UInt8) : Vector UInt8 32 :=
  if bytes = fed sampleCredentials then
    #v[168, 210, 193, 9, 155, 34, 177, 117, 240, 184, 21, 237, 164, 139, 68, 172, 190, 149, 132,
      124, 60, 21, 197, 240, 247, 233, 245, 145, 125, 187, 217, 154]
  else if bytes = fed movedCredentials then
    #v[75, 238, 180, 253, 15, 65, 136, 96, 250, 71, 54, 128, 197, 24, 244, 32, 79, 80, 117, 144,
      218, 252, 2, 39, 62, 183, 243, 183, 198, 255, 183, 42]
  else .replicate 32 0

theorem credential_identity_inj_moved :
    fed sampleCredentials ≠ fed movedCredentials ∧
      fromCredentials sampleSha256 sampleCredentials ≠
        fromCredentials sampleSha256 movedCredentials := by
  have hne : sampleCredentials ≠ movedCredentials := by decide
  have hshort : sampleCredentials.Short := by decide
  have hshort' : movedCredentials.Short := by decide
  obtain ⟨hfed, hidentity⟩ := credential_identity_inj hshort hshort'
  have hfed' : fed sampleCredentials ≠ fed movedCredentials := fun h => hne (hfed.1 h)
  have hfree : ¬ Collides sampleSha256 (fed sampleCredentials) (fed movedCredentials) := by
    rintro ⟨-, h⟩
    unfold sampleSha256 at h
    rw [if_pos rfl, if_neg hfed'.symm, if_pos rfl] at h
    exact absurd h (by decide)
  exact ⟨hfed', fun h => hne ((hidentity sampleSha256 hfree).1.1 h)⟩

end Rspm
