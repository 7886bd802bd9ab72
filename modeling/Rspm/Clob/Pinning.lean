/-
  The protocol version that a client of the library keeps.

  The library looks the version up once: it is loaded from a cell of the client,
  and if the cell is empty, requested and stored.  The finer world takes these
  three apart, for the client that is installed and for the one that a refresh
  builds.  It refines the world of the clients (`pinned_refines`).

  `version_pinned`: whatever the tasks of a client do, the cell of the installed
  client holds the version of the authority that is installed with it; a lookup
  under this authority answers its version, an order that is built under it has
  its version, and neither of them asks the venue.
-/
import Rspm.Clob.Custody
import Rspm.Lib.Expansion

namespace Rspm

/-- The client of the library that is asked for its version. -/
inductive SdkClient where
  /-- the one that is installed, under a read guard -/
  | installed
  /-- the one that a refresh has built -/
  | fresh
deriving DecidableEq

/-- The atomic actions, where a lookup of the version is not one. -/
inductive PinnedAct where
  | client (e : ClientAct)
  | load (sdk : SdkClient)
  /-- the request for the version -/
  | getVersion (sdk : SdkClient)
  | store (sdk : SdkClient) (version : ℕ)
  /-- the checks of the order builder, before it looks the version up -/
  | check (order : LimitOrder)
  /-- the rest of the order builder -/
  | assemble (order : LimitOrder) (version : ℕ)
  /-- an action of the client that was not atomic returns -/
  | returns (e : ClientAct) (r : e.Answer)

abbrev PinnedAct.Answer : PinnedAct → Type
  | .client e => e.Answer
  | .load _ => ℕ
  | .getVersion _ => Except SdkError ℕ
  | .check _ => Except SdkError Unit
  | .assemble .. => Except SdkError SignableOrder
  | _ => Unit

abbrev Pinned := Prog PinnedAct PinnedAct.Answer

namespace Pinned

abbrev step (e : PinnedAct) : Pinned e.Answer := .perform e

/-- `resolve_version`. -/
def resolveVersion (sdk : SdkClient) : Pinned (Except SdkError ℕ) := do
  let cached ← step (.load sdk)
  if cached ≠ 0 then return .ok cached
  else
    match ← step (.getVersion sdk) with
    | .error error => return .error error
    | .ok version =>
      step (.store sdk version)
      return .ok version

/-- An action of the client ends with what it returns. -/
def return' (e : ClientAct) (r : e.Answer) : Pinned e.Answer := do
  step (.returns e r)
  return r

/-- `build`: the payload is assembled for the version that was looked up. -/
def build (order : LimitOrder) : Pinned (Except SdkError SignableOrder) := do
  match ← step (.check order) with
  | .error error => return' (.clob (.build order)) (.error error)
  | .ok () =>
    match ← resolveVersion .installed with
    | .error error => return' (.clob (.build order)) (.error error)
    | .ok version => step (.assemble order version)

/-- The program of an action of the client. -/
def expansion : (e : ClientAct) → Pinned e.Answer
  | .clob .version => do
    let r ← resolveVersion .installed
    return' (.clob .version) r
  | .clob (.build order) => build order
  | .freshVersion => do
    let r ← resolveVersion .fresh
    return' .freshVersion r.toOption
  | e => step (.client e)

end Pinned

/-! ## The shared state -/

structure PinnedState where
  client : ClientState
  /-- `cached_version` of the installed client, zero if it was not looked up -/
  cachedVersion : ℕ
  /-- `cached_version` of the client that each task has built last -/
  fresh : ℕ → ℕ
  /-- who was asked for its version at the venue, and the authority that was installed then -/
  asked : List (SdkClient × Option AuthenticatedProtocolAuthority) := []

namespace PinnedState

def cached (t : ℕ) (s : PinnedState) : SdkClient → ℕ
  | .installed => s.cachedVersion
  | .fresh => s.fresh t

def storeVersion (t version : ℕ) (s : PinnedState) : SdkClient → PinnedState
  | .installed => { s with cachedVersion := version }
  | .fresh => { s with fresh := Function.update s.fresh t version }

/-- The cells: a client that is built has not looked its version up, and is moved with its cell
    when it is installed. -/
def cells (t : ℕ) (s : PinnedState) : ClientAct → ℕ × (ℕ → ℕ)
  | .authenticate => (s.cachedVersion, Function.update s.fresh t 0)
  | .install _ => (s.fresh t, s.fresh)
  | _ => (s.cachedVersion, s.fresh)

/-- An action of the client returns `r`. -/
def returned (t : ℕ) (e : ClientAct) (r : e.Answer) (s : PinnedState) : PinnedState :=
  { s with client := s.client.happened (.act t e r) }

def does (t : ℕ) : (e : PinnedAct) → PinnedState → e.Answer → PinnedState → Prop
  | .client e, s, r, s' => ∃ client, clientWorld.does t e s.client r client ∧
      s' = { s with client, cachedVersion := (s.cells t e).1, fresh := (s.cells t e).2 }
  | .load sdk, s, cached, s' => cached = s.cached t sdk ∧ s' = s
  | .getVersion sdk, s, _, s' => s' = { s with asked := s.asked ++ [(sdk, s.client.installed)] }
  | .store sdk version, s, _, s' => s' = s.storeVersion t version sdk
  | .check _, s, _, s' => s' = s
  | .assemble order version, s, r, s' =>
    (∀ signable, r = .ok signable → signable.payload.version = version) ∧
      s' = s.returned t (.clob (.build order)) r
  | .returns e r, s, _, s' => s' = s.returned t e r

def crash (t : ℕ) (s s' : PinnedState) : Prop :=
  ∃ client, clientWorld.crash t s.client client ∧ s' = { s with client }

end PinnedState

def pinnedWorld : World PinnedAct PinnedAct.Answer PinnedState ℕ where
  does := PinnedState.does
  crash := PinnedState.crash

abbrev PinnedConfig := World.Config PinnedAct PinnedAct.Answer PinnedState ℕ

/-- What the tasks of a client reach, whatever its client of the library has looked up before. -/
abbrev PinnedReachable (policy : RetryPolicy) (identity : AuthenticatedCredentialIdentity)
    (cachedVersion : ℕ) (fresh : ℕ → ℕ) : PinnedConfig → Prop :=
  pinnedWorld.Reachable (fun call : ClientCall => (call.body policy).expand Pinned.expansion)
    ⟨{ identity }, cachedVersion, fresh, []⟩

/-! ## The refinement -/

section

variable {t : ℕ} {e : ClientAct}

/-- The end of an action that the state of the client does not need. -/
theorem completes_return (r : e.Answer) (hpermits : ∀ s : ClientState, s.Permits e r)
    (heffect : ∀ s : ClientState, s.effect t e r = s) :
    pinnedWorld.Completes clientWorld PinnedState.client t e (Pinned.return' e r) := by
  rintro s u s' rfl
  refine .inl ⟨r, rfl, hpermits _, ?_⟩
  rw [heffect]
  rfl

/-- A lookup is not seen, and ends in a program that completes the action. -/
theorem completes_resolveVersion {sdk : SdkClient}
    {f : Except SdkError ℕ → Pinned e.Answer}
    (hf : ∀ r, pinnedWorld.Completes clientWorld PinnedState.client t e (f r)) :
    pinnedWorld.Completes clientWorld PinnedState.client t e
      (Pinned.resolveVersion sdk >>= f) := by
  rintro s cached s' ⟨-, rfl⟩
  refine .inr ⟨rfl, ?_⟩
  dsimp only [Prog.bind]
  by_cases hzero : cached ≠ 0
  · rw [if_pos hzero]
    exact hf _
  · rw [if_neg hzero]
    rintro s version s' rfl
    refine .inr ⟨rfl, ?_⟩
    cases version with
    | error error => exact hf _
    | ok version =>
      rintro s u s' rfl
      refine .inr ⟨?_, hf _⟩
      cases sdk <;> rfl

theorem completes_build {order : LimitOrder} :
    pinnedWorld.Completes clientWorld PinnedState.client t (.clob (.build order))
      (Pinned.build order) := by
  have hreturn : ∀ r, pinnedWorld.Completes clientWorld PinnedState.client t
      (.clob (.build order)) (Pinned.return' (.clob (.build order)) r) :=
    fun r => completes_return (e := .clob (.build order)) r (fun _ => trivial) fun _ => rfl
  rintro s checked s' rfl
  refine .inr ⟨rfl, ?_⟩
  cases checked with
  | error error => exact hreturn _
  | ok u =>
    refine completes_resolveVersion fun r => ?_
    cases r with
    | error error => exact hreturn _
    | ok version =>
      rintro s r s' ⟨-, rfl⟩
      exact .inl ⟨r, rfl, trivial, rfl⟩

end

theorem pinnedWorld_refines :
    pinnedWorld.Refines clientWorld PinnedState.client Pinned.expansion where
  completes t e := by
    have hstep : pinnedWorld.Completes clientWorld PinnedState.client t e
        (Pinned.step (.client e)) := by
      rintro s r s' ⟨client, hdoes, rfl⟩
      exact .inl ⟨r, rfl, hdoes⟩
    cases e with
    | clob e =>
      cases e with
      | version =>
        exact completes_resolveVersion fun r =>
          completes_return (e := .clob .version) r (fun _ => trivial) fun _ => rfl
      | build order => exact completes_build
      | _ => exact hstep
    | freshVersion =>
      exact completes_resolveVersion fun r => completes_return _ (fun _ => trivial) fun _ => rfl
    | _ => exact hstep
  crash := by
    rintro t s s' ⟨client, hcrash, rfl⟩
    exact hcrash

/-! ## What is pinned -/

/-- The authority that an event installs. -/
def ClientEvent.installs : ClientEvent → Option AuthenticatedProtocolAuthority
  | .act _ (.install authority) _ => some authority
  | _ => none

/-- The authority that is installed after a log. -/
def installedAfter (log : List ClientEvent) : Option AuthenticatedProtocolAuthority :=
  log.foldl (fun installed event => event.installs <|> installed) none

theorem installedAfter_snoc (log : List ClientEvent) (event : ClientEvent) :
    installedAfter (log ++ [event]) = (event.installs <|> installedAfter log) := by
  rw [installedAfter, List.foldl_append]
  rfl

/-- A lookup answers the version of the authority, and what is built has it. -/
def ClientEvent.Pinned (authority : AuthenticatedProtocolAuthority) : ClientEvent → Prop
  | .act _ (.clob .version) r => r = .ok authority.version.asU32
  | .act _ (.clob (.build _)) r =>
    ∀ signable, r = .ok signable → signable.payload.version = authority.version.asU32
  | _ => True

namespace ClientState

theorem installed_effect {s : ClientState} {t : ℕ} {e : ClientAct} {r : e.Answer} :
    (s.effect t e r).installed = ((ClientEvent.act t e r).installs <|> s.installed) := by
  cases e with
  | clob e => cases e <;> rfl
  | activate expected => rcases r with _ | _ | _ <;> rfl
  | _ => rfl

theorem mem_effect_own {s : ClientState} {t : ℕ} {e : ClientAct} {r : e.Answer}
    (h : e = .clob .readClient ∨ t ∈ s.readers ∧ e ≠ .clob .dropClient) :
    t ∈ (s.effect t e r).readers := by
  rcases h with rfl | ⟨hmem, hne⟩
  · exact Finset.mem_insert_self ..
  · cases e with
    | clob e =>
      cases e with
      | readClient => exact Finset.mem_insert_self ..
      | dropClient => exact absurd rfl hne
      | _ => exact hmem
    | activate expected => rcases r with _ | _ | _ <;> exact hmem
    | _ => exact hmem

end ClientState

namespace PinnedState

/-- What the finer world keeps. -/
structure Pins (s : PinnedState) : Prop where
  installed : s.client.installed = installedAfter s.client.log
  cached : ∀ authority, s.client.installed = some authority →
    s.cachedVersion = authority.version.asU32
  events : ∀ before event after authority, s.client.log = before ++ event :: after →
    installedAfter before = some authority → event.Pinned authority
  asked : ∀ authority, (SdkClient.installed, some authority) ∉ s.asked

/-- What the others leave to the task `t`: its guard, what is installed under it, and the client
    that it built. -/
structure Leaves (t : ℕ) (s s' : PinnedState) : Prop where
  guard : t ∈ s.client.readers →
    t ∈ s'.client.readers ∧ s'.client.installed = s.client.installed
  fresh : s'.fresh t = s.fresh t

variable {s s' s'' : PinnedState} {t u : ℕ}

theorem Leaves.of_eq (hclient : s'.client = s.client) (hfresh : s'.fresh t = s.fresh t) :
    Leaves t s s' where
  guard hmem := by rw [hclient]; exact ⟨hmem, rfl⟩
  fresh := hfresh

theorem Leaves.trans (h : Leaves t s s') (h' : Leaves t s' s'') : Leaves t s s'' where
  guard hmem := by
    obtain ⟨hmem', heq⟩ := h.guard hmem
    obtain ⟨hmem'', heq'⟩ := h'.guard hmem'
    exact ⟨hmem'', heq'.trans heq⟩
  fresh := h'.fresh.trans h.fresh

/-- No action of another task takes them away. -/
theorem leaves_of_does {e : PinnedAct} {r : e.Answer} (h : does t e s r s') (hu : u ≠ t) :
    Leaves u s s' := by
  cases e with
  | client e =>
    obtain ⟨client, ⟨hpermits, rfl⟩, rfl⟩ := h
    refine ⟨fun hmem => ⟨(ClientState.mem_effect_readers hu).2 hmem, ?_⟩, ?_⟩
    · rcases ClientState.effect_installed (s := s.client) (t := t) (e := e) (r := r) with
        heq | ⟨authority, rfl⟩
      · exact heq
      · have hempty : s.client.readers = ∅ := hpermits
        rw [hempty] at hmem
        cases hmem
    · cases e with
      | authenticate => exact Function.update_of_ne hu ..
      | _ => rfl
  | load sdk =>
    obtain ⟨-, rfl⟩ := h
    exact .of_eq rfl rfl
  | assemble order version =>
    obtain ⟨-, rfl⟩ := h
    exact ⟨fun hmem => ⟨hmem, rfl⟩, rfl⟩
  | store sdk version =>
    cases h
    cases sdk with
    | installed => exact .of_eq rfl rfl
    | fresh => exact .of_eq rfl (Function.update_of_ne hu ..)
  | getVersion sdk | check order =>
    cases h
    exact .of_eq rfl rfl
  | returns e r =>
    cases h
    exact ⟨fun hmem => ⟨hmem, rfl⟩, rfl⟩

/-- The log grows by an event that is pinned. -/
theorem Pins.returned (h : s.Pins) {e : ClientAct} {r : e.Answer}
    (hinstalls : (ClientEvent.act t e r).installs = none)
    (hpinned : ∀ authority, s.client.installed = some authority →
      (ClientEvent.act t e r).Pinned authority) : (s.returned t e r).Pins where
  installed := by
    refine h.installed.trans ?_
    simp only [PinnedState.returned, ClientState.happened]
    rw [installedAfter_snoc, hinstalls]
    rfl
  cached := h.cached
  events before event after authority hlog hbefore := by
    rcases Monitor.split_snoc hlog with ⟨rfl, rfl⟩ | ⟨after', hlog'⟩
    · exact hpinned authority (h.installed.trans hbefore)
    · exact h.events before event after' authority hlog' hbefore
  asked := h.asked

end PinnedState

def pinnedLogic : pinnedWorld.Logic where
  inv := PinnedState.Pins
  rely := PinnedState.Leaves
  refl _ _ := .of_eq rfl rfl
  trans := PinnedState.Leaves.trans
  crash := by
    rintro t s s' h ⟨client, rfl, rfl⟩
    refine ⟨⟨?_, h.cached, fun before event after authority hlog hbefore => ?_, h.asked⟩,
      fun u hu => ⟨fun hmem => ⟨Finset.mem_erase.2 ⟨hu, hmem⟩, rfl⟩, rfl⟩⟩
    · refine h.installed.trans ?_
      simp only [ClientState.happened, ClientState.release]
      rw [installedAfter_snoc]
      rfl
    · rcases Monitor.split_snoc hlog with ⟨rfl, rfl⟩ | ⟨after', hlog'⟩
      · trivial
      · exact h.events before event after' authority hlog' hbefore

/-! ## The lookups of a refresh -/

/-- The version that the client which a refresh built has answered; the authority that is installed
    is of this version. -/
def lookups : Monitor (Option ℕ) (Σ e : ClientAct, e.Answer) where
  next version
    | ⟨.authenticate, _⟩ => some none
    | ⟨.freshVersion, r⟩ => some (r <|> version)
    | ⟨.install authority, _⟩ =>
      if version = some authority.version.asU32 then some version else none
    | _ => some version

namespace Client

variable {α : Type}

/-- An action that is none of a refresh. -/
def Unrefreshing (e : ClientAct) : Prop := ∀ r version, lookups.next version ⟨e, r⟩ = some version

theorem all_clob (p : Clob α) : (clob p).All Unrefreshing := by
  induction p with
  | ret a => trivial
  | act e k ih => exact ⟨fun _ _ => rfl, ih⟩

theorem all_prepareLimitOrder (request : PrepareRequest) :
    (prepareLimitOrder request).All Unrefreshing := by
  have hstep : ∀ e : ClobAct, Unrefreshing (.clob e) := fun _ _ _ => rfl
  have hunder : ∀ order permit, (prepareUnder order permit).All Unrefreshing := by
    intro order permit
    refine ⟨hstep _, fun built => ?_⟩
    cases built with
    | error error => trivial
    | ok signable =>
      refine ⟨hstep _, fun signed => ?_⟩
      cases signed with
      | error error => trivial
      | ok signed =>
        refine ⟨hstep _, fun admitted => ?_⟩
        cases admitted with
        | false => exact all_clob _
        | true =>
          refine ⟨fun _ _ => rfl, fun chainId => ?_⟩
          cases chainId with
          | none => trivial
          | some chainId =>
            refine ⟨fun _ _ => rfl, fun named => ?_⟩
            cases named <;> trivial
  have hlocked : ∀ order, (prepareLocked order).All Unrefreshing := by
    intro order
    refine (all_clob _).bind fun result => ?_
    cases result with
    | error error => trivial
    | ok result => exact (hunder _ _).bind fun _ => ⟨hstep _, fun _ => trivial⟩
  unfold prepareLimitOrder
  split
  · split
    · exact ⟨hstep _, fun _ => (hlocked _).bind fun _ => ⟨hstep _, fun _ => trivial⟩⟩
    · trivial
  · trivial

theorem all_activateIf (expected : AuthenticatedProtocolAuthority) :
    (activateAuthenticatedProtocolAuthorityIf expected).All Unrefreshing := by
  have hunder : ∀ guard, (activateUnder guard expected).All Unrefreshing := by
    intro guard
    unfold activateUnder
    split_ifs
    · trivial
    · refine ⟨fun _ _ => rfl, fun observed => ?_⟩
      cases observed with
      | error error => trivial
      | ok observed =>
        dsimp only [Prog.bind]
        split_ifs
        · trivial
        · refine ⟨fun _ _ => rfl, fun activated => ?_⟩
          cases activated <;> trivial
  exact ⟨fun _ _ => rfl, fun _ => ⟨fun _ _ => rfl, fun guard => (hunder guard).bind fun _ =>
    ⟨fun _ _ => rfl, fun _ => ⟨fun _ _ => rfl, fun _ => trivial⟩⟩⟩⟩

/-- A version that was accepted is the number that was read. -/
theorem asU32_of_tryFrom {value : ℕ} {version : ProtocolVersion}
    (h : ProtocolVersion.tryFrom value = some version) : version.asU32 = value := by
  unfold ProtocolVersion.tryFrom at h
  split at h <;> cases h <;> rfl

/-- The authority that is derived has the version that was looked up last. -/
theorem lookups_deriveAuthority {identity : AuthenticatedCredentialIdentity} {nextGeneration : ℕ}
    {version : Option ℕ} :
    Prog.Follows lookups (fun result version' => ∀ authority, result = .ok authority →
      version' = some authority.version.asU32) (deriveAuthority identity nextGeneration)
      version := by
  have hversion : Prog.Follows lookups (fun result version' => ∀ value, result = some value →
      version' = some value) freshVersionRetried none := by
    intro r
    refine ⟨r, by simp [lookups], ?_⟩
    cases r with
    | none => exact fun r' => ⟨r', by simp [lookups], fun _ h => h⟩
    | some value => exact fun _ h => h
  intro authenticated
  refine ⟨none, rfl, ?_⟩
  cases authenticated with
  | false => exact fun _ h => by cases h
  | true =>
    refine hversion.bind ?_
    intro result version' hresult
    cases result with
    | none => exact fun _ h => by cases h
    | some value =>
      dsimp only
      split
      · exact fun _ h => by cases h
      · rename_i version hversion
        intro authority h
        unfold AuthenticatedProtocolAuthority.new at h
        split at h
        · cases h
        · cases h
          rw [hresult value rfl]
          exact congrArg some (asU32_of_tryFrom hversion).symm

theorem lookups_refresh {version : Option ℕ} :
    Prog.Follows lookups (fun _ _ => True) refreshAuthenticatedCapitalAuthority version := by
  have hlocked : Prog.Follows lookups (fun _ _ => True) refreshLocked version := by
    intro _
    refine ⟨version, rfl, ?_⟩
    rintro ⟨identity, installed⟩
    refine ⟨version, rfl, ?_⟩
    dsimp only [Prog.bind]
    split
    · trivial
    · refine lookups_deriveAuthority.bind ?_
      intro result version' hresult
      cases result with
      | error error => trivial
      | ok authority =>
        intro refreshed
        refine ⟨version', rfl, ?_⟩
        cases refreshed with
        | false => trivial
        | true => exact fun _ => ⟨version', if_pos (hresult authority rfl), trivial⟩
  intro _
  refine ⟨version, rfl, hlocked.bind fun result version' _ => ?_⟩
  exact fun _ => ⟨version', rfl, trivial⟩

/-- Every call installs what it looked up. -/
theorem lookups_body (policy : RetryPolicy) (call : ClientCall) :
    Prog.Follows lookups (fun _ _ => True) (call.body policy) none := by
  have hall : ∀ {β : Type} {p : Client β}, p.All Unrefreshing →
      Prog.Follows lookups (fun _ _ => True) (do let _ ← p) none := by
    intro β p hp
    have hfollows := Prog.All.follows (M := lookups) (w := none) (fun e r he => he r none) hp
    refine hfollows.bind ?_
    exact fun _ _ _ => trivial
  cases call with
  | submit call => exact hall (all_clob _)
  | prepare request => exact hall (all_prepareLimitOrder request)
  | refresh =>
    refine lookups_refresh.bind ?_
    exact fun _ _ _ => trivial
  | activateIf expected => exact hall (all_activateIf expected)
  | revoke => exact fun _ => ⟨none, rfl, trivial⟩

end Client

/-! ## Safety -/

/-- What belongs to a posture of the task `t`: the guard, and the version that its client keeps. -/
structure PinnedState.Has (t : ℕ) (w : Posture × Option ℕ) (s : PinnedState) : Prop where
  guard : ∀ guard, w.1.guard? = some guard → t ∈ s.client.readers
  fresh : ∀ version, w.2 = some version → s.fresh t = version

/-- A guard that is held after an action was taken by it, or held before it. -/
theorem Posture.Next.guarded {w w' : Posture} {e : ClientAct} {r : e.Answer} (h : Next w e r w')
    {guard : AuthenticatedClientState} (hg : w'.guard? = some guard) :
    e = .clob .readClient ∨ w.guard? = some guard ∧ e ≠ .clob .dropClient := by
  cases h with
  | clob h =>
    cases h with
    | readClient => exact .inl rfl
    | admitsGuarded h =>
      split_ifs at hg <;> exact .inr ⟨hg, by simp⟩
    | admitsFresh =>
      split_ifs at hg <;> exact .inr ⟨hg, by simp⟩
    | beginPost =>
      split_ifs at hg <;> exact .inr ⟨hg, by simp⟩
    | quarantine hw =>
      rcases hw with rfl | rfl <;> exact .inr ⟨hg, by simp⟩
    | dropClient => cases hg
    | _ => exact .inr ⟨hg, by simp⟩
  | readClient => exact .inl rfl
  | dropClient => cases hg
  | _ => exact .inr ⟨hg, by simp⟩

theorem ProtocolVersion.asU32_ne_zero (version : ProtocolVersion) : version.asU32 ≠ 0 := by
  cases version <;> decide

namespace PinnedState

variable {s s' : PinnedState} {t : ℕ} {w : Posture × Option ℕ}

theorem Has.leaves (h : s.Has t w) (hl : Leaves t s s') : s'.Has t w where
  guard guard hg := (hl.guard (h.guard guard hg)).1
  fresh version hv := hl.fresh.trans (h.fresh version hv)

/-- The cell is empty only while nothing is installed. -/
theorem Pins.installed_eq_none (h : s.Pins) (hzero : s.cachedVersion = 0) :
    s.client.installed = none := by
  rw [Option.eq_none_iff_forall_ne_some]
  intro authority hinstalled
  rw [h.cached authority hinstalled] at hzero
  exact authority.version.asU32_ne_zero hzero

/-- A lookup that is answered by the venue, where nothing is installed. -/
theorem Pins.getVersion (h : s.Pins) {sdk : SdkClient}
    (hnone : sdk = .installed → s.client.installed = none) :
    ({ s with asked := s.asked ++ [(sdk, s.client.installed)] } : PinnedState).Pins where
  installed := h.installed
  cached := h.cached
  events := h.events
  asked authority hmem := by
    rcases List.mem_append.1 hmem with hmem | hmem
    · exact h.asked authority hmem
    · rw [List.mem_singleton, Prod.mk.injEq] at hmem
      obtain ⟨rfl, hinstalled⟩ := hmem
      rw [hnone rfl] at hinstalled
      cases hinstalled

end PinnedState

namespace Pinned

open PinnedState

variable {s : PinnedState} {t : ℕ} {w : Posture × Option ℕ}

/-- A lookup under a guard answers the version of what is installed. -/
theorem safe_resolveVersion_installed (hmem : t ∈ s.client.readers) :
    pinnedLogic.Safe t (fun r s' => Leaves t s s' ∧
        ∀ authority, s'.client.installed = some authority → r = .ok authority.version.asU32)
      (resolveVersion .installed) s := by
  rintro s₁ hl hi cached s₂ ⟨rfl, rfl⟩
  refine ⟨⟨hi, fun _ _ => .of_eq rfl rfl⟩, ?_⟩
  dsimp only [Prog.bind]
  by_cases hzero : s₂.cached t .installed ≠ 0
  · rw [if_pos hzero]
    exact ⟨hl, fun authority hinstalled => congrArg Except.ok (hi.cached authority hinstalled)⟩
  · rw [if_neg hzero]
    -- nothing is installed until the guard is dropped
    have hnone : ∀ s', Leaves t s₂ s' → s'.client.installed = none := fun s' hl' =>
      (hl'.guard (hl.guard hmem).1).2.trans (hi.installed_eq_none (not_not.1 hzero))
    rintro s₃ hl₃ hi₃ version s₄ rfl
    refine ⟨⟨hi₃.getVersion fun _ => hnone s₃ hl₃, fun _ _ => .of_eq rfl rfl⟩, ?_⟩
    cases version with
    | error error =>
      refine ⟨hl.trans (hl₃.trans (.of_eq rfl rfl)), fun authority hinstalled => ?_⟩
      exact absurd (hinstalled.symm.trans (hnone s₃ hl₃)) (Option.some_ne_none authority)
    | ok version =>
      rintro s₅ hl₅ hi₅ u s₆ rfl
      have hl₅' : Leaves t s₂ s₅ := hl₃.trans ⟨hl₅.guard, hl₅.fresh⟩
      have habsurd : ∀ authority, s₅.client.installed ≠ some authority := fun authority h =>
        Option.some_ne_none authority (h.symm.trans (hnone s₅ hl₅'))
      refine ⟨⟨⟨hi₅.installed, fun authority h => ?_, hi₅.events, hi₅.asked⟩,
        fun _ _ => .of_eq rfl rfl⟩, hl.trans (hl₅'.trans (.of_eq rfl rfl)), fun authority h => ?_⟩
      · exact absurd h (habsurd authority)
      · exact absurd h (habsurd authority)

/-- A lookup of a client that is not installed leaves its answer in the cell. -/
theorem safe_resolveVersion_fresh (h : s.Has t w) :
    pinnedLogic.Safe t (fun r s' => s'.Has t (w.1, r.toOption <|> w.2)) (resolveVersion .fresh)
      s := by
  rintro s₁ hl hi cached s₂ ⟨rfl, rfl⟩
  have h₂ := h.leaves hl
  refine ⟨⟨hi, fun _ _ => .of_eq rfl rfl⟩, ?_⟩
  dsimp only [Prog.bind]
  by_cases hzero : s₂.cached t .fresh ≠ 0
  · rw [if_pos hzero]
    exact ⟨h₂.guard, fun version hv => Option.some.inj hv⟩
  · rw [if_neg hzero]
    rintro s₃ hl₃ hi₃ version s₄ rfl
    refine ⟨⟨hi₃.getVersion nofun, fun _ _ => .of_eq rfl rfl⟩, ?_⟩
    have h₃ := h₂.leaves hl₃
    cases version with
    | error error => exact ⟨h₃.guard, h₃.fresh⟩
    | ok version =>
      rintro s₅ hl₅ hi₅ u s₆ rfl
      have hl₅' : Leaves t s₃ s₅ := ⟨hl₅.guard, hl₅.fresh⟩
      have h₅ := h₃.leaves hl₅'
      refine ⟨⟨⟨hi₅.installed, hi₅.cached, hi₅.events, hi₅.asked⟩,
        fun u hu => .of_eq rfl (Function.update_of_ne hu ..)⟩, h₅.guard, ?_⟩
      rintro version' hv
      cases hv
      exact Function.update_self ..

/-- The end of an action, whose answer is of what is installed. -/
theorem safe_return {e : ClientAct} {r : e.Answer} (h : s.Has t w)
    (hinstalls : (ClientEvent.act t e r).installs = none)
    (hpinned : ∀ s', Leaves t s s' → ∀ authority, s'.client.installed = some authority →
      (ClientEvent.act t e r).Pinned authority) :
    pinnedLogic.Safe t (fun r' s' => r' = r ∧ s'.Has t w) (return' e r) s := by
  rintro s₁ hl hi u s₂ rfl
  refine ⟨⟨hi.returned hinstalls (hpinned s₁ hl), fun u _ => ⟨fun hmem => ⟨hmem, rfl⟩, rfl⟩⟩,
    rfl, ?_⟩
  exact ⟨(h.leaves hl).guard, (h.leaves hl).fresh⟩

theorem safe_build {order : LimitOrder} (hmem : t ∈ s.client.readers) (h : s.Has t w) :
    pinnedLogic.Safe t (fun _ s' => s'.Has t w) (build order) s := by
  have hfail : ∀ {s : PinnedState} (error : SdkError), s.Has t w →
      pinnedLogic.Safe t (fun _ s' => s'.Has t w)
        (return' (.clob (.build order)) (.error error)) s := by
    intro s error h
    refine World.Logic.Safe.mono (fun _ _ => And.right) (safe_return h rfl ?_)
    intro s' hl authority hinstalled signable heq
    cases heq
  rintro s₁ hl hi checked s₂ rfl
  refine ⟨⟨hi, fun _ _ => .of_eq rfl rfl⟩, ?_⟩
  cases checked with
  | error error => exact hfail error (h.leaves hl)
  | ok u =>
    have hmem₂ := (hl.guard hmem).1
    refine World.Logic.Safe.bind (p := resolveVersion .installed) ?_
      (safe_resolveVersion_installed hmem₂)
    rintro r s₃ ⟨hl₃, hversion⟩
    have h₃ := (h.leaves hl).leaves hl₃
    cases r with
    | error error => exact hfail error h₃
    | ok version =>
      rintro s₄ hl₄ hi₄ r s₅ ⟨hbuilt, rfl⟩
      refine ⟨⟨hi₄.returned rfl ?_, fun u _ => ⟨fun hmem => ⟨hmem, rfl⟩, rfl⟩⟩, ?_⟩
      · intro authority hinstalled signable heq
        have hinstalled₃ := (hl₄.guard (hl₃.guard hmem₂).1).2.symm.trans hinstalled
        rw [hbuilt signable heq]
        exact Except.ok.inj (hversion authority hinstalled₃)
      · exact ⟨(h₃.leaves hl₄).guard, (h₃.leaves hl₄).fresh⟩

/-- An action that stays atomic. -/
theorem safe_client {e : ClientAct} (h : s.Has t w)
    (hallowed : ∀ r, ∃ w', (postures.both lookups).next w ⟨e, r⟩ = some w')
    (hlookup : ∀ r authority, (ClientEvent.act t e r).Pinned authority)
    (hfresh : e ≠ .freshVersion) :
    pinnedLogic.Safe t
      (fun r s' => ∀ w', (postures.both lookups).next w ⟨e, r⟩ = some w' → s'.Has t w')
      (step (.client e)) s := by
  rintro s₁ hl hi r s₂ hdoes
  have hothers : ∀ u, u ≠ t → Leaves u s₁ s₂ := fun u => leaves_of_does (e := .client e) hdoes
  obtain ⟨client, ⟨-, rfl⟩, rfl⟩ := hdoes
  have h₁ := h.leaves hl
  obtain ⟨w', hw'⟩ := hallowed r
  refine ⟨⟨⟨?_, fun authority hinstalled => ?_, fun before event after authority hlog hb => ?_,
    hi.asked⟩, hothers⟩, ?_⟩
  · simp only [ClientState.happened]
    rw [ClientState.effect_log, installedAfter_snoc, ← hi.installed]
    exact ClientState.installed_effect
  · have hnext := (Monitor.both_next.1 hw').2
    have hinstalled' : (s₁.client.effect t e r).installed = some authority := hinstalled
    rw [ClientState.installed_effect] at hinstalled'
    cases e with
    | install authority' =>
      cases hinstalled'
      obtain ⟨hversion, -⟩ := Option.ite_none_right_eq_some.1 hnext
      exact h₁.fresh _ hversion
    | _ => exact hi.cached authority hinstalled'
  · simp only [ClientState.happened, ClientState.effect_log] at hlog
    rcases Monitor.split_snoc hlog with ⟨rfl, rfl⟩ | ⟨after', hlog'⟩
    · exact hlookup r authority
    · exact hi.events before event after' authority hlog' hb
  · intro w' hw'
    obtain ⟨hposture, hnext⟩ := Monitor.both_next.1 hw'
    refine ⟨fun guard hg => ?_, fun version hv => ?_⟩
    · refine ClientState.mem_effect_own ?_
      exact ((Posture.next_cases hposture).guarded hg).imp_right fun h =>
        ⟨h₁.guard guard h.1, h.2⟩
    · cases e with
      | freshVersion => exact absurd rfl hfresh
      | authenticate =>
        rw [← Option.some.inj hnext] at hv
        cases hv
      | install authority =>
        obtain ⟨-, heq⟩ := Option.ite_none_right_eq_some.1 hnext
        rw [← Option.some.inj heq] at hv
        exact h₁.fresh version hv
      | _ =>
        rw [← Option.some.inj hnext] at hv
        exact h₁.fresh version hv

/-- A lookup and a build are under a guard, and leave the posture. -/
theorem next_clob {e : ClobAct} (he : e = .version ∨ ∃ order, e = .build order) {r : e.Answer}
    {w' : Posture × Option ℕ}
    (hw' : (postures.both lookups).next w ⟨.clob e, r⟩ = some w') :
    w' = w ∧ ∃ guard, w.1.guard? = some guard := by
  obtain ⟨v, version⟩ := w
  obtain ⟨v', version'⟩ := w'
  obtain ⟨hposture, hnext⟩ := Monitor.both_next.1 hw'
  cases hnext
  have hstep := Posture.next_cases hposture
  dsimp only at hstep
  rcases he with rfl | ⟨order, rfl⟩
  · cases hstep with
    | clob hstep =>
      cases hstep with
      | version hw =>
        rcases hw with rfl | rfl | rfl <;> exact ⟨rfl, _, rfl⟩
  · cases hstep with
    | clob hstep =>
      cases hstep
      exact ⟨rfl, _, rfl⟩

/-- The program of an action that a posture allows. -/
theorem safe_expansion {e : ClientAct}
    (hallowed : ∀ r, ∃ w', (postures.both lookups).next w ⟨e, r⟩ = some w') (h : s.Has t w) :
    pinnedLogic.Safe t
      (fun r s' => ∀ w', (postures.both lookups).next w ⟨e, r⟩ = some w' → s'.Has t w')
      (expansion e) s := by
  cases e with
  | clob e =>
    cases e with
    | version =>
      obtain ⟨w', hw'⟩ := hallowed (.error .internal)
      obtain ⟨-, guard, hguard⟩ := next_clob (.inl rfl) hw'
      have hmem := h.guard guard hguard
      refine World.Logic.Safe.bind (p := resolveVersion .installed) ?_
        (safe_resolveVersion_installed hmem)
      rintro r s₁ ⟨hl₁, hversion⟩
      refine World.Logic.Safe.mono ?_ (safe_return (h.leaves hl₁) rfl ?_)
      · rintro _ s₂ ⟨-, h₂⟩ w' hw'
        rw [(next_clob (.inl rfl) hw').1]
        exact h₂
      · intro s₂ hl₂ authority hinstalled
        exact hversion authority ((hl₂.guard (hl₁.guard hmem).1).2.symm.trans hinstalled)
    | build order =>
      obtain ⟨w', hw'⟩ := hallowed (.error .internal)
      obtain ⟨-, guard, hguard⟩ := next_clob (.inr ⟨order, rfl⟩) hw'
      refine World.Logic.Safe.mono ?_ (safe_build (h.guard guard hguard) h)
      intro r s₁ h₁ w' hw'
      rw [(next_clob (.inr ⟨order, rfl⟩) hw').1]
      exact h₁
    | _ => exact safe_client h hallowed (fun _ _ => trivial) (by simp)
  | freshVersion =>
    refine World.Logic.Safe.bind (p := resolveVersion .fresh) ?_ (safe_resolveVersion_fresh h)
    intro r s₁ h₁
    refine World.Logic.Safe.mono ?_ (safe_return h₁ rfl fun _ _ _ _ => trivial)
    rintro _ s₂ ⟨rfl, h₂⟩ w' hw'
    obtain ⟨hposture, hnext⟩ := Monitor.both_next.1 hw'
    have hversion : w'.2 = (r.toOption <|> w.2) := (Option.some.inj hnext).symm
    have hstep := Posture.next_cases hposture
    refine ⟨fun guard hg => ?_, fun version hv => h₂.fresh version (hversion.symm.trans hv)⟩
    exact h₂.guard guard ((hstep.guarded hg).resolve_left (by simp)).1
  | _ => exact safe_client h hallowed (fun _ _ => trivial) (by simp)

end Pinned

/-! ## Every configuration -/

section

variable {policy : RetryPolicy} {identity : AuthenticatedCredentialIdentity} {cachedVersion : ℕ}
  {fresh : ℕ → ℕ} {c : PinnedConfig}

/-- What the finer model reaches, the model of the clients reaches. -/
theorem pinned_refines (h : PinnedReachable policy identity cachedVersion fresh c) :
    ∃ c', ClientReachable policy identity c' ∧ c'.shared = c.shared.client := by
  obtain ⟨c', hc', hshared, -⟩ := pinnedWorld_refines.reachable h
  exact ⟨c', hc', hshared⟩

theorem pinned_invariant (h : PinnedReachable policy identity cachedVersion fresh c) :
    c.shared.Pins := by
  refine (pinnedLogic.reachable ⟨rfl, ?_, ?_, ?_⟩ (fun call t s _ => ?_) h).1
  · intro authority hinstalled
    cases hinstalled
  · intro before event after authority hlog
    cases before <;> cases hlog
  · intro authority hmem
    cases hmem
  · have hfollows := (Client.follows_body policy call).both (Client.lookups_body policy call)
    have hidle : s.Has t (Posture.idle, none) := by
      constructor
      · intro guard hg
        cases hg
      · intro version hv
        cases hv
    exact World.Logic.Safe.mono (fun _ _ _ => trivial)
      (World.Logic.Safe.expand (fun _ _ _ => Pinned.safe_expansion) hfollows hidle)

/-- In every configuration the cell holds the version of the installed authority; in every log a
    lookup under an authority answers its version, and what is built has it; and the venue is not
    asked under an authority. -/
theorem version_pinned (h : PinnedReachable policy identity cachedVersion fresh c) :
    (∀ authority, c.shared.client.installed = some authority →
      c.shared.cachedVersion = authority.version.asU32) ∧
    (∀ before after authority, c.shared.client.log = before ++ after →
      installedAfter before = some authority →
      (∀ t r rest, after = .act t (.clob .version) r :: rest →
        r = .ok authority.version.asU32) ∧
      ∀ t order signable rest, after = .act t (.clob (.build order)) (.ok signable) :: rest →
        signable.payload.version = authority.version.asU32) ∧
    ∀ authority, (SdkClient.installed, some authority) ∉ c.shared.asked := by
  have hpins := pinned_invariant h
  refine ⟨hpins.cached, fun before after authority hlog hbefore => ⟨?_, ?_⟩, hpins.asked⟩
  · rintro t r rest rfl
    exact hpins.events before _ rest authority hlog hbefore
  · rintro t order signable rest rfl
    exact hpins.events before _ rest authority hlog hbefore signable rfl

end

/-! ## A refresh -/

/-- The authority of the first refresh of a client, at a venue of the second version. -/
def firstAuthority : AuthenticatedProtocolAuthority := ⟨.v2, {}, 1, one_ne_zero⟩

/-- What it leaves; the library had not looked the version up. -/
def refreshed : PinnedState where
  client := {
    gate := ({} : ProtocolSubmissionGate).close
    installed := some firstAuthority
    log := [.act 0 .lockRefresh (), .act 0 .close (), .act 0 .readInstalled ({}, none),
      .act 0 .authenticate true, .act 0 .freshVersion (some 2), .act 0 .refreshBalance true,
      .act 0 (.install firstAuthority) (), .act 0 .unlockRefresh ()] }
  cachedVersion := 2
  fresh := Function.update (Function.update (fun _ => 0) 0 0) 0 2
  asked := [(.fresh, none)]

theorem solo_client {t : ℕ} {e : ClientAct} (r : e.Answer) {s s' : PinnedState}
    {k : e.Answer → Pinned Unit} {a : Unit} (hpermits : s.client.Permits e r)
    (h : pinnedWorld.Solo t (k r) { s with
      client := (s.client.effect t e r).happened (.act t e r)
      cachedVersion := (s.cells t e).1, fresh := (s.cells t e).2 } a s') :
    pinnedWorld.Solo t (.act (.client e) k) s a s' := by
  have hdoes : pinnedWorld.does t (.client e) s r _ := ⟨_, ⟨hpermits, rfl⟩, rfl⟩
  exact .act hdoes h

theorem refreshed_reachable :
    PinnedReachable .default {} 0 (fun _ => 0) ⟨refreshed, fun _ => .ret ()⟩ := by
  refine World.Reachable.solo (t := 0) (ClientCall.refresh) .refl ?_
  refine solo_client (e := .lockRefresh) () rfl ?_
  refine solo_client (e := .close) () trivial ?_
  refine solo_client (e := .readInstalled) ({}, none) rfl ?_
  refine solo_client (e := .authenticate) true trivial ?_
  refine .act (r := (0 : ℕ)) ⟨rfl, rfl⟩ ?_
  refine .act (r := Except.ok 2) rfl ?_
  refine .act (r := ()) rfl ?_
  refine .act (r := ()) rfl ?_
  refine solo_client (e := .refreshBalance) true trivial ?_
  refine solo_client (e := .install firstAuthority) () rfl ?_
  refine solo_client (e := .unlockRefresh) () trivial ?_
  exact .ret () _

/-- The authority is activated. -/
def refreshedActive : PinnedState where
  client := {
    gate := ({} : ProtocolSubmissionGate).close.activate firstAuthority
    installed := some firstAuthority
    log := refreshed.client.log ++ Client.activateEvents 0 firstAuthority }
  cachedVersion := 2
  fresh := refreshed.fresh
  asked := refreshed.asked

theorem refreshedActive_reachable :
    PinnedReachable .default {} 0 (fun _ => 0) ⟨refreshedActive, fun _ => .ret ()⟩ := by
  refine World.Reachable.solo (t := 0) (ClientCall.activateIf firstAuthority)
    refreshed_reachable ?_
  have hcan : ({} : ProtocolSubmissionGate).close.canActivate firstAuthority := by
    refine ⟨by decide, ?_⟩
    rintro _ ⟨⟩
  refine solo_client (e := .lockRefresh) () rfl ?_
  refine solo_client (e := .clob .readClient) ⟨some firstAuthority⟩ rfl ?_
  refine solo_client (e := .observeVersion) (.ok .v2) trivial ?_
  refine solo_client (e := .activate firstAuthority) (some true)
    (iff_of_false (by simp) (not_not.2 hcan)) ?_
  refine solo_client (e := .clob .dropClient) () trivial ?_
  refine solo_client (e := .unlockRefresh) () trivial ?_
  exact .ret () _

/-- An order that is prepared under the authority. -/
def pinnedRequest : PrepareRequest := ⟨⟨some 42, some (1 / 2), some 10⟩, .buy, .gtc, "marker"⟩

def pinnedOrder : LimitOrder := ⟨42, 1 / 2, 10, .buy, some .gtc, true⟩

def pinnedPermit : ProtocolSubmissionPermit := ⟨firstAuthority⟩

/-- The events of its preparation up to the lookup, and from there up to its end: the order is
    built, and is refused a signature. -/
def lookupEvents : List ClientEvent :=
  [.act 0 (.clob .lockSubmission) (), .act 0 (.clob .permit) (some pinnedPermit),
    .act 0 (.clob .readClient) ⟨some firstAuthority⟩]

def buildEvents : List ClientEvent :=
  [.act 0 (.clob .version) (.ok 2), .act 0 (.clob (.admits pinnedPermit)) true,
    .act 0 (.clob (.build pinnedOrder)) (.ok ⟨.v2⟩),
    .act 0 (.clob (.sign ⟨.v2⟩)) (.error .internal), .act 0 (.clob .dropClient) (),
    .act 0 (.clob .unlockSubmission) ()]

def refreshedPrepared : PinnedState := { refreshedActive with
  client := { refreshedActive.client with
    log := refreshedActive.client.log ++ lookupEvents ++ buildEvents } }

theorem prepareLimitOrder_pinned : Client.prepareLimitOrder pinnedRequest = (do
    Client.step (.clob .lockSubmission)
    let result ← Client.prepareLocked pinnedOrder
    Client.step (.clob .unlockSubmission)
    return result) := by
  rw [Client.prepareLimitOrder, if_pos (by decide)]
  rfl

theorem refreshedPrepared_reachable :
    PinnedReachable .default {} 0 (fun _ => 0) ⟨refreshedPrepared, fun _ => .ret ()⟩ := by
  refine World.Reachable.solo (t := 0) (ClientCall.prepare pinnedRequest)
    refreshedActive_reachable ?_
  rw [ClientCall.body, prepareLimitOrder_pinned]
  have hadmits : true = decide (refreshedActive.client.gate.admits pinnedPermit) := by decide
  have hversion : ∀ signable : SignableOrder,
      (Except.ok ⟨.v2⟩ : Except SdkError SignableOrder) = .ok signable →
      signable.payload.version = 2 := by
    rintro _ ⟨⟩
    rfl
  refine solo_client (e := .clob .lockSubmission) () rfl ?_
  refine solo_client (e := .clob .permit) (some pinnedPermit) rfl ?_
  refine solo_client (e := .clob .readClient) ⟨some firstAuthority⟩ rfl ?_
  -- the lookup
  refine .act (r := (2 : ℕ)) ⟨rfl, rfl⟩ ?_
  refine .act (r := ()) rfl ?_
  refine solo_client (e := .clob (.admits pinnedPermit)) true hadmits ?_
  -- the build
  refine .act (r := Except.ok ()) rfl ?_
  refine .act (r := (2 : ℕ)) ⟨rfl, rfl⟩ ?_
  refine .act (r := Except.ok ⟨.v2⟩) ⟨hversion, rfl⟩ ?_
  refine solo_client (e := .clob (.sign ⟨.v2⟩)) (.error .internal) trivial ?_
  refine solo_client (e := .clob .dropClient) () trivial ?_
  refine solo_client (e := .clob .unlockSubmission) () trivial ?_
  exact .ret () _

/-- The lookup of the preparation answers the version that the refresh looked up, its order is of
    this version, and the venue was asked by the refresh alone. -/
theorem version_pinned_prepared : ∃ c : PinnedConfig,
    PinnedReachable .default {} 0 (fun _ => 0) c ∧
      c.shared.client.installed = some firstAuthority ∧ c.shared.cachedVersion = 2 ∧
      (∃ r, .act 0 (.clob .version) r ∈ c.shared.client.log ∧ r = .ok 2) ∧
      (∃ signable, .act 0 (.clob (.build pinnedOrder)) (.ok signable) ∈ c.shared.client.log ∧
        signable.payload.version = 2) ∧
      (SdkClient.installed, some firstAuthority) ∉ c.shared.asked := by
  obtain ⟨hcached, hlog, hasked⟩ := version_pinned refreshedPrepared_reachable
  have hlookup := (hlog (refreshedActive.client.log ++ lookupEvents) buildEvents firstAuthority
    rfl rfl).1 0 _ _ rfl
  have hbuild := (hlog (refreshedActive.client.log ++ lookupEvents ++ buildEvents.take 2)
    (buildEvents.drop 2) firstAuthority (by simp [refreshedPrepared]) rfl).2 0 _ _ _ rfl
  refine ⟨_, refreshedPrepared_reachable, rfl, hcached firstAuthority rfl, ⟨_, ?_, hlookup⟩,
    ⟨_, ?_, hbuild⟩, hasked firstAuthority⟩
  · simp [refreshedPrepared, buildEvents]
  · simp [refreshedPrepared, buildEvents]

theorem pinned_refines_refreshed :
    ∃ c, ClientReachable .default {} c ∧ c.shared = refreshed.client :=
  pinned_refines refreshed_reachable

end Rspm
