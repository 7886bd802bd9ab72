/-
  What the tasks of a client hold.

  `Posture` is how far a task has come with its call, read off the log.  Every
  call follows the automaton of the postures, so that a task in a posture holds
  the locks that belong to it (`Held`): the serial lock, the refresh lock, and
  a guard of the authority that is installed.
-/
import Rspm.Clob.Protocol

namespace Rspm

/-- How far a task has come with its call. -/
inductive Posture where
  /-- a submission or a preparation; an idle task is in the stance `idle` -/
  | submission (w : Stance)
  /-- it holds the refresh lock -/
  | refreshing
  /-- a refresh closed the gate -/
  | closed
  /-- a refresh derives the next generation from `installed` -/
  | derived (installed : Option AuthenticatedProtocolAuthority)
  /-- an activation holds a read guard -/
  | activating (guard : AuthenticatedClientState)

namespace Posture

def idle : Posture := .submission .idle

/-- What a task may do, and how far it has come then. -/
def next : Posture → (Σ e : ClientAct, e.Answer) → Option Posture
  | .submission w, ⟨.clob e, r⟩ => (w.next ⟨e, r⟩).map .submission
  | .submission (.fresh permit guard), ⟨.chainId, _⟩ => some (.submission (.fresh permit guard))
  | .submission (.fresh permit guard), ⟨.providerOrderId .., _⟩ =>
    some (.submission (.fresh permit guard))
  | .submission .idle, ⟨.close, _⟩ => some (.submission .idle)
  | .submission .idle, ⟨.lockRefresh, _⟩ => some .refreshing
  | .refreshing, ⟨.close, _⟩ => some .closed
  | .refreshing, ⟨.clob .readClient, guard⟩ => some (.activating guard)
  | .refreshing, ⟨.unlockRefresh, _⟩ => some .idle
  | .closed, ⟨.readInstalled, (_, installed)⟩ => some (.derived installed)
  | .derived installed, ⟨.authenticate, _⟩ => some (.derived installed)
  | .derived installed, ⟨.freshVersion, _⟩ => some (.derived installed)
  | .derived installed, ⟨.refreshBalance, _⟩ => some (.derived installed)
  | .derived installed, ⟨.install authority, _⟩ =>
    if authority.generation = installedGeneration installed + 1 then some .refreshing else none
  | .derived _, ⟨.unlockRefresh, _⟩ => some .idle
  | .activating guard, ⟨.observeVersion, _⟩ => some (.activating guard)
  | .activating guard, ⟨.activate expected, _⟩ =>
    if guard.protocolAuthority = some expected then some (.activating guard) else none
  | .activating _, ⟨.clob .dropClient, _⟩ => some .refreshing
  | _, _ => none

/-- The actions that the automaton allows, one by one. -/
inductive Next : Posture → (e : ClientAct) → e.Answer → Posture → Prop
  | clob {w w' : Stance} {e : ClobAct} {r : e.Answer} (h : w.Next e r w') :
      Next (.submission w) (.clob e) r (.submission w')
  | chainId {permit : ProtocolSubmissionPermit} {guard : AuthenticatedClientState} {r : Option ℕ} :
      Next (.submission (.fresh permit guard)) .chainId r (.submission (.fresh permit guard))
  | providerOrderId {permit : ProtocolSubmissionPermit} {guard : AuthenticatedClientState}
      {signed : SignedOrder} {chainId : ℕ} {r : Except SdkError String} :
      Next (.submission (.fresh permit guard)) (.providerOrderId signed chainId) r
        (.submission (.fresh permit guard))
  | revoke {r : Unit} : Next .idle .close r .idle
  | lock {r : Unit} : Next .idle .lockRefresh r .refreshing
  | close {r : Unit} : Next .refreshing .close r .closed
  | readClient {guard : AuthenticatedClientState} :
      Next .refreshing (.clob .readClient) guard (.activating guard)
  | unlock {r : Unit} : Next .refreshing .unlockRefresh r .idle
  | readInstalled {identity : AuthenticatedCredentialIdentity}
      {installed : Option AuthenticatedProtocolAuthority} :
      Next .closed .readInstalled (identity, installed) (.derived installed)
  | authenticate {installed : Option AuthenticatedProtocolAuthority} {r : Bool} :
      Next (.derived installed) .authenticate r (.derived installed)
  | freshVersion {installed : Option AuthenticatedProtocolAuthority} {r : Option ℕ} :
      Next (.derived installed) .freshVersion r (.derived installed)
  | refreshBalance {installed : Option AuthenticatedProtocolAuthority} {r : Bool} :
      Next (.derived installed) .refreshBalance r (.derived installed)
  | install {installed : Option AuthenticatedProtocolAuthority}
      {authority : AuthenticatedProtocolAuthority} {r : Unit}
      (h : authority.generation = installedGeneration installed + 1) :
      Next (.derived installed) (.install authority) r .refreshing
  | fail {installed : Option AuthenticatedProtocolAuthority} {r : Unit} :
      Next (.derived installed) .unlockRefresh r .idle
  | observeVersion {guard : AuthenticatedClientState}
      {r : Except ProtocolAuthorityError ProtocolVersion} :
      Next (.activating guard) .observeVersion r (.activating guard)
  | activate {guard : AuthenticatedClientState} {expected : AuthenticatedProtocolAuthority}
      {activated : Option Bool} (h : guard.protocolAuthority = some expected) :
      Next (.activating guard) (.activate expected) activated (.activating guard)
  | dropClient {guard : AuthenticatedClientState} {r : Unit} :
      Next (.activating guard) (.clob .dropClient) r .refreshing

theorem next_cases {w w' : Posture} {e : ClientAct} {r : e.Answer} (h : w.next ⟨e, r⟩ = some w') :
    Next w e r w' := by
  generalize he : (⟨e, r⟩ : Σ e : ClientAct, e.Answer) = act at h
  unfold next at h
  split at h
  all_goals cases he
  case h_1 =>
    obtain ⟨w', hw, rfl⟩ := Option.map_eq_some_iff.1 h
    exact .clob (Stance.next_cases hw)
  all_goals
    first
    | cases h
    | obtain ⟨hif, hw⟩ := Option.ite_none_right_eq_some.1 h
      cases hw
  all_goals constructor
  all_goals assumption

end Posture

/-- The automaton of the calls of a client. -/
def postures : Monitor Posture (Σ e : ClientAct, e.Answer) := ⟨Posture.next⟩

/-! ## The calls follow it -/

namespace Client

variable {α : Type}

/-- What follows the automaton from `w` and ends in `Q`. -/
abbrev Follows (Q : α → Posture → Prop) (p : Client α) (w : Posture) : Prop :=
  Prog.Follows postures Q p w

/-- A submission of the client follows the automaton of the submissions. -/
theorem follows_clob {Q : α → Stance → Prop} {p : Clob α} {w : Stance} (h : Clob.Follows Q p w) :
    Follows (fun a w' => ∃ w, w' = .submission w ∧ Q a w) (clob p) (.submission w) := by
  refine Prog.Follows.lift Posture.submission ?_ h
  intro w e r w' hnext
  exact congrArg (Option.map Posture.submission) hnext

theorem follows_prepareUnder {order : LimitOrder} {permit : ProtocolSubmissionPermit}
    {guard : AuthenticatedClientState} :
    Follows (fun _ w => ∃ w', w = .submission w' ∧ w'.Droppable permit guard)
      (prepareUnder order permit) (.submission (.fresh permit guard)) := by
  have hfresh : ∃ w', (.submission (.fresh permit guard) : Posture) = .submission w' ∧
      w'.Droppable permit guard := ⟨_, rfl, .inr (.inl rfl)⟩
  intro built
  refine ⟨.submission (.fresh permit guard), rfl, ?_⟩
  cases built with
  | error error => exact hfresh
  | ok signable =>
    intro r
    refine ⟨.submission (.fresh permit guard), rfl, ?_⟩
    cases r with
    | error error => exact hfresh
    | ok signed =>
      intro admitted
      cases admitted with
      | false =>
        refine ⟨.submission (.guarded permit guard), ?_, ?_⟩
        · exact congrArg (Option.map Posture.submission) (if_pos rfl)
        · refine (follows_clob Clob.follows_refuse_guarded).mono ?_
          rintro result _ ⟨w, rfl, -, hw⟩
          exact ⟨w, rfl, .inl hw⟩
      | true =>
        refine ⟨.submission (.fresh permit guard), ?_, ?_⟩
        · exact congrArg (Option.map Posture.submission) (if_pos rfl)
        · intro chainId
          refine ⟨.submission (.fresh permit guard), rfl, ?_⟩
          cases chainId with
          | none => exact hfresh
          | some chainId =>
            intro providerOrderId
            refine ⟨.submission (.fresh permit guard), rfl, ?_⟩
            cases providerOrderId <;> exact hfresh

theorem follows_prepareLocked {order : LimitOrder} :
    Follows (fun _ w => w = .submission .locked) (prepareLocked order) (.submission .locked) := by
  refine (follows_clob Clob.follows_submissionClient).bind ?_
  rintro result _ ⟨w, rfl, hw⟩
  rcases result with error | ⟨guard, permit⟩
  · obtain rfl : w = .locked := hw
    rfl
  · obtain rfl : w = .fresh permit guard := hw
    refine follows_prepareUnder.bind ?_
    rintro result _ ⟨w, rfl, rfl | rfl | rfl⟩ <;> exact fun _ => ⟨.submission .locked, rfl, rfl⟩

theorem follows_prepareLimitOrder (request : PrepareRequest) :
    Follows (fun _ w => w = .idle) (prepareLimitOrder request) .idle := by
  unfold prepareLimitOrder
  split
  · split
    · intro r
      refine ⟨.submission .locked, rfl, follows_prepareLocked.bind ?_⟩
      rintro result w rfl
      exact fun _ => ⟨.idle, rfl, rfl⟩
    · rfl
  · rfl

theorem follows_deriveAuthority {identity : AuthenticatedCredentialIdentity} {nextGeneration : ℕ}
    {installed : Option AuthenticatedProtocolAuthority} :
    Follows (fun result w => w = .derived installed ∧
        ∀ authority, result = .ok authority → authority.generation = nextGeneration)
      (deriveAuthority identity nextGeneration) (.derived installed) := by
  have hversion : Follows (fun _ w => w = .derived installed) freshVersionRetried
      (.derived installed) := by
    intro r
    refine ⟨.derived installed, rfl, ?_⟩
    cases r with
    | none => exact fun _ => ⟨.derived installed, rfl, rfl⟩
    | some version => rfl
  intro authenticated
  refine ⟨.derived installed, rfl, ?_⟩
  cases authenticated with
  | false => exact ⟨rfl, by simp⟩
  | true =>
    refine hversion.bind ?_
    rintro result w rfl
    cases result with
    | none => exact ⟨rfl, by simp⟩
    | some versionRaw =>
      dsimp only
      split
      · exact ⟨rfl, by simp⟩
      · refine ⟨rfl, fun authority h => ?_⟩
        unfold AuthenticatedProtocolAuthority.new at h
        split at h
        · cases h
        · cases h
          rfl

theorem follows_installRefreshed {authority : AuthenticatedProtocolAuthority}
    {installed : Option AuthenticatedProtocolAuthority}
    (h : authority.generation = installedGeneration installed + 1) :
    Follows (fun _ w => w = .refreshing ∨ w = .derived installed) (installRefreshed authority)
      (.derived installed) := by
  intro refreshed
  refine ⟨.derived installed, rfl, ?_⟩
  cases refreshed with
  | false => exact .inr rfl
  | true => exact fun _ => ⟨.refreshing, if_pos h, .inl rfl⟩

theorem follows_refreshLocked :
    Follows (fun _ w => w = .refreshing ∨ ∃ installed, w = .derived installed) refreshLocked
      .refreshing := by
  intro _
  refine ⟨.closed, rfl, ?_⟩
  rintro ⟨identity, installed⟩
  refine ⟨.derived installed, rfl, ?_⟩
  dsimp only [Prog.bind]
  split
  · exact .inr ⟨installed, rfl⟩
  · rename_i nextGeneration hnext
    refine follows_deriveAuthority.bind ?_
    rintro result w ⟨rfl, hresult⟩
    cases result with
    | error error => exact .inr ⟨installed, rfl⟩
    | ok authority =>
      have hgeneration : authority.generation = installedGeneration installed + 1 := by
        exact (hresult authority rfl).trans (checkedAdd_eq_some.1 hnext).2.symm
      exact (follows_installRefreshed hgeneration).mono fun _ w hw => hw.imp_right fun hw => ⟨_, hw⟩

theorem follows_refresh :
    Follows (fun _ w => w = .idle) refreshAuthenticatedCapitalAuthority .idle := by
  intro _
  refine ⟨.refreshing, rfl, follows_refreshLocked.bind ?_⟩
  rintro result w (rfl | ⟨installed, rfl⟩) <;> exact fun _ => ⟨.idle, rfl, rfl⟩

theorem follows_activateUnder {guard : AuthenticatedClientState}
    {expected : AuthenticatedProtocolAuthority} :
    Follows (fun _ w => w = .activating guard) (activateUnder guard expected)
      (.activating guard) := by
  unfold activateUnder
  split_ifs with hguard
  · rfl
  · intro observed
    refine ⟨.activating guard, rfl, ?_⟩
    cases observed with
    | error error => rfl
    | ok observed =>
      dsimp only [Prog.bind]
      split_ifs
      · rfl
      · intro activated
        refine ⟨.activating guard, if_pos (not_not.1 hguard), ?_⟩
        cases activated <;> rfl

theorem follows_activateIf (expected : AuthenticatedProtocolAuthority) :
    Follows (fun _ w => w = .idle) (activateAuthenticatedProtocolAuthorityIf expected) .idle := by
  intro _
  refine ⟨.refreshing, rfl, fun guard => ⟨.activating guard, rfl, follows_activateUnder.bind ?_⟩⟩
  rintro result w rfl
  exact fun _ => ⟨.refreshing, rfl, fun _ => ⟨.idle, rfl, rfl⟩⟩

/-- Every call follows the automaton. -/
theorem follows_body (policy : RetryPolicy) (call : ClientCall) :
    Follows (fun _ w => w = .idle) (call.body policy) .idle := by
  cases call with
  | submit call =>
    refine (follows_clob (Clob.follows_body policy call)).bind ?_
    rintro result _ ⟨w, rfl, rfl⟩
    rfl
  | prepare request => exact (follows_prepareLimitOrder request).bind fun _ _ hw => hw
  | refresh => exact follows_refresh.bind fun _ _ hw => hw
  | activateIf expected => exact (follows_activateIf expected).bind fun _ _ hw => hw
  | revoke => exact fun _ => ⟨.idle, rfl, rfl⟩

end Client

/-! ## What a posture holds -/

/-- The guard that is held. -/
def Stance.guard? : Stance → Option AuthenticatedClientState
  | .guarded _ guard | .fresh _ guard | .polled _ guard | .answered _ guard => some guard
  | _ => none

/-- The gate matched the permit under its guard, which is of the same authority. -/
def Stance.Bound : Stance → Prop
  | .fresh permit guard | .polled permit guard | .answered permit guard =>
    guard.protocolAuthority = some permit.authority
  | _ => True

namespace Posture

def Serial : Posture → Prop
  | .submission .idle => False
  | .submission _ => True
  | _ => False

def Refreshes : Posture → Prop
  | .submission _ => False
  | _ => True

def guard? : Posture → Option AuthenticatedClientState
  | .submission w => w.guard?
  | .activating guard => some guard
  | _ => none

/-- A refresh has closed the gate. -/
def Shut : Posture → Prop
  | .closed | .derived _ => True
  | _ => False

/-- What the task `t` holds in a posture. -/
structure Held (t : ℕ) (s : ClientState) (w : Posture) : Prop where
  serial : w.Serial → s.serialBy = some t
  refreshes : w.Refreshes → s.refreshedBy = some t
  guard : ∀ guard, w.guard? = some guard → t ∈ s.readers ∧ guard.protocolAuthority = s.installed
  shut : w.Shut → ∀ authority, s.gate.state ≠ .active authority
  derived : ∀ installed, w = .derived installed → installed = s.installed
  bound : ∀ w', w = .submission w' → w'.Bound

end Posture

/-- A gate that is closed is not active. -/
theorem ProtocolSubmissionGate.close_state (gate : ProtocolSubmissionGate)
    (authority : AuthenticatedProtocolAuthority) : gate.close.state ≠ .active authority := by
  unfold close
  split
  · simp
  · rename_i h
    simp [h]
  · rename_i h
    simp [h]

namespace ClientState

variable {s : ClientState} {t u : ℕ} {e : ClientAct} {r : e.Answer}

theorem effect_serialBy : (s.effect t e r).serialBy = s.serialBy ∨
    e = .clob .lockSubmission ∨ e = .clob .unlockSubmission := by
  cases e with
  | clob e => cases e <;> simp [effect]
  | activate expected => rcases r with _ | _ | _ <;> simp [effect]
  | _ => simp [effect]

theorem effect_refreshedBy : (s.effect t e r).refreshedBy = s.refreshedBy ∨
    e = .lockRefresh ∨ e = .unlockRefresh := by
  cases e with
  | clob e => cases e <;> simp [effect]
  | activate expected => rcases r with _ | _ | _ <;> simp [effect]
  | _ => simp [effect]

theorem effect_installed :
    (s.effect t e r).installed = s.installed ∨ ∃ authority, e = .install authority := by
  cases e with
  | clob e => cases e <;> simp [effect]
  | activate expected => rcases r with _ | _ | _ <;> simp [effect]
  | _ => simp [effect]

theorem mem_effect_readers (hu : u ≠ t) : u ∈ (s.effect t e r).readers ↔ u ∈ s.readers := by
  cases e with
  | clob e => cases e <;> simp [effect, hu]
  | activate expected => rcases r with _ | _ | _ <;> simp [effect]
  | _ => simp [effect]

theorem effect_active {authority : AuthenticatedProtocolAuthority}
    (h : (s.effect t e r).gate.state = .active authority) :
    (s.effect t e r).gate = s.gate ∨
      (⟨e, r⟩ : Σ e : ClientAct, e.Answer) = ⟨.activate authority, some true⟩ := by
  cases e with
  | clob e =>
    cases e with
    | quarantine a =>
      simp only [effect, ProtocolSubmissionGate.after, ProtocolSubmissionGate.quarantine] at h
      split at h <;> cases h
    | markIndeterminate a =>
      simp [effect, ProtocolSubmissionGate.after, ProtocolSubmissionGate.markIndeterminate] at h
    | _ => exact .inl rfl
  | close =>
    simp only [effect, ProtocolSubmissionGate.close] at h ⊢
    split at h
    · cases h
    · exact .inl rfl
    · exact .inl rfl
  | activate expected =>
    rcases r with _ | _ | _
    · exact .inl rfl
    · exact .inl rfl
    · simp only [effect, ProtocolSubmissionGate.activate, ProtocolSubmissionState.active.injEq] at h
      exact .inr (by rw [h])
  | _ => exact .inl rfl

theorem effect_log : (s.effect t e r).log = s.log := by
  cases e with
  | clob e => cases e <;> rfl
  | activate expected => rcases r with _ | _ | _ <;> rfl
  | _ => rfl

end ClientState

namespace Posture

open ClientState

variable {s : ClientState} {t u : ℕ} {e : ClientAct} {r : e.Answer} {w w' v : Posture}

theorem Next.refreshes_of_install {authority : AuthenticatedProtocolAuthority} {r : Unit}
    (h : Next w (.install authority) r w') : w.Refreshes := by
  cases h
  trivial

/-- What another task holds outlives an action of the task `t`. -/
theorem Held.theirs (h : Held u s v) (hu : u ≠ t) (ht : Held t s w) (hn : Next w e r w')
    (hp : s.Permits e r) : Held u (s.effect t e r) v where
  serial hv := by
    have hserial := h.serial hv
    rcases effect_serialBy (s := s) (t := t) (e := e) (r := r) with heq | rfl | rfl
    · rwa [heq]
    · have hp : s.serialBy = none := hp
      rw [hserial] at hp
      cases hp
    · have hw : w.Serial := by
        cases hn with | clob hn => cases hn; trivial
      have hmine := ht.serial hw
      rw [hserial] at hmine
      exact absurd (Option.some.inj hmine) hu
  refreshes hv := by
    have hrefresh := h.refreshes hv
    rcases effect_refreshedBy (s := s) (t := t) (e := e) (r := r) with heq | rfl | rfl
    · rwa [heq]
    · have hp : s.refreshedBy = none := hp
      rw [hrefresh] at hp
      cases hp
    · have hw : w.Refreshes := by
        cases hn <;> trivial
      have hmine := ht.refreshes hw
      rw [hrefresh] at hmine
      exact absurd (Option.some.inj hmine) hu
  guard guard hv := by
    obtain ⟨hmem, heq⟩ := h.guard guard hv
    refine ⟨(mem_effect_readers hu).2 hmem, ?_⟩
    rcases effect_installed (s := s) (t := t) (e := e) (r := r) with hi | ⟨authority, rfl⟩
    · rwa [hi]
    · have hp : s.readers = ∅ := hp
      rw [hp] at hmem
      simp at hmem
  shut hv authority hactive := by
    rcases effect_active hactive with heq | heq
    · rw [heq] at hactive
      exact h.shut hv authority hactive
    · cases heq
      have hmine := ht.refreshes (by cases hn; trivial)
      rw [h.refreshes (by cases v <;> trivial)] at hmine
      exact hu (Option.some.inj hmine)
  derived installed hv := by
    have heq := h.derived installed hv
    rcases effect_installed (s := s) (t := t) (e := e) (r := r) with hi | ⟨authority, rfl⟩
    · rwa [hi]
    · have hmine := ht.refreshes hn.refreshes_of_install
      rw [h.refreshes (hv ▸ trivial)] at hmine
      exact absurd (Option.some.inj hmine) hu
  bound := h.bound

theorem Held.happened (h : Held t s w) (event : ClientEvent) : Held t (s.happened event) w :=
  ⟨h.serial, h.refreshes, h.guard, h.shut, h.derived, h.bound⟩

/-- What another task holds is not released. -/
theorem Held.release (h : Held u s v) (hu : u ≠ t) : Held u (s.release t) v where
  serial hv := by
    have hserial := h.serial hv
    simp [ClientState.release, hserial, hu]
  refreshes hv := by
    have hrefresh := h.refreshes hv
    simp [ClientState.release, hrefresh, hu]
  guard guard hv := by
    obtain ⟨hmem, heq⟩ := h.guard guard hv
    exact ⟨Finset.mem_erase.2 ⟨hu, hmem⟩, heq⟩
  shut := h.shut
  derived := h.derived
  bound := h.bound

theorem held_idle : Held t s .idle where
  serial := False.elim
  refreshes := False.elim
  guard := by simp [idle, guard?, Stance.guard?]
  shut := False.elim
  derived := by simp [idle]
  bound := by simp [idle, Stance.Bound]

theorem held_refreshing (h : s.refreshedBy = some t) : Held t s .refreshing where
  serial := False.elim
  refreshes _ := h
  guard := by simp [guard?]
  shut := False.elim
  derived := by simp
  bound := by simp

/-- A submission holds the serial lock in every stance but the first, and no refresh lock. -/
theorem held_submission {w : Stance} (hserial : s.serialBy = some t)
    (hguard : ∀ guard, w.guard? = some guard →
      t ∈ s.readers ∧ guard.protocolAuthority = s.installed)
    (hbound : w.Bound) : Held t s (.submission w) where
  serial _ := hserial
  refreshes := False.elim
  guard := hguard
  shut := False.elim
  derived := by simp
  bound w' hw' := by
    obtain rfl := Posture.submission.inj hw'
    exact hbound

/-- What the task `t` holds after an action of a submission. -/
theorem Held.mine_clob {e : ClobAct} {r : e.Answer} {w w' : Stance} (h : Held t s (.submission w))
    (hn : w.Next e r w') (hp : s.Permits (.clob e) r) :
    Held t (s.effect t (.clob e) r) (.submission w') := by
  have hguard := h.guard
  have hbound := h.bound w rfl
  cases hn with
  | authorize | retry | sleep | unlock => exact held_idle
  | lock => exact held_submission rfl (by simp [Stance.guard?]) trivial
  | permit | noPermit =>
    exact held_submission (h.serial trivial) (by simp [Stance.guard?]) trivial
  | readClient =>
    refine held_submission (h.serial trivial) (fun guard hg => ?_) trivial
    cases hg
    exact ⟨Finset.mem_insert_self _ _, hp⟩
  | version | build | sign | revalidate => exact h
  | admitsGuarded hauthority =>
    split_ifs
    · exact held_submission (h.serial trivial) hguard hauthority
    · exact h
  | admitsFresh | beginPost =>
    split_ifs
    · exact held_submission (h.serial trivial) hguard hbound
    · exact held_submission (h.serial trivial) hguard trivial
  | awaitPost | admitsAnswered | quarantineAnswered | markIndeterminate =>
    exact held_submission (h.serial trivial) hguard hbound
  | quarantine hw =>
    rcases hw with rfl | rfl <;> exact held_submission (h.serial trivial) hguard trivial
  | dropClient hdrop =>
    refine held_submission ?_ (by simp [Stance.guard?]) trivial
    rcases hdrop with rfl | rfl | rfl <;> exact h.serial trivial

/-- What the task `t` holds after an action of its own. -/
theorem Held.mine (h : Held t s w) (hn : Next w e r w') (hp : s.Permits e r) :
    Held t (s.effect t e r) w' := by
  have hrefreshes := h.refreshes
  cases hn with
  | clob hn => exact h.mine_clob hn hp
  | chainId | providerOrderId | authenticate | freshVersion | refreshBalance | observeVersion =>
    exact h
  | revoke | unlock | fail => exact held_idle
  | lock => exact held_refreshing rfl
  | install | dropClient => exact held_refreshing (hrefreshes trivial)
  | close =>
    refine ⟨False.elim, hrefreshes, by simp [guard?], fun _ => ?_, by simp, by simp⟩
    exact ProtocolSubmissionGate.close_state s.gate
  | readClient =>
    refine ⟨False.elim, hrefreshes, fun guard hg => ?_, False.elim, by simp, by simp⟩
    cases hg
    exact ⟨Finset.mem_insert_self _ _, hp⟩
  | readInstalled =>
    refine ⟨False.elim, hrefreshes, by simp [guard?], h.shut, fun installed hi => ?_, by simp⟩
    cases hi
    exact (Prod.mk.inj hp).2
  | @activate _ expected activated =>
    rcases activated with _ | _ | _
    · exact h
    · exact h
    · exact ⟨False.elim, hrefreshes, h.guard, False.elim, by simp, by simp⟩

end Posture

/-! ## Custody -/

/-- How far the task `t` has come, read off the log. -/
def taskPostures (t : ℕ) : Monitor Posture ClientEvent where
  next w
    | .act u e r => if u = t then w.next ⟨e, r⟩ else some w
    | .dropped u => some (if u = t then .idle else w)

def ClientState.posture (t : ℕ) (s : ClientState) : Option Posture :=
  (taskPostures t).reads .idle s.log

namespace ClientState

variable {s : ClientState} {t u : ℕ} {e : ClientAct} {r : e.Answer} {w w' : Posture}

theorem posture_act : ((s.effect t e r).happened (.act t e r)).posture u =
    if t = u then (s.posture u).bind (postures.next · ⟨e, r⟩) else s.posture u := by
  unfold posture happened
  dsimp only
  rw [effect_log, Monitor.reads_snoc]
  split_ifs with h
  · congr 1
    funext w
    exact if_pos h
  · conv_rhs => rw [← Option.bind_fun_some ((taskPostures u).reads .idle s.log)]
    congr 1
    funext w
    exact if_neg h

theorem posture_dropped : ((s.release t).happened (.dropped t)).posture u =
    if t = u then (s.posture u).map fun _ => .idle else s.posture u := by
  unfold posture happened release
  dsimp only
  rw [Monitor.reads_snoc]
  cases (taskPostures u).reads .idle s.log with
  | none => simp
  | some w => split_ifs with h <;> simp [taskPostures, h]

end ClientState

theorem client_tracks : clientWorld.Tracks postures .idle ClientState.posture where
  does := by
    rintro t e s r s' ⟨-, rfl⟩
    refine ⟨?_, fun u hu => ?_⟩
    · rw [ClientState.posture_act, if_pos rfl]
    · rw [ClientState.posture_act, if_neg hu.symm]
  crash := by
    rintro t s s' w hw rfl
    refine ⟨?_, fun u hu => ?_⟩
    · rw [ClientState.posture_dropped, if_pos rfl, hw]
      rfl
    · rw [ClientState.posture_dropped, if_neg hu.symm]

/-- What is active is what is installed, above the quarantine, and every task holds what belongs to
    its posture. -/
structure ClientState.Custody (s : ClientState) : Prop where
  active : ∀ authority, s.gate.state = .active authority →
    s.gate.quarantinedThroughGeneration < authority.generation ∧ s.installed = some authority
  held : ∀ t w, s.posture t = some w → w.Held t s

namespace ClientState

variable {s : ClientState} {t u : ℕ} {e : ClientAct} {r : e.Answer} {w w' : Posture}

/-- The closure of an activation runs only if the gate can be activated. -/
theorem canActivate_of_permits {expected : AuthenticatedProtocolAuthority} {activated : Bool}
    (hp : s.Permits (.activate expected) (some activated)) : s.gate.canActivate expected := by
  by_contra hc
  have hnone : some activated = none := hp.2 hc
  cases hnone

/-- An allowed action keeps what is active installed. -/
theorem Custody.active_effect (h : s.Custody) (hw : s.posture t = some w) (hn : w.Next e r w')
    (hp : s.Permits e r) (authority : AuthenticatedProtocolAuthority)
    (ha : (s.effect t e r).gate.state = .active authority) :
    (s.effect t e r).gate.quarantinedThroughGeneration < authority.generation ∧
      (s.effect t e r).installed = some authority := by
  have hheld := h.held t w hw
  rcases effect_active ha with heq | heq
  · rw [heq] at ha ⊢
    obtain ⟨hlt, hi⟩ := h.active authority ha
    refine ⟨hlt, ?_⟩
    rcases effect_installed (s := s) (t := t) (e := e) (r := r) with heq | ⟨authority', rfl⟩
    · rwa [heq]
    · exact absurd ha (hheld.shut (by cases hn; trivial) authority)
  · cases heq
    have hcan := canActivate_of_permits hp
    cases hn with
    | activate hg => exact ⟨hcan.1, (hheld.guard _ rfl).2.symm.trans hg⟩

theorem custody_preserved : World.Tracks.Preserves clientWorld postures posture Custody where
  act := by
    rintro t e s r s' w w' h hw hnext ⟨hp, rfl⟩
    have hn := Posture.next_cases hnext
    refine ⟨h.active_effect hw hn hp, fun u v hv => ?_⟩
    rw [posture_act] at hv
    split_ifs at hv with hu
    · subst hu
      rw [hw] at hv
      obtain rfl : w' = v := Option.some.inj (hnext.symm.trans hv)
      exact ((h.held t w hw).mine hn hp).happened _
    · exact ((h.held u v hv).theirs (Ne.symm hu) (h.held t w hw) hn hp).happened _
  crash := by
    rintro t s s' h rfl
    refine ⟨h.active, fun u v hv => ?_⟩
    rw [posture_dropped] at hv
    split_ifs at hv with hu
    · subst hu
      obtain ⟨w, -, rfl⟩ := Option.map_eq_some_iff.1 hv
      exact Posture.held_idle.happened _
    · exact ((h.held u v hv).release (Ne.symm hu)).happened _

end ClientState

/-! ## Every configuration -/

section

variable {policy : RetryPolicy} {identity : AuthenticatedCredentialIdentity} {c c' : ClientConfig}

/-- In every reachable configuration the tasks follow the automaton. -/
theorem client_followed (h : ClientReachable policy identity c) :
    World.Tracks.Followed postures .idle ClientState.posture c :=
  client_tracks.reachable (fun _ => rfl) (Client.follows_body policy) h

/-- In every reachable configuration what is active is installed. -/
theorem client_custody (h : ClientReachable policy identity c) : c.shared.Custody := by
  refine client_tracks.invariant ClientState.custody_preserved (fun _ => rfl) ?_
    (Client.follows_body policy) h
  refine ⟨by simp, fun t w hw => ?_⟩
  obtain rfl : Posture.idle = w := Option.some.inj hw
  exact Posture.held_idle

/-- A step of the client is a call, an action that the posture of its task allows, or a task that is
    dropped. -/
theorem client_step_cases (h : ClientReachable policy identity c) (hs : ClientStep policy c c') :
    c'.shared = c.shared ∨
    (∃ t e r w w', c.shared.posture t = some w ∧ Posture.Next w e r w' ∧ c.shared.Permits e r ∧
      c'.shared = (c.shared.effect t e r).happened (.act t e r)) ∨
    ∃ t, c'.shared = (c.shared.release t).happened (.dropped t) := by
  cases hs with
  | call => exact .inl rfl
  | @act s s' task t e k r ht hd =>
    obtain ⟨w, w', hw, hnext⟩ := World.Tracks.allowed (client_followed h) ht r
    exact .inr (.inl ⟨t, e, r, w, w', hw, Posture.next_cases hnext, hd⟩)
  | @crash s s' task t hc => exact .inr (.inr ⟨t, hc⟩)

end

end Rspm
