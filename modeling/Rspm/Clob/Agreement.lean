/-
  The gate of a client and the authority that it has installed.

  Every step of a client moves the gate as one of `Moves` or leaves it, so that
  what a gate keeps under `Moves` holds over whole runs of any number of tasks.
  A refresh and an activation that fail publish nothing (`Publishes`): neither
  an installation nor a permit.
-/
import Rspm.Clob.Custody
import Rspm.Clob.Indeterminate

namespace Rspm

/-! ## The gate along a run -/

namespace ProtocolSubmissionGate

variable {gate gate' : ProtocolSubmissionGate}

theorem Moves.quarantined_le (h : gate.Moves gate') :
    gate.quarantinedThroughGeneration ≤ gate'.quarantinedThroughGeneration := by
  cases h with
  | close =>
    unfold ProtocolSubmissionGate.close
    split <;> simp
  | quarantine authority => exact le_max_left _ _
  | markIndeterminate authority => exact le_max_left _ _
  | activate authority => exact le_rfl

/-- An indeterminate gate stays so, or a newer generation is activated. -/
theorem Moves.indeterminate (h : gate.Moves gate') {authority : AuthenticatedProtocolAuthority}
    (hs : gate.state = .indeterminate authority) :
    (∃ authority', gate'.state = .indeterminate authority') ∨
      ∃ authority', gate'.state = .active authority' ∧
        gate.quarantinedThroughGeneration < authority'.generation := by
  cases h with
  | close => exact .inl ⟨authority, by simp [ProtocolSubmissionGate.close, hs]⟩
  | quarantine authority' => exact .inl ⟨authority, by simp [ProtocolSubmissionGate.quarantine, hs]⟩
  | markIndeterminate authority' => exact .inl ⟨authority', rfl⟩
  | activate authority' hcan => exact .inr ⟨authority', rfl, hcan.1⟩

theorem permit_eq_some {permit : ProtocolSubmissionPermit} :
    gate.permit = some permit ↔ gate.state = .active permit.authority := by
  unfold ProtocolSubmissionGate.permit
  cases gate.state with
  | active authority =>
    simp only [Option.some.injEq, ProtocolSubmissionState.active.injEq]
    constructor
    · rintro rfl
      rfl
    · rintro rfl
      rfl
  | closed | indeterminate => simp

theorem closedThrough_close {authority : AuthenticatedProtocolAuthority}
    (h : gate.state = .active authority) : gate.close.ClosedThrough authority.generation :=
  ⟨by simp [close, h], fun a ha => absurd ha (close_state gate a)⟩

theorem ClosedThrough.mono {generation generation' : ℕ} (h : gate.ClosedThrough generation)
    (hle : generation' ≤ generation) : gate.ClosedThrough generation' :=
  ⟨hle.trans h.1, fun authority ha => hle.trans_lt (h.2 authority ha)⟩

theorem ClosedThrough.moves {generation : ℕ} (h : gate.ClosedThrough generation)
    (hs : Relation.ReflTransGen Moves gate gate') : gate'.ClosedThrough generation := by
  induction hs with
  | refl => exact h
  | tail _ hstep ih => exact hstep.closedThrough ih

theorem quarantined_le (hs : Relation.ReflTransGen Moves gate gate') :
    gate.quarantinedThroughGeneration ≤ gate'.quarantinedThroughGeneration := by
  induction hs with
  | refl => exact le_rfl
  | tail _ hstep ih => exact ih.trans hstep.quarantined_le

end ProtocolSubmissionGate

namespace ClientState

variable {s : ClientState} {t : ℕ} {e : ClientAct} {r : e.Answer}

/-- What an action does to the gate is one of its moves. -/
theorem effect_moves (hp : s.Permits e r) :
    (s.effect t e r).gate = s.gate ∨ s.gate.Moves (s.effect t e r).gate := by
  cases e with
  | clob e =>
    cases e with
    | quarantine authority => exact .inr (.quarantine authority)
    | markIndeterminate authority => exact .inr (.markIndeterminate authority)
    | _ => exact .inl rfl
  | close => exact .inr .close
  | activate expected =>
    rcases r with _ | _ | _
    · exact .inl rfl
    · exact .inl rfl
    · exact .inr (.activate expected (canActivate_of_permits hp))
  | _ => exact .inl rfl

end ClientState

section

variable {policy : RetryPolicy} {identity : AuthenticatedCredentialIdentity} {c c' : ClientConfig}

/-- A step of a client leaves the gate, or is one of its moves. -/
theorem client_step_moves (h : ClientReachable policy identity c) (hs : ClientStep policy c c') :
    c'.shared.gate = c.shared.gate ∨ c.shared.gate.Moves c'.shared.gate := by
  rcases client_step_cases h hs with heq | ⟨t, e, r, w, w', -, -, hp, heq⟩ | ⟨t, heq⟩
  · exact .inl (congrArg ClientState.gate heq)
  · rw [heq]
    exact ClientState.effect_moves hp
  · rw [heq]
    exact .inl rfl

theorem client_moves (h : ClientReachable policy identity c)
    (hs : Relation.ReflTransGen (ClientStep policy) c c') :
    Relation.ReflTransGen ProtocolSubmissionGate.Moves c.shared.gate c'.shared.gate := by
  induction hs with
  | refl => exact .refl
  | tail hs hstep ih =>
    rcases client_step_moves (h.trans hs) hstep with heq | hmoves
    · rwa [heq]
    · exact ih.tail hmoves

/-- A gate that is closed for a generation stays so. -/
theorem client_closedThrough (h : ClientReachable policy identity c)
    (hs : Relation.ReflTransGen (ClientStep policy) c c') {generation : ℕ}
    (hc : c.shared.gate.ClosedThrough generation) : c'.shared.gate.ClosedThrough generation :=
  hc.moves (client_moves h hs)

theorem client_quarantined_le (h : ClientReachable policy identity c)
    (hs : Relation.ReflTransGen (ClientStep policy) c c') :
    c.shared.gate.quarantinedThroughGeneration ≤ c'.shared.gate.quarantinedThroughGeneration :=
  ProtocolSubmissionGate.quarantined_le (client_moves h hs)

/-- An installation is of the next generation. -/
theorem client_installed (h : ClientReachable policy identity c) (hs : ClientStep policy c c') :
    c'.shared.installed = c.shared.installed ∨ ∃ authority,
      c'.shared.installed = some authority ∧
        authority.generation = installedGeneration c.shared.installed + 1 := by
  rcases client_step_cases h hs with heq | ⟨t, e, r, w, w', hw, hn, -, heq⟩ | ⟨t, heq⟩
  · exact .inl (congrArg ClientState.installed heq)
  · rw [heq]
    rcases ClientState.effect_installed (s := c.shared) (t := t) (e := e) (r := r) with
      heq | ⟨authority, rfl⟩
    · exact .inl heq
    · cases hn with
      | @install installed _ _ hgeneration =>
        have hi := ((client_custody h).held t _ hw).derived installed rfl
        exact .inr ⟨authority, rfl, hi ▸ hgeneration⟩
  · rw [heq]
    exact .inl rfl

end

/-! ## Calls that fail -/

/-- The event installs an authority, or makes one active. -/
def ClientEvent.Publishes : ClientEvent → Prop
  | .act _ (.install _) _ => True
  | .act _ (.activate _) (some true) => True
  | _ => False

def ClientEvent.task : ClientEvent → ℕ
  | .act t _ _ => t
  | .dropped t => t

/-- Other tasks do anything, and say so. -/
def ClientState.Others (t : ℕ) (s s' : ClientState) : Prop :=
  ∃ event : ClientEvent, event.task ≠ t ∧ s'.log = s.log ++ [event]

/-- The program `p` of the task `t` ends with `a`, among others. -/
def ClientRun {α : Type} (t : ℕ) (p : Client α) (s : ClientState) (a : α) (s' : ClientState) :
    Prop :=
  clientWorld.Run t (ClientState.Others t) (p, { s with log := [] }) (.ret a, s')

/-- It reads whether something was published. -/
def publications : Monitor Bool (Σ e : ClientAct, e.Answer) where
  next published
    | ⟨.install _, _⟩ => some true
    | ⟨.activate _, some true⟩ => some true
    | _ => some published

theorem publications_next (published : Bool) (t : ℕ) (e : ClientAct) (r : e.Answer) :
    ∃ published', publications.next published ⟨e, r⟩ = some published' ∧
      (published' = true ↔ published = true ∨ (ClientEvent.act t e r).Publishes) := by
  cases e with
  | install authority => exact ⟨true, rfl, by simp [ClientEvent.Publishes]⟩
  | activate expected =>
    rcases r with _ | _ | _
    · exact ⟨published, rfl, by simp [ClientEvent.Publishes]⟩
    · exact ⟨published, rfl, by simp [ClientEvent.Publishes]⟩
    · exact ⟨true, rfl, by simp [ClientEvent.Publishes]⟩
  | _ => exact ⟨published, rfl, by simp [ClientEvent.Publishes]⟩

/-- The task has published something. -/
def ClientState.HasPublished (t : ℕ) (s : ClientState) : Prop :=
  ∃ event ∈ s.log, event.task = t ∧ event.Publishes

open Classical in
/-- The program that failed has published nothing, whatever the others did. -/
theorem not_hasPublished {α : Type} {p q : Client α} {Q : α → Bool → Prop} {t : ℕ}
    {s s' : ClientState} (h : clientWorld.Run t (ClientState.Others t) (p, s) (q, s'))
    (hs : ¬ s.HasPublished t) (hp : Prog.Follows publications Q p false) :
    ∃ published, (published = true ↔ s'.HasPublished t) ∧
      Prog.Follows publications Q q published := by
  have hrun := World.follows_run (M := publications)
    (fun s : ClientState => some (decide (s.HasPublished t))) ?_ ?_ h (by simp [hs]) hp
  · obtain ⟨published, hview, hfollows⟩ := hrun
    refine ⟨published, ?_, hfollows⟩
    rw [← Option.some.inj hview]
    simp
  · rintro e s r s' ⟨-, rfl⟩
    obtain ⟨published', hnext, hiff⟩ :=
      publications_next (decide (s.HasPublished t)) t e r
    refine Eq.trans ?_ hnext.symm
    congr 1
    rw [Bool.eq_iff_iff, hiff, decide_eq_true_iff, decide_eq_true_iff]
    simp only [ClientState.HasPublished, ClientState.happened, ClientState.effect_log,
      List.mem_append, List.mem_singleton]
    constructor
    · rintro ⟨event, hm | rfl, htask, hpub⟩
      · exact .inl ⟨event, hm, htask, hpub⟩
      · exact .inr hpub
    · rintro (⟨event, hm, htask, hpub⟩ | hpub)
      · exact ⟨event, .inl hm, htask, hpub⟩
      · exact ⟨_, .inr rfl, rfl, hpub⟩
  · rintro s s' ⟨event, htask, hlog⟩
    congr 2
    simp only [ClientState.HasPublished, hlog, List.mem_append, List.mem_singleton, eq_iff_iff]
    constructor
    · rintro ⟨event', hm | rfl, htask', hpub⟩
      · exact ⟨event', hm, htask', hpub⟩
      · exact absurd htask' htask
    · rintro ⟨event', hm, htask', hpub⟩
      exact ⟨event', .inl hm, htask', hpub⟩

namespace Client

variable {α : Type}

/-- If the program fails as `failed` says, it has published nothing. -/
abbrev Quiet (failed : α → Prop) (p : Client α) : Prop :=
  Prog.Follows publications (fun a published => failed a → published = false) p false

theorem quiet_deriveAuthority {identity : AuthenticatedCredentialIdentity} {nextGeneration : ℕ} :
    Quiet (fun _ => True) (deriveAuthority identity nextGeneration) := by
  have hversion : Quiet (fun _ => True) freshVersionRetried := by
    intro version
    refine ⟨false, rfl, ?_⟩
    cases version with
    | none => exact fun _ => ⟨false, rfl, fun _ => rfl⟩
    | some versionRaw => exact fun _ => rfl
  intro authenticated
  refine ⟨false, rfl, ?_⟩
  cases authenticated with
  | false => exact fun _ => rfl
  | true =>
    refine hversion.bind ?_
    intro version published hquiet
    cases version with
    | none => exact hquiet
    | some versionRaw =>
      dsimp only
      split <;> exact hquiet

theorem quiet_refresh : Quiet (fun result => ∃ error, result = .error error)
    refreshAuthenticatedCapitalAuthority := by
  refine fun _ => ⟨false, rfl, ?_⟩
  have hlocked : Quiet (fun result => ∃ error, result = .error error) refreshLocked := by
    refine fun _ => ⟨false, rfl, fun installed => ⟨false, rfl, ?_⟩⟩
    dsimp only [Prog.bind]
    split
    · exact fun _ => rfl
    · refine quiet_deriveAuthority.bind ?_
      intro result published hquiet
      cases result with
      | error error => exact fun _ => hquiet trivial
      | ok authority =>
        obtain rfl := hquiet trivial
        intro refreshed
        refine ⟨false, rfl, ?_⟩
        cases refreshed with
        | false => exact fun _ => rfl
        | true =>
          refine fun _ => ⟨true, rfl, ?_⟩
          rintro ⟨error, h⟩
          cases h
  exact hlocked.bind fun result published hquiet _ => ⟨published, rfl, hquiet⟩

theorem quiet_activateIf (expected : AuthenticatedProtocolAuthority) :
    Quiet (fun result => result ≠ .ok true)
      (activateAuthenticatedProtocolAuthorityIf expected) := by
  refine fun _ => ⟨false, rfl, fun guard => ⟨false, rfl, ?_⟩⟩
  have hunder : Quiet (fun result => result ≠ .ok true) (activateUnder guard expected) := by
    unfold activateUnder
    split_ifs
    · exact fun _ => rfl
    · intro observed
      refine ⟨false, rfl, ?_⟩
      cases observed with
      | error error => exact fun _ => rfl
      | ok observed =>
        dsimp only [Prog.bind]
        split_ifs
        · exact fun _ => rfl
        · intro activated
          rcases activated with _ | _ | _
          · exact ⟨false, rfl, fun _ => rfl⟩
          · exact ⟨false, rfl, fun _ => rfl⟩
          · exact ⟨true, rfl, fun hne => absurd rfl hne⟩
  exact hunder.bind fun result published hquiet _ =>
    ⟨published, rfl, fun _ => ⟨published, rfl, hquiet⟩⟩

end Client

/-- A call that fails has published nothing. -/
theorem ClientRun.not_publishes {α : Type} {failed : α → Prop} {p : Client α} {t : ℕ}
    {s s' : ClientState} {a : α} (h : ClientRun t p s a s') (hq : Client.Quiet failed p)
    (hf : failed a) : ∀ event ∈ s'.log, event.task = t → ¬ event.Publishes := by
  obtain ⟨published, hiff, hquiet⟩ := not_hasPublished h (by simp [ClientState.HasPublished]) hq
  have hnot : ¬ s'.HasPublished t := by
    rw [← hiff, show published = false from hquiet hf]
    exact Bool.false_ne_true
  exact fun event hm htask hpub => hnot ⟨event, hm, htask, hpub⟩

/-! ## The agreement -/

/-- The event closes the gate for the authority. -/
def ClientEvent.Closes (gate : ProtocolSubmissionGate)
    (authority : AuthenticatedProtocolAuthority) : ClientEvent → Prop
  | .act _ .close _ => gate.state = .active authority
  | .act _ (.clob (.quarantine authority')) _ => authority' = authority
  | .act _ (.clob (.markIndeterminate authority')) _ => authority' = authority
  | _ => False

theorem ClientEvent.Closes.closedThrough
    {authority : AuthenticatedProtocolAuthority} {t : ℕ} {e : ClientAct} {r : e.Answer}
    {s : ClientState} (h : (ClientEvent.act t e r).Closes s.gate authority) :
    (s.effect t e r).gate.ClosedThrough authority.generation := by
  cases e with
  | clob e =>
    cases e with
    | quarantine authority' =>
      obtain rfl : authority' = authority := h
      exact ProtocolSubmissionGate.closedThrough_quarantine le_rfl
    | markIndeterminate authority' =>
      obtain rfl : authority' = authority := h
      exact ProtocolSubmissionGate.closedThrough_markIndeterminate le_rfl
    | _ => exact h.elim
  | close => exact ProtocolSubmissionGate.closedThrough_close h
  | _ => exact h.elim

/-- The gate and the installed authority agree, and every step keeps what was closed closed. -/
structure ClientAgrees (policy : RetryPolicy) (c : ClientConfig) : Prop where
  active : ∀ authority, c.shared.gate.state = .active authority →
    c.shared.gate.quarantinedThroughGeneration < authority.generation ∧
      c.shared.installed = some authority
  quarantined : ∀ c', Relation.ReflTransGen (ClientStep policy) c c' →
    c.shared.gate.quarantinedThroughGeneration ≤ c'.shared.gate.quarantinedThroughGeneration
  installed : ∀ c', ClientStep policy c c' → c'.shared.installed = c.shared.installed ∨
    ∃ authority, c'.shared.installed = some authority ∧
      ∀ authority', c.shared.installed = some authority' →
        authority'.generation < authority.generation
  closed : ∀ c' event authority, ClientStep policy c c' →
    c'.shared.log = c.shared.log ++ [event] → event.Closes c.shared.gate authority →
      ∀ c'', Relation.ReflTransGen (ClientStep policy) c' c'' →
        ∀ permit : ProtocolSubmissionPermit, permit.authority.generation ≤ authority.generation →
          ¬ c''.shared.gate.admits permit
  indeterminate : ∀ c' authority, ClientStep policy c c' →
    c.shared.gate.state = .indeterminate authority →
      (∃ authority', c'.shared.gate.state = .indeterminate authority') ∨
        ∃ authority', c'.shared.gate.state = .active authority' ∧
          c.shared.gate.quarantinedThroughGeneration < authority'.generation
  /-- only what is published changes what is installed, or hands out a permit -/
  published : ∀ c', ClientStep policy c c' →
    (c'.shared.installed ≠ c.shared.installed ∨
      ∃ permit, c'.shared.gate.permit = some permit ∧ c.shared.gate.permit ≠ some permit) →
    ∃ event, event.Publishes ∧ c'.shared.log = c.shared.log ++ [event]

section

variable {policy : RetryPolicy} {identity : AuthenticatedCredentialIdentity} {c c' : ClientConfig}

/-- A logged step is the event that it logs. -/
theorem client_step_event (h : ClientReachable policy identity c) (hs : ClientStep policy c c')
    {event : ClientEvent} (hlog : c'.shared.log = c.shared.log ++ [event]) :
    (∃ t e r w w', event = .act t e r ∧ c.shared.posture t = some w ∧ Posture.Next w e r w' ∧
      c.shared.Permits e r ∧ c'.shared = (c.shared.effect t e r).happened event) ∨
      ∃ t, event = .dropped t := by
  rcases client_step_cases h hs with heq | ⟨t, e, r, w, w', hw, hn, hp, heq⟩ | ⟨t, heq⟩
  · rw [heq] at hlog
    simp at hlog
  · rw [heq] at hlog
    have hevent : ClientEvent.act t e r = event := by
      simpa [ClientState.happened, ClientState.effect_log] using hlog
    exact .inl ⟨t, e, r, w, w', hevent.symm, hw, hn, hp, hevent ▸ heq⟩
  · rw [heq] at hlog
    have hevent : ClientEvent.dropped t = event := by
      simpa [ClientState.happened, ClientState.release] using hlog
    exact .inr ⟨t, hevent.symm⟩

/-- What a step closes is closed from then on. -/
theorem client_closes (h : ClientReachable policy identity c) (hs : ClientStep policy c c')
    {event : ClientEvent} {authority : AuthenticatedProtocolAuthority}
    (hlog : c'.shared.log = c.shared.log ++ [event])
    (hcloses : event.Closes c.shared.gate authority) {c'' : ClientConfig}
    (hs' : Relation.ReflTransGen (ClientStep policy) c' c'') :
    c''.shared.gate.ClosedThrough authority.generation := by
  refine client_closedThrough (h.tail hs) hs' ?_
  rcases client_step_event h hs hlog with ⟨t, e, r, w, w', rfl, -, -, -, heq⟩ | ⟨t, rfl⟩
  · rw [heq]
    exact hcloses.closedThrough
  · exact hcloses.elim

/-- What a step installs or permits is published by it. -/
theorem client_published (h : ClientReachable policy identity c) (hs : ClientStep policy c c')
    (hnew : c'.shared.installed ≠ c.shared.installed ∨
      ∃ permit, c'.shared.gate.permit = some permit ∧ c.shared.gate.permit ≠ some permit) :
    ∃ event, event.Publishes ∧ c'.shared.log = c.shared.log ++ [event] := by
  have hsame : c'.shared.installed ≠ c.shared.installed ∨ c'.shared.gate ≠ c.shared.gate := by
    refine hnew.imp_right ?_
    rintro ⟨permit, hp, hnot⟩ heq
    exact hnot (heq ▸ hp)
  rcases client_step_cases h hs with heq | ⟨t, e, r, w, w', -, -, hp, heq⟩ | ⟨t, heq⟩
  · rw [heq] at hsame
    simp at hsame
  · refine ⟨.act t e r, ?_, by rw [heq]; simp [ClientState.happened, ClientState.effect_log]⟩
    rw [heq] at hnew
    rcases hnew with hi | ⟨permit, hpermit, hnot⟩
    · rcases ClientState.effect_installed (s := c.shared) (t := t) (e := e) (r := r) with
        hsame | ⟨authority, rfl⟩
      · exact absurd hsame hi
      · trivial
    · have hactive : (c.shared.effect t e r).gate.state = .active permit.authority :=
        ProtocolSubmissionGate.permit_eq_some.1 hpermit
      rcases ClientState.effect_active hactive with hsame | hact
      · rw [← hsame] at hnot
        exact absurd hpermit hnot
      · cases hact
        trivial
  · rw [heq] at hsame
    simp [ClientState.happened, ClientState.release] at hsame

/-- In every configuration that any number of refreshes, activations, revocations, submissions and
    preparations of a client reach, the gate and the installed authority agree.  A refresh or an
    activation that fails publishes nothing. -/
theorem gate_installed_agree (policy : RetryPolicy) (identity : AuthenticatedCredentialIdentity) :
    (∀ c, ClientReachable policy identity c → ClientAgrees policy c) ∧
    (∀ t s error s',
      ClientRun t Client.refreshAuthenticatedCapitalAuthority s (.error error) s' →
        ∀ event ∈ s'.log, event.task = t → ¬ event.Publishes) ∧
    ∀ t expected s result s',
      ClientRun t (Client.activateAuthenticatedProtocolAuthorityIf expected) s result s' →
        result ≠ .ok true → ∀ event ∈ s'.log, event.task = t → ¬ event.Publishes := by
  refine ⟨fun c h => ⟨(client_custody h).active, fun c' hs => client_quarantined_le h hs, ?_, ?_,
    ?_, fun c' hs => client_published h hs⟩, ?_, ?_⟩
  · intro c' hs
    refine (client_installed h hs).imp_right ?_
    rintro ⟨authority, hi, hgeneration⟩
    refine ⟨authority, hi, fun authority' hi' => ?_⟩
    rw [hi'] at hgeneration
    exact Nat.lt_of_lt_of_eq (Nat.lt_succ_self _) hgeneration.symm
  · intro c' event authority hs hlog hcloses c'' hs' permit hle hadmits
    have hclosed := (client_closes h hs hlog hcloses hs').mono hle
    exact ProtocolSubmissionGate.not_closedThrough_of_admits hadmits hclosed
  · intro c' authority hs hstate
    rcases client_step_moves h hs with heq | hmoves
    · exact .inl ⟨authority, heq ▸ hstate⟩
    · exact hmoves.indeterminate hstate
  · exact fun t s error s' h => h.not_publishes Client.quiet_refresh ⟨error, rfl⟩
  · exact fun t expected s result s' h hne => h.not_publishes (Client.quiet_activateIf expected) hne

end

/-- A refresh that the server does not authenticate. -/
theorem refresh_unauthenticated : ∃ s', ClientRun 0 Client.refreshAuthenticatedCapitalAuthority
    activatedState (.error .authentication) s' := by
  have hnext : checkedAdd (installedGeneration activatedState.installed) 1 = some 2 := by decide
  refine ⟨?ended, World.Solo.run ?runs⟩
  case runs =>
    refine Client.solo_own (e := .lockRefresh) (r := ()) rfl ?_
    refine Client.solo_own (e := .close) (r := ()) trivial ?_
    refine Client.solo_own (e := .readInstalled) (r := ({}, activatedState.installed)) rfl ?_
    simp only [Prog.bind, hnext]
    refine Client.solo_own (e := .authenticate) (r := false) trivial ?_
    refine Client.solo_own (e := .unlockRefresh) (r := ()) trivial ?_
    exact .ret _ _

/-- A second activation of the authority that is active. -/
theorem activation_refused : ∃ s', ClientRun 0
    (Client.activateAuthenticatedProtocolAuthorityIf sampleProtocolAuthority) activatedState
      (.error .requestFailed) s' := by
  refine ⟨?ended, World.Solo.run ?runs⟩
  case runs =>
    refine Client.solo_own (e := .lockRefresh) (r := ()) rfl ?_
    refine Client.solo_own (e := .clob .readClient) (r := ⟨some sampleProtocolAuthority⟩) rfl ?_
    simp only [Prog.bind, Client.activateUnder, ne_eq, not_true_eq_false, if_false]
    refine Client.solo_own (e := .observeVersion) (r := .ok .v2) trivial ?_
    refine Client.solo_own (e := .activate sampleProtocolAuthority) (r := none) ?_ ?_
    · exact iff_of_true rfl fun hcan => hcan.2 _ rfl
    refine Client.solo_own (e := .clob .dropClient) (r := ()) trivial ?_
    refine Client.solo_own (e := .unlockRefresh) (r := ()) trivial ?_
    exact .ret _ _

/-- The activated client: its authority is installed, a revocation closes it for good, and neither
    the refresh nor the activation that fail publish anything. -/
theorem gate_installed_agree_activated : ∃ s s' : ClientState, ∃ c : ClientConfig,
    activatedState.installed = some sampleProtocolAuthority ∧
    ClientStep .default
      ⟨activatedState, Function.update (fun _ => .ret ()) 0 (.act .close .ret)⟩ c ∧
    (∀ c', Relation.ReflTransGen (ClientStep .default) c c' →
      ¬ c'.shared.gate.admits samplePermit) ∧
    ClientRun 0 Client.refreshAuthenticatedCapitalAuthority activatedState
      (.error .authentication) s ∧ (∀ event ∈ s.log, event.task = 0 → ¬ event.Publishes) ∧
    ClientRun 0 (Client.activateAuthenticatedProtocolAuthorityIf sampleProtocolAuthority)
      activatedState (.error .requestFailed) s' ∧
    ∀ event ∈ s'.log, event.task = 0 → ¬ event.Publishes := by
  obtain ⟨s, hs⟩ := refresh_unauthenticated
  obtain ⟨s', hs'⟩ := activation_refused
  obtain ⟨hagrees, hrefresh, hactivate⟩ := gate_installed_agree .default {}
  have hcall : ClientStep .default ⟨activatedState, fun _ => .ret ()⟩
      ⟨activatedState, Function.update (fun _ => .ret ()) 0 (.act .close .ret)⟩ :=
    .call ClientCall.revoke rfl
  have hact : ClientStep .default
      ⟨activatedState, Function.update (fun _ => .ret ()) 0 (.act .close .ret)⟩
      ⟨(activatedState.effect 0 .close ()).happened (.act 0 .close ()), _⟩ :=
    .act (Function.update_self ..) ⟨trivial, rfl⟩
  have hagreed := hagrees _ ((client_activated .default).tail hcall)
  refine ⟨s, s', _, (hagreed.active _ rfl).2, hact, ?_, hs, hrefresh 0 _ _ _ hs, hs',
    hactivate 0 _ _ _ _ hs' (by simp)⟩
  intro c' hrun
  exact hagreed.closed _ _ sampleProtocolAuthority hact rfl rfl c' hrun samplePermit le_rfl

end Rspm
