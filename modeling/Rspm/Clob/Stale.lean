/-
  A submission that reads its permit before a refresh, and the client after it.

  It finds the newer authority under its guard and quarantines the one of its
  permit, which closes the gate whatever is active.  The newer generation is
  closed then without being quarantined, and may become active again.

  Where no authority is activated while a task holds a permit of another one,
  whatever is active is the authority of every permit that is held
  (`ClientState.Aligned`), and a permit that stopped matching never matches
  again.
-/
import Rspm.Clob.Rearm

namespace Rspm

/-! ## Permits of older generations -/

/-- The permit that is held, before and after its POST. -/
def Stance.permit? : Stance → Option ProtocolSubmissionPermit
  | .permitted permit | .guarded permit _ | .fresh permit _ | .polled permit _
  | .answered permit _ => some permit
  | _ => none

/-- The authority was installed once, and is installed still or was replaced by a newer one. -/
def Installed (authority : AuthenticatedProtocolAuthority)
    (installed : Option AuthenticatedProtocolAuthority) : Prop :=
  installed = some authority ∨
    ∃ authority', installed = some authority' ∧ authority.generation < authority'.generation

/-- The task holds the permit, from where it reads it until it drops its guard or ends. -/
def ClientState.Holds (t : ℕ) (permit : ProtocolSubmissionPermit) (s : ClientState) : Prop :=
  ∃ w, s.posture t = some (.submission w) ∧ w.permit? = some permit

/-- Every permit that is held is of an authority that was installed. -/
structure ClientState.Known (s : ClientState) : Prop where
  custody : s.Custody
  permits : ∀ t permit, s.Holds t permit → Installed permit.authority s.installed

namespace ClientState

variable {s : ClientState} {t u : ℕ} {e : ClientAct} {r : e.Answer} {w w' : Posture}

/-- An allowed installation is of a newer generation. -/
theorem Custody.installed_effect (h : s.Custody) (hw : s.posture t = some w) (hn : w.Next e r w')
    {authority : AuthenticatedProtocolAuthority} (hi : Installed authority s.installed) :
    Installed authority (s.effect t e r).installed := by
  rcases effect_installed (s := s) (t := t) (e := e) (r := r) with heq | ⟨authority', rfl⟩
  · rwa [heq]
  · cases hn with
    | @install installed _ _ hgeneration =>
      have heq := (h.held t _ hw).derived installed rfl
      refine .inr ⟨authority', rfl, ?_⟩
      rw [hgeneration, heq]
      rcases hi with hi | ⟨authority'', hi, hlt⟩
      · rw [hi]
        exact Nat.lt_succ_self _
      · rw [hi]
        exact hlt.trans (Nat.lt_succ_self _)

/-- A permit is read from the gate, or was held. -/
theorem permit_of_next {w w' : Stance} {e : ClobAct} {r : e.Answer} (hn : w.Next e r w')
    {permit : ProtocolSubmissionPermit} (hw' : w'.permit? = some permit) :
    w.permit? = some permit ∨ (⟨e, r⟩ : Σ e : ClobAct, e.Answer) = ⟨.permit, some permit⟩ := by
  cases hn with
  | permit => exact .inr (by rw [Option.some.inj hw'])
  | admitsGuarded | admitsFresh | beginPost =>
    split_ifs at hw' <;> exact .inl hw'
  | quarantine hw =>
    rcases hw with rfl | rfl <;> exact .inl hw'
  | dropClient | unlock | lock | noPermit => cases hw'
  | _ => exact .inl hw'

/-- A task that holds a permit read it from the gate, or held it. -/
theorem holds_of_next {w : Posture} {w' : Stance} {e : ClientAct} {r : e.Answer}
    (hn : w.Next e r (.submission w')) {permit : ProtocolSubmissionPermit}
    (hw' : w'.permit? = some permit) :
    (∃ w₀, w = .submission w₀ ∧ w₀.permit? = some permit) ∨
      (⟨e, r⟩ : Σ e : ClientAct, e.Answer) = ⟨.clob .permit, some permit⟩ := by
  cases hn with
  | clob hn =>
    rcases permit_of_next hn hw' with hpermit | heq
    · exact .inl ⟨_, rfl, hpermit⟩
    · cases heq
      exact .inr rfl
  | chainId | providerOrderId => exact .inl ⟨_, rfl, hw'⟩
  | revoke | unlock | fail => cases hw'

/-- After an action a permit is held that was held before, or that the action read. -/
theorem holds_act (hw : s.posture t = some w) {permit : ProtocolSubmissionPermit}
    (h : ((s.effect t e r).happened (.act t e r)).Holds u permit) :
    s.Holds u permit ∨ (⟨e, r⟩ : Σ e : ClientAct, e.Answer) = ⟨.clob .permit, some permit⟩ := by
  obtain ⟨v, hv, hpermit⟩ := h
  rw [posture_act] at hv
  split_ifs at hv with hu
  · subst hu
    rw [hw] at hv
    rcases holds_of_next (Posture.next_cases hv) hpermit with ⟨w₀, rfl, hw₀⟩ | heq
    · exact .inl ⟨w₀, hw, hw₀⟩
    · exact .inr heq
  · exact .inl ⟨v, hv, hpermit⟩

/-- A permit is read while its authority is active. -/
theorem active_of_read (hp : s.Permits e r) {permit : ProtocolSubmissionPermit}
    (hread : (⟨e, r⟩ : Σ e : ClientAct, e.Answer) = ⟨.clob .permit, some permit⟩) :
    s.gate.state = .active permit.authority := by
  cases hread
  exact ProtocolSubmissionGate.permit_eq_some.1 (Eq.symm hp)

theorem holds_dropped {permit : ProtocolSubmissionPermit}
    (h : ((s.release t).happened (.dropped t)).Holds u permit) : s.Holds u permit := by
  obtain ⟨v, hv, hpermit⟩ := h
  rw [posture_dropped] at hv
  split_ifs at hv with hu
  · obtain ⟨w, -, hidle⟩ := Option.map_eq_some_iff.1 hv
    cases hidle
    cases hpermit
  · exact ⟨v, hv, hpermit⟩

theorem known_preserved : World.Tracks.Preserves clientWorld postures posture Known where
  act := by
    rintro t e s r s' w w' ⟨h, hpermits⟩ hw hnext hd
    refine ⟨custody_preserved.act h hw hnext hd, ?_⟩
    obtain ⟨hp, rfl⟩ := hd
    intro u permit hholds
    refine h.installed_effect hw (Posture.next_cases hnext) ?_
    rcases holds_act hw hholds with hholds | hread
    · exact hpermits u permit hholds
    · exact .inl (h.active _ (active_of_read hp hread)).2
  crash := by
    rintro t s s' ⟨h, hpermits⟩ rfl
    refine ⟨custody_preserved.crash h rfl, fun u permit hholds => ?_⟩
    exact hpermits u permit (holds_dropped hholds)

end ClientState

section

variable {policy : RetryPolicy} {identity : AuthenticatedCredentialIdentity} {c c' : ClientConfig}

theorem client_known (h : ClientReachable policy identity c) : c.shared.Known := by
  refine client_tracks.invariant ClientState.known_preserved (fun _ => rfl) ?_
    (Client.follows_body policy) h
  have hrefl : ClientReachable policy identity ⟨{ identity }, fun _ => .ret ()⟩ := .refl
  refine ⟨client_custody hrefl, fun t permit hholds => ?_⟩
  obtain ⟨w, hw, hpermit⟩ := hholds
  obtain rfl : Stance.idle = w := Posture.submission.inj (Option.some.inj hw)
  cases hpermit

/-! ## The quarantines of a submission -/

/-- The task finds its client under another authority than that of its permit. -/
def ClientState.Stale (t : ℕ) (s : ClientState) : Prop :=
  ∃ permit guard, s.posture t = some (.submission (.guarded permit guard)) ∧
    guard.protocolAuthority ≠ some permit.authority

/-- What is active under a bound guard is the authority of the permit. -/
theorem active_of_bound (h : c.shared.Custody) {t : ℕ} {w : Stance}
    {permit : ProtocolSubmissionPermit} {guard : AuthenticatedClientState}
    {active : AuthenticatedProtocolAuthority}
    (hw : c.shared.posture t = some (.submission w)) (hguard : w.guard? = some guard)
    (hbound : guard.protocolAuthority = some permit.authority)
    (ha : c.shared.gate.state = .active active) : active = permit.authority := by
  have hi := ((h.held t _ hw).guard guard hguard).2
  rw [(h.active active ha).2, hbound] at hi
  exact (Option.some.inj hi).symm

/-- A quarantine while an authority is active is of that authority, or of an older one by a stale
    submission. -/
theorem quarantine_active (h : c.shared.Known) {t : ℕ} {w w' : Posture}
    {authority active : AuthenticatedProtocolAuthority} (hw : c.shared.posture t = some w)
    (hn : w.Next (.clob (.quarantine authority)) () w')
    (ha : c.shared.gate.state = .active active) :
    active = authority ∧ ¬ c.shared.Stale t ∨
      c.shared.Stale t ∧ authority.generation < active.generation := by
  have hfresh : ∀ {permit guard w₀}, w = .submission w₀ → w₀.guard? = some guard →
      guard.protocolAuthority = some permit.authority →
      (∀ p g, w₀ = .guarded p g → p = permit ∧ g = guard) →
      active = permit.authority ∧ ¬ c.shared.Stale t := by
    rintro permit guard w₀ rfl hguard hbound hguarded
    refine ⟨active_of_bound h.custody hw hguard hbound ha, ?_⟩
    rintro ⟨permit', guard', hw', hne⟩
    obtain ⟨rfl, rfl⟩ :=
      hguarded _ _ (Posture.submission.inj (Option.some.inj (hw.symm.trans hw')))
    exact hne hbound
  cases hn with
  | clob hn =>
    cases hn with
    | @quarantine _ permit guard _ hw₀ =>
      rcases hw₀ with rfl | rfl
      · by_cases hbound : guard.protocolAuthority = some permit.authority
        · exact .inl (hfresh rfl rfl hbound (by simp))
        · refine .inr ⟨⟨permit, guard, hw, hbound⟩, ?_⟩
          have hactive := (h.custody.active active ha).2
          have hguard := ((h.custody.held t _ hw).guard guard rfl).2
          rcases h.permits t permit ⟨_, hw, rfl⟩ with hi | ⟨authority', hi, hlt⟩
          · exact absurd (hguard.trans hi) hbound
          · obtain rfl := Option.some.inj (hactive.symm.trans hi)
            exact hlt
      · exact .inl (hfresh rfl rfl ((h.custody.held t _ hw).bound _ rfl) (by simp))
    | quarantineAnswered =>
      exact .inl (hfresh rfl rfl ((h.custody.held t _ hw).bound _ rfl) (by simp))

/-- A generation is marked indeterminate while it is active, or while nothing is. -/
theorem markIndeterminate_active (h : c.shared.Custody) {t : ℕ} {w w' : Posture}
    {authority active : AuthenticatedProtocolAuthority} (hw : c.shared.posture t = some w)
    (hn : w.Next (.clob (.markIndeterminate authority)) () w')
    (ha : c.shared.gate.state = .active active) : active = authority := by
  cases hn with
  | clob hn =>
    cases hn with
    | markIndeterminate => exact active_of_bound h hw rfl ((h.held t _ hw).bound _ rfl) ha

/-! ## Activations that wait for the permits of other authorities -/

/-- A step of the client that activates no authority while a task holds a permit of another one. -/
def Ordered (policy : RetryPolicy) (c c' : ClientConfig) : Prop :=
  ClientStep policy c c' ∧ ∀ t expected,
    c'.shared.log = c.shared.log ++ [.act t (.activate expected) (some true)] →
      ∀ u permit, c.shared.Holds u permit → permit.authority = expected

theorem Ordered.run (h : Relation.ReflTransGen (Ordered policy) c c') :
    Relation.ReflTransGen (ClientStep policy) c c' := by
  induction h with
  | refl => exact .refl
  | tail _ hs ih => exact ih.tail hs.1

/-- What is active is the authority of every permit that is held. -/
def ClientState.Aligned (s : ClientState) : Prop :=
  ∀ active, s.gate.state = .active active → ∀ t permit, s.Holds t permit → permit.authority = active

theorem Ordered.aligned (hs : Ordered policy c c') (h : ClientReachable policy identity c)
    (ha : c.shared.Aligned) : c'.shared.Aligned := by
  obtain ⟨hstep, hordered⟩ := hs
  intro active hactive u permit hholds
  rcases client_step_cases h hstep with heq | ⟨t, e, r, w, w', hw, hn, hp, heq⟩ | ⟨t, heq⟩
  · rw [heq] at hactive hholds
    exact ha active hactive u permit hholds
  · have hlog : c'.shared.log = c.shared.log ++ [.act t e r] := by
      rw [heq]
      simp [ClientState.happened, ClientState.effect_log]
    rw [heq] at hactive hholds
    have hheld := (ClientState.holds_act hw hholds).imp_right (ClientState.active_of_read hp)
    rcases ClientState.effect_active hactive with hsame | hactivate
    · -- the gate is as it was, and what a permit was read from is active
      replace hactive : c.shared.gate.state = .active active := hsame ▸ hactive
      rcases hheld with hheld | hread
      · exact ha active hactive u permit hheld
      · exact ProtocolSubmissionState.active.inj (hread.symm.trans hactive)
    · cases hactivate
      rcases hheld with hheld | hread
      · exact hordered t active hlog u permit hheld
      · exact absurd hread ((ClientState.canActivate_of_permits hp).2 _)
  · rw [heq] at hactive hholds
    exact ha active hactive u permit (ClientState.holds_dropped hholds)

/-- The runs of such steps keep what is active aligned with what is held. -/
theorem Ordered.run_aligned (h : ClientReachable policy identity c) (ha : c.shared.Aligned)
    (hs : Relation.ReflTransGen (Ordered policy) c c') : c'.shared.Aligned := by
  induction hs with
  | refl => exact ha
  | tail hs hstep ih => exact hstep.aligned (h.trans (Ordered.run hs)) ih

theorem aligned_new : ClientState.Aligned { identity } := by
  intro active hactive
  cases hactive

/-- Where they are aligned, no submission is stale under an active gate. -/
theorem ClientState.Aligned.not_stale (ha : c.shared.Aligned) (h : c.shared.Custody) {t : ℕ}
    {active : AuthenticatedProtocolAuthority} (hactive : c.shared.gate.state = .active active) :
    ¬ c.shared.Stale t := by
  rintro ⟨permit, guard, hw, hne⟩
  have hauthority := ha active hactive t permit ⟨_, hw, rfl⟩
  have hguard := ((h.held t _ hw).guard guard rfl).2
  rw [hauthority] at hne
  exact hne (hguard.trans (h.active active hactive).2)

/-- A gate that stops matching a permit is closed for its generation. -/
theorem closedThrough_of_aligned (h : ClientReachable policy identity c) (hal : c.shared.Aligned)
    (hs : ClientStep policy c c') {permit : ProtocolSubmissionPermit}
    (ha : c.shared.gate.admits permit) (hnot : ¬ c'.shared.gate.admits permit) :
    c'.shared.gate.ClosedThrough permit.authority.generation := by
  rcases client_step_cases h hs with heq | ⟨t, e, r, w, w', hw, hn, hp, heq⟩ | ⟨t, heq⟩
  · rw [heq] at hnot
    exact absurd ha hnot
  · rw [heq] at hnot ⊢
    cases e with
    | clob e =>
      cases e with
      | quarantine authority =>
        rcases quarantine_active (client_known h) hw hn ha.1 with ⟨rfl, -⟩ | ⟨hstale, -⟩
        · exact ProtocolSubmissionGate.closedThrough_quarantine le_rfl
        · exact absurd hstale (hal.not_stale (client_custody h) ha.1)
      | markIndeterminate authority =>
        obtain rfl := markIndeterminate_active (client_custody h) hw hn ha.1
        exact ProtocolSubmissionGate.closedThrough_markIndeterminate le_rfl
      | _ => exact absurd ha hnot
    | close => exact ProtocolSubmissionGate.closedThrough_close ha.1
    | activate expected =>
      rcases r with _ | _ | _
      · exact absurd ha hnot
      · exact absurd ha hnot
      · exact absurd ha.1 ((ClientState.canActivate_of_permits hp).2 _)
    | _ => exact absurd ha hnot
  · rw [heq] at hnot
    exact absurd ha hnot

/-- Along such runs a permit that stops matching never matches again. -/
theorem Ordered.never_again (h : ClientReachable policy identity c) (hal : c.shared.Aligned)
    {permit : ProtocolSubmissionPermit} (ha : c.shared.gate.admits permit)
    (hs : Relation.ReflTransGen (Ordered policy) c c') :
    c'.shared.gate.admits permit ∨
      c'.shared.gate.ClosedThrough permit.authority.generation := by
  induction hs with
  | refl => exact .inl ha
  | @tail c₁ c₂ hs hstep ih =>
    have hr := h.trans (Ordered.run hs)
    rcases ih with ih | ih
    · by_cases hadmits : c₂.shared.gate.admits permit
      · exact .inl hadmits
      · have hal₁ := Ordered.run_aligned h hal hs
        exact .inr (closedThrough_of_aligned hr hal₁ hstep.1 ih hadmits)
    · exact .inr (client_closedThrough hr (.single hstep.1) ih)

/-- The quarantine of a step, and what is active at it. -/
theorem quarantine_step (h : ClientReachable policy identity c) (hs : ClientStep policy c c')
    {t : ℕ} {authority active : AuthenticatedProtocolAuthority}
    (hlog : c'.shared.log = c.shared.log ++ [.act t (.clob (.quarantine authority)) ()])
    (ha : c.shared.gate.state = .active active) :
    active = authority ∧ ¬ c.shared.Stale t ∨
      c.shared.Stale t ∧ authority.generation < active.generation := by
  rcases client_step_event h hs hlog with ⟨t, e, r, w, w', heq, hw, hn, -, -⟩ | ⟨t, heq⟩
  · cases heq
    exact quarantine_active (client_known h) hw hn ha
  · cases heq

/-- In every run in which no authority is activated while a task holds a permit of another one, no
    quarantine closes a newer generation, and a permit that stopped matching never matches again.
    In every run a quarantine closes a newer generation exactly when its submission is stale and
    the gate is active. -/
theorem stale_never_closes
    (h : Relation.ReflTransGen (Ordered policy) ⟨{ identity }, fun _ => .ret ()⟩ c) :
    (∀ c' t authority active, ClientStep policy c c' →
      c'.shared.log = c.shared.log ++ [.act t (.clob (.quarantine authority)) ()] →
        c.shared.gate.state = .active active → ¬ authority.generation < active.generation) ∧
    (∀ c₂ c₃ permit, Relation.ReflTransGen (Ordered policy) c c₂ →
      Relation.ReflTransGen (Ordered policy) c₂ c₃ → c.shared.gate.admits permit →
        ¬ c₂.shared.gate.admits permit → ¬ c₃.shared.gate.admits permit) ∧
    ∀ c c' t authority, ClientReachable policy identity c → ClientStep policy c c' →
      c'.shared.log = c.shared.log ++ [.act t (.clob (.quarantine authority)) ()] →
        ((∃ active, c.shared.gate.state = .active active ∧
            authority.generation < active.generation) ↔
          c.shared.Stale t ∧ ∃ active, c.shared.gate.state = .active active) := by
  have hr : ClientReachable policy identity c := Ordered.run h
  have hal : c.shared.Aligned := Ordered.run_aligned .refl aligned_new h
  refine ⟨?_, ?_, ?_⟩
  · intro c' t authority active hs hlog ha hlt
    rcases quarantine_step hr hs hlog ha with ⟨rfl, -⟩ | ⟨hstale, -⟩
    · exact lt_irrefl _ hlt
    · exact hal.not_stale (client_custody hr) ha hstale
  · intro c₂ c₃ permit hs hs' ha hnot hadmits
    rcases Ordered.never_again hr hal ha hs with h₂ | hclosed
    · exact hnot h₂
    · have hclosed' := client_closedThrough (hr.trans (Ordered.run hs)) (Ordered.run hs') hclosed
      exact ProtocolSubmissionGate.not_closedThrough_of_admits hadmits hclosed'
  · intro c c' t authority h hs hlog
    constructor
    · rintro ⟨active, ha, hlt⟩
      rcases quarantine_step h hs hlog ha with ⟨rfl, -⟩ | ⟨hstale, -⟩
      · exact absurd hlt (lt_irrefl _)
      · exact ⟨hstale, active, ha⟩
    · rintro ⟨hstale, active, ha⟩
      rcases quarantine_step h hs hlog ha with ⟨-, hnot⟩ | ⟨-, hlt⟩
      · exact absurd hstale hnot
      · exact ⟨active, ha, hlt⟩

/-! ## Ordered runs, by their logs -/

/-- A step of a run whose events are all `P`. -/
def LogsOnly (policy : RetryPolicy) (P : ClientEvent → Prop) (c c' : ClientConfig) : Prop :=
  ClientStep policy c c' ∧ ∀ event, c'.shared.log = c.shared.log ++ [event] → P event

theorem LogsOnly.of_run {P : ClientEvent → Prop}
    (hs : Relation.ReflTransGen (ClientStep policy) c c') :
    ∀ {events}, c'.shared.log = c.shared.log ++ events → (∀ event ∈ events, P event) →
      Relation.ReflTransGen (LogsOnly policy P) c c' := by
  induction hs with
  | refl => exact fun _ _ => .refl
  | @tail c₁ c₂ hs hstep ih =>
    intro events hlog hP
    obtain ⟨events₁, hlog₁⟩ := client_log hs
    rcases client_step_log hstep with h | ⟨event, h⟩
    · refine (ih (h.symm.trans hlog) hP).tail ⟨hstep, fun event hevent => ?_⟩
      simp [h] at hevent
    · rw [h, hlog₁, List.append_assoc] at hlog
      obtain rfl := List.append_cancel_left hlog
      refine (ih hlog₁ fun event' hm => hP event' (List.mem_append_left _ hm)).tail
        ⟨hstep, fun event' hevent => ?_⟩
      obtain rfl := List.singleton_inj.1 (List.append_cancel_left (h.symm.trans hevent))
      exact hP _ (List.mem_append_right _ (List.mem_singleton_self _))

/-- A run that activates nothing. -/
theorem Ordered.of_log
    (hs : Relation.ReflTransGen
      (LogsOnly policy fun event => ∀ t expected, event ≠ .act t (.activate expected) (some true))
      c c') :
    Relation.ReflTransGen (Ordered policy) c c' :=
  Relation.ReflTransGen.mono (fun _ _ hstep =>
    ⟨hstep.1, fun t expected hlog => absurd rfl (hstep.2 _ hlog t expected)⟩) _ _ hs

/-- A run that reads no permit, while none is held. -/
theorem Ordered.of_unheld (h : ClientReachable policy identity c)
    (hunheld : ∀ t permit, ¬ c.shared.Holds t permit)
    (hs : Relation.ReflTransGen
      (LogsOnly policy fun event => ∀ t permit, event ≠ .act t (.clob .permit) (some permit))
      c c') :
    Relation.ReflTransGen (Ordered policy) c c' ∧ ClientReachable policy identity c' ∧
      ∀ t permit, ¬ c'.shared.Holds t permit := by
  induction hs with
  | refl => exact ⟨.refl, h, hunheld⟩
  | @tail c₁ c₂ hs hstep ih =>
    obtain ⟨hordered, hr, hunheld₁⟩ := ih
    obtain ⟨hstep, hreads⟩ := hstep
    refine ⟨hordered.tail ⟨hstep, fun _ _ _ u permit hh => absurd hh (hunheld₁ u permit)⟩,
      hr.tail hstep, fun u permit hholds => ?_⟩
    rcases client_step_cases hr hstep with heq | ⟨t, e, r, w, w', hw, -, -, heq⟩ | ⟨t, heq⟩
    · exact hunheld₁ u permit (heq ▸ hholds)
    · rw [heq] at hholds
      rcases ClientState.holds_act hw hholds with hholds | hread
      · exact hunheld₁ u permit hholds
      · cases hread
        exact hreads _ (by rw [heq]; rfl) t permit rfl
    · rw [heq] at hholds
      exact hunheld₁ u permit (ClientState.holds_dropped hholds)

/-- An idle task holds no permit. -/
theorem not_holds_of_idle (h : ClientReachable policy identity c) {t : ℕ} (ht : c.task t = .ret ())
    (permit : ProtocolSubmissionPermit) : ¬ c.shared.Holds t permit := by
  rintro ⟨w, hw, hpermit⟩
  obtain ⟨w', hw', hfollows⟩ := client_followed h t
  rw [ht] at hfollows
  obtain rfl : w' = .idle := hfollows
  obtain rfl : Stance.idle = w := Posture.submission.inj (Option.some.inj (hw'.symm.trans hw))
  cases hpermit

/-- A run that reads no permit, from where every task is idle. -/
theorem Ordered.of_idle {s : ClientState}
    (h : ClientReachable policy identity ⟨s, fun _ => .ret ()⟩)
    (hs : Relation.ReflTransGen
      (LogsOnly policy fun event => ∀ t permit, event ≠ .act t (.clob .permit) (some permit))
      ⟨s, fun _ => .ret ()⟩ c') :
    Relation.ReflTransGen (Ordered policy) ⟨s, fun _ => .ret ()⟩ c' :=
  (Ordered.of_unheld h (fun _ => not_holds_of_idle h rfl) hs).1

end

/-! ## A refresh between the permit and the client -/

/-- The other task makes calls, each from its start to its end. -/
def OtherCalls : ClientState → ClientState → Prop :=
  Relation.ReflTransGen fun s s' =>
    ∃ call, clientWorld.Solo 1 (ClientCall.body .default call) s () s'

theorem otherCalls_steps {s s' : ClientState} (ho : OtherCalls s s') {task : ℕ → Client Unit}
    (ht : task 1 = .ret ()) :
    Relation.ReflTransGen (ClientStep .default) ⟨s, task⟩ ⟨s', task⟩ := by
  induction ho with
  | refl => exact .refl
  | tail _ hcall ih =>
    obtain ⟨call, hsolo⟩ := hcall
    exact ih.trans (client_solo call ht hsolo)

def newerAuthority : AuthenticatedProtocolAuthority := ⟨.v2, {}, 2, by simp⟩

/-- The submission of task 0 has read the permit of generation 1. -/
def permittedState : ClientState :=
  { activatedState with
    serialBy := some 0
    log := activatedState.log ++ Client.permitEvents 0 samplePermit }

/-- Then task 1 has refreshed the authority. -/
def refreshedState : ClientState :=
  { permittedState with
    gate := ⟨.closed, 1⟩
    installed := some newerAuthority
    log := permittedState.log ++ Client.refreshEvents 1 permittedState }

/-- And it has activated the new one. -/
def reactivatedState : ClientState :=
  { refreshedState with
    gate := ⟨.active newerAuthority, 1⟩
    log := refreshedState.log ++ Client.activateEvents 1 newerAuthority }

theorem otherCalls_refreshed : OtherCalls permittedState refreshedState :=
  .single ⟨.refresh, Client.solo_refresh .default rfl rfl (by decide)⟩

theorem otherCalls_reactivated : OtherCalls permittedState reactivatedState := by
  refine otherCalls_refreshed.tail ⟨.activateIf newerAuthority, ?_⟩
  have hreaders : 1 ∉ refreshedState.readers := by
    simp [refreshedState, permittedState, activatedState]
  exact Client.solo_activateIf .default rfl hreaders rfl
    ⟨Nat.lt_succ_self 1, by simp [refreshedState]⟩

/-- The submission has found generation 2 under its guard. -/
def foundState (s : ClientState) : ClientState :=
  { s with
    readers := insert 0 s.readers
    log := s.log ++ [.act 0 (.clob .readClient) ⟨some newerAuthority⟩,
      .act 0 (.clob .version) (.ok 2)] }

/-- A submission that read the permit of generation 1 before another one is installed is about to
    quarantine it. -/
theorem comes_quarantine {s : ClientState} (ho : OtherCalls permittedState s)
    (hi : s.installed = some newerAuthority) :
    clientWorld.Comes 0 OtherCalls (ClientCall.body .default (.submit (.prepared sampleOrder)))
      activatedState (some (.clob (.quarantine sampleProtocolAuthority))) (foundState s) := by
  have hstale : newerAuthority ≠ samplePermit.authority ∨ 2 ≠ newerAuthority.version.asU32 :=
    .inl (by simp [newerAuthority, samplePermit, sampleProtocolAuthority])
  unfold ClientCall.body SubmitCall.body Clob.submitPrepared
  dsimp only
  rw [Clob.retryPostOrder]
  refine World.Comes.bind ?_
  refine Client.comes_own (e := .clob .authorize) (r := some sampleAttempt) trivial ?_
  refine Client.comes_own (e := .clob .lockSubmission) (r := ()) rfl ?_
  refine Client.comes_own (e := .clob .permit) (r := some samplePermit) rfl ?_
  refine .other ho ?_
  refine Client.comes_own (e := .clob .readClient) (r := ⟨some newerAuthority⟩) hi.symm ?_
  refine Client.comes_own (e := .clob .version) (r := .ok 2) trivial ?_
  simp only [Prog.bind, if_pos hstale, ClientState.effect, ClientState.happened,
    ProtocolSubmissionGate.after, List.append_assoc]
  exact .here

/-- After the quarantine of task 0. -/
def quarantinedState (s : ClientState) : ClientState :=
  ((foundState s).effect 0 (.clob (.quarantine sampleProtocolAuthority)) ()).happened
    (.act 0 (.clob (.quarantine sampleProtocolAuthority)) ())

/-- The submission quarantines generation 1, whatever is active by then. -/
theorem quarantine_reached {s : ClientState} (ho : OtherCalls permittedState s)
    (hi : s.installed = some newerAuthority) : ∃ task task' : ℕ → Client Unit,
    Relation.ReflTransGen (ClientStep .default) ⟨activatedState, fun _ => .ret ()⟩
      ⟨foundState s, task⟩ ∧
    ClientStep .default ⟨foundState s, task⟩ ⟨quarantinedState s, task'⟩ ∧
    ∀ t, t ≠ 0 → task' t = .ret () := by
  obtain ⟨q, hnext, hsteps⟩ := client_comes (fun _ => .ret ())
    (fun s s' ho task' htask => otherCalls_steps ho (htask 1 (by simp))) rfl
    (comes_quarantine ho hi)
  obtain ⟨k, rfl⟩ := hnext _ rfl
  refine ⟨_, _, hsteps, .act (Function.update_self ..) ⟨trivial, rfl⟩, fun t ht => ?_⟩
  rw [Function.update_of_ne ht, Function.update_of_ne ht]

/-- The gate closes under generation 2, whose permit stops matching and matches again. -/
theorem stale_never_closes_not : ∃ c₁ c₂ c₃ : ClientConfig,
    ClientReachable .default {} c₁ ∧ ClientStep .default c₁ c₂ ∧
    c₂.shared.log =
      c₁.shared.log ++ [.act 0 (.clob (.quarantine sampleProtocolAuthority)) ()] ∧
    sampleProtocolAuthority.generation < newerAuthority.generation ∧
    c₁.shared.gate.state = .active newerAuthority ∧ c₂.shared.gate.state = .closed ∧
    Relation.ReflTransGen (ClientStep .default) c₂ c₃ ∧
    c₁.shared.gate.admits ⟨newerAuthority⟩ ∧ ¬ c₂.shared.gate.admits ⟨newerAuthority⟩ ∧
    c₃.shared.gate.admits ⟨newerAuthority⟩ := by
  obtain ⟨task, task', hsteps, hstep, hidle⟩ := quarantine_reached otherCalls_reactivated rfl
  have hcan : (quarantinedState reactivatedState).gate.canActivate newerAuthority :=
    ⟨Nat.lt_succ_self 1, fun _ h => by cases h⟩
  have hactivate := client_solo (.activateIf newerAuthority) (hidle 1 (by simp))
    (Client.solo_activateIf (s := quarantinedState reactivatedState) .default rfl (by decide) rfl
      hcan)
  refine ⟨_, _, _, (client_activated .default).trans hsteps, hstep, rfl, Nat.lt_succ_self 1, rfl,
    rfl, hactivate, ⟨rfl, Nat.lt_succ_self 1⟩, ?_, ⟨rfl, Nat.lt_succ_self 1⟩⟩
  rintro ⟨hactive, -⟩
  cases hactive

/-- After the submission that quarantined generation 1 is dropped. -/
def droppedState : ClientState :=
  ((quarantinedState refreshedState).release 0).happened (.dropped 0)

/-- Then task 1 has activated generation 2. -/
def renewedState : ClientState :=
  { droppedState with
    gate := ⟨.active newerAuthority, 1⟩
    log := droppedState.log ++ Client.activateEvents 1 newerAuthority }

theorem ordered_activated :
    Relation.ReflTransGen (Ordered .default) ⟨{}, fun _ => .ret ()⟩
      ⟨activatedState, fun _ => .ret ()⟩ := by
  have hlog : activatedState.log =
      [] ++ (Client.refreshEvents 0 {} ++ Client.activateEvents 0 sampleProtocolAuthority) := rfl
  have hnew : ClientReachable .default {} ⟨{}, fun _ => .ret ()⟩ := .refl
  refine Ordered.of_idle hnew (LogsOnly.of_run (client_activated .default) hlog ?_)
  simp [Client.refreshEvents, Client.activateEvents]

theorem ordered_dropped :
    Relation.ReflTransGen (Ordered .default) ⟨activatedState, fun _ => .ret ()⟩
      ⟨droppedState, fun _ => .ret ()⟩ := by
  obtain ⟨task, task', hsteps, hstep, hidle⟩ := quarantine_reached otherCalls_refreshed rfl
  have htask : Function.update task' 0 (.ret ()) = fun _ => .ret () :=
    Function.update_eq_iff.2 ⟨rfl, hidle⟩
  have hdrop : ClientStep .default ⟨quarantinedState refreshedState, task'⟩
      ⟨droppedState, fun _ => .ret ()⟩ := htask ▸ .crash rfl
  have hlog : droppedState.log = activatedState.log ++ (Client.permitEvents 0 samplePermit ++
      (Client.refreshEvents 1 permittedState ++ [.act 0 (.clob .readClient) ⟨some newerAuthority⟩,
        .act 0 (.clob .version) (.ok 2),
        .act 0 (.clob (.quarantine sampleProtocolAuthority)) (), .dropped 0])) := rfl
  refine Ordered.of_log (LogsOnly.of_run ((hsteps.tail hstep).tail hdrop) hlog ?_)
  simp [Client.refreshEvents, Client.permitEvents]

theorem ordered_renewed :
    Relation.ReflTransGen (Ordered .default) ⟨droppedState, fun _ => .ret ()⟩
      ⟨renewedState, fun _ => .ret ()⟩ := by
  have hreached : ClientReachable .default {} ⟨droppedState, fun _ => .ret ()⟩ :=
    (client_activated .default).trans (Ordered.run ordered_dropped)
  have hactivate := Client.solo_activateIf (t := 1) (s := droppedState) .default rfl (by decide) rfl
    ⟨Nat.lt_succ_self 1, fun _ h => by cases h⟩
  have hlog : renewedState.log = droppedState.log ++ Client.activateEvents 1 newerAuthority := rfl
  refine Ordered.of_idle hreached
    (LogsOnly.of_run (client_solo (.activateIf newerAuthority) rfl hactivate) hlog ?_)
  simp [Client.activateEvents]

/-- A submission quarantines generation 1 under the closed gate, and is dropped before generation 2
    is activated: the permit of generation 1 does not match any more. -/
theorem stale_never_closes_refreshed : ∃ c c₂ c₃ : ClientConfig,
    Relation.ReflTransGen (Ordered .default) ⟨{}, fun _ => .ret ()⟩ c ∧
    Relation.ReflTransGen (Ordered .default) c c₂ ∧ Relation.ReflTransGen (Ordered .default) c₂ c₃ ∧
    .act 0 (.clob (.quarantine sampleProtocolAuthority)) () ∈ c₂.shared.log ∧
    c.shared.gate.admits samplePermit ∧ ¬ c₂.shared.gate.admits samplePermit ∧
    c₃.shared.gate.state = .active newerAuthority ∧ ¬ c₃.shared.gate.admits samplePermit := by
  have hadmits : activatedState.gate.admits samplePermit := by decide
  have hclosed : ¬ droppedState.gate.admits samplePermit := by
    rintro ⟨hactive, -⟩
    cases hactive
  refine ⟨_, _, _, ordered_activated, ordered_dropped, ordered_renewed, ?_, hadmits, hclosed, rfl,
    ?_⟩
  · exact List.mem_append_left _ (List.mem_append_right _ (List.mem_singleton_self _))
  · exact (stale_never_closes ordered_activated).2.1 _ _ _ ordered_dropped ordered_renewed hadmits
      hclosed

end Rspm
