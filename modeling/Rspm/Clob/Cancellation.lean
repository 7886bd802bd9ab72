/-
  A submission that is dropped while its POST is under way.

  Dropping it releases its locks and does nothing to the gate, so that the next
  submission may get a permit of the same generation, unless another task has
  quarantined the generation already.
-/
import Rspm.Clob.Rearm

namespace Rspm

/-- The POST under `permit` has received its first poll, and the submission still holds its guard:
    the reply is awaited, or what follows it is under way. -/
def ClientConfig.InPost (t : ℕ) (permit : ProtocolSubmissionPermit) (c : ClientConfig) : Prop :=
  ∃ guard, c.shared.posture t = some (.submission (.polled permit guard)) ∨
    c.shared.posture t = some (.submission (.answered permit guard))

/-- From `c` on, no task gets a permit of the generation. -/
def PermitsNone (policy : RetryPolicy) (c : ClientConfig) (generation : ℕ) : Prop :=
  ∀ c' events u permit, Relation.ReflTransGen (ClientStep policy) c c' →
    c'.shared.log = c.shared.log ++ events →
    .act u (.clob .permit) (some permit) ∈ events → permit.authority.generation ≠ generation

section

variable {policy : RetryPolicy} {identity : AuthenticatedCredentialIdentity} {c : ClientConfig}
  {t : ℕ} {permit : ProtocolSubmissionPermit}

/-- What a submission posts under is installed. -/
theorem ClientConfig.InPost.installed (h : ClientReachable policy identity c)
    (hpost : c.InPost t permit) : c.shared.installed = some permit.authority := by
  obtain ⟨guard, hpost | hpost⟩ := hpost
  all_goals
    have hheld := (client_custody h).held t _ hpost
    exact (hheld.guard guard rfl).2.symm.trans (hheld.bound _ rfl)

/-- A gate that is closed for a generation hands out newer permits only. -/
theorem permitsNone_of_closedThrough (h : ClientReachable policy identity c) {generation : ℕ}
    (hc : c.shared.gate.ClosedThrough generation) : PermitsNone policy c generation := by
  intro c' events u permit hs hlog hm
  obtain ⟨c₁, c₂, hs₁, hstep, hevent⟩ := client_log_step hs hlog hm
  have hclosed := client_closedThrough h hs₁ hc
  rcases client_step_event (h.trans hs₁) hstep hevent with
    ⟨t, e, r, w, w', heq, -, -, hp, -⟩ | ⟨t, heq⟩
  · cases heq
    have hp : some permit = c₁.shared.gate.permit := hp
    exact (hclosed.permit .refl hp.symm).ne'
  · cases heq

/-- Once a submission is dropped after the first poll of its POST and before its guard is released,
    no submission gets a permit of its generation, if and only if the generation was quarantined
    already when it was dropped. -/
theorem cancellation_closes_iff (h : ClientReachable policy identity c)
    (hpost : c.InPost t permit) :
    PermitsNone policy (c.drop t) permit.authority.generation ↔
      permit.authority.generation ≤ c.shared.gate.quarantinedThroughGeneration := by
  have hdrop : ClientReachable policy identity (c.drop t) := h.tail (client_step_drop t c)
  constructor
  · intro hnone
    by_contra hlt
    have hi := hpost.installed h
    obtain ⟨c', events, hs, hlog, hm⟩ := client_rearms t hdrop hi (not_le.1 hlt)
    exact hnone c' events t ⟨permit.authority⟩ hs hlog hm rfl
  · intro hle
    refine permitsNone_of_closedThrough hdrop ⟨hle, fun authority ha => ?_⟩
    exact hle.trans_lt ((client_custody h).active authority ha).1

/-! ## A submission dropped while its POST is pending -/

/-- A client with one installed generation, whose only submission waits for a reply to its POST. -/
theorem client_posting (policy : RetryPolicy) : ∃ c : ClientConfig,
    ClientReachable policy {} c ∧ c.InPost 0 samplePermit ∧
    c.shared.gate = ⟨.active sampleProtocolAuthority, 0⟩ ∧ c.task 1 = .ret () := by
  have h := client_activated policy
  have hadmits : activatedState.gate.admits samplePermit := by decide
  obtain ⟨q, -, hsteps⟩ := client_comes_alone (fun _ => .ret ()) rfl
    (Client.comes_beginPost (t := 0) (s := activatedState) policy rfl rfl hadmits rfl)
  obtain ⟨w, hw, rfl⟩ := client_followed h 0
  have hidle : Function.update (fun _ : ℕ => (.ret () : Client Unit)) 0 q 1 = .ret () := by simp
  refine ⟨_, h.trans hsteps, ⟨⟨some sampleProtocolAuthority⟩, .inl ?_⟩, rfl, hidle⟩
  unfold ClientState.posture at hw ⊢
  dsimp only at hw ⊢
  rw [Monitor.reads_append, hw]
  rfl

/-- The POST of generation 1 is pending when its submission is dropped, and another submission gets
    a permit of generation 1. -/
theorem cancellation_closes_not : ∃ c : ClientConfig,
    ClientReachable .default {} c ∧ c.InPost 0 samplePermit ∧
    ¬ PermitsNone .default (c.drop 0) samplePermit.authority.generation := by
  obtain ⟨c, h, hpost, hgate, -⟩ := client_posting .default
  refine ⟨c, h, hpost, fun hnone => ?_⟩
  have hdrop : ClientReachable .default {} (c.drop 0) := h.tail (client_step_drop 0 c)
  have hi := hpost.installed h
  have hlt : (c.drop 0).shared.gate.quarantinedThroughGeneration <
      samplePermit.authority.generation := by
    change c.shared.gate.quarantinedThroughGeneration < _
    rw [hgate]
    decide
  obtain ⟨c', events, hs, hlog, hm⟩ := client_rearms 1 hdrop hi hlt
  exact hnone c' events 1 ⟨samplePermit.authority⟩ hs hlog hm rfl

/-- Another task revokes the generation before the submission is dropped. -/
theorem cancellation_closes_iff_revoked : ∃ c : ClientConfig, c.InPost 0 samplePermit ∧
    PermitsNone .default (c.drop 0) samplePermit.authority.generation := by
  obtain ⟨⟨s, task⟩, h, ⟨guard, hpost⟩, hgate, ht⟩ := client_posting .default
  let s' := (s.effect 1 .close ()).happened (.act 1 .close ())
  have hcall : ClientStep .default ⟨s, task⟩ ⟨s, Function.update task 1 (.act .close .ret)⟩ :=
    .call ClientCall.revoke ht
  have hact : ClientStep .default ⟨s, Function.update task 1 (.act .close .ret)⟩
      ⟨s', Function.update (Function.update task 1 (.act .close .ret)) 1 (.ret ())⟩ :=
    .act (Function.update_self ..) ⟨trivial, rfl⟩
  have hposture : s'.posture 0 = s.posture 0 := ClientState.posture_act.trans (if_neg (by simp))
  have hpost' : ClientConfig.InPost 0 samplePermit ⟨s', Function.update
      (Function.update task 1 (.act .close .ret)) 1 (.ret ())⟩ :=
    ⟨guard, hpost.imp hposture.trans hposture.trans⟩
  have hgate : s.gate = ⟨.active sampleProtocolAuthority, 0⟩ := hgate
  refine ⟨_, hpost', (cancellation_closes_iff ((h.tail hcall).tail hact) hpost').2 ?_⟩
  change samplePermit.authority.generation ≤ s.gate.close.quarantinedThroughGeneration
  rw [hgate]
  decide

end

end Rspm
