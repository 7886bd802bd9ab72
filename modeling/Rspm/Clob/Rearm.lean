/-
  What a client with free locks can do: refresh, activate, and hand out a
  permit.

  A lock is free once its holder is dropped, so that from every configuration
  the client comes to permit a generation that is installed and not quarantined
  (`client_rearms`).
-/
import Rspm.Clob.Agreement

namespace Rspm

namespace Client

variable {t : ℕ} {others : ClientState → ClientState → Prop} {s : ClientState}

/-- The events of a submission up to its permit. -/
def permitEvents (t : ℕ) (permit : ProtocolSubmissionPermit) : List ClientEvent :=
  [.act t (.clob .authorize) (some sampleAttempt), .act t (.clob .lockSubmission) (),
    .act t (.clob .permit) (some permit)]

/-- A submission gets the permit of the gate. -/
theorem comes_permit (policy : RetryPolicy) {permit : ProtocolSubmissionPermit}
    (hserial : s.serialBy = none) (hp : s.gate.permit = some permit) :
    clientWorld.Comes t others (ClientCall.body policy (.submit (.prepared sampleOrder))) s none
      { s with serialBy := some t, log := s.log ++ permitEvents t permit } := by
  unfold ClientCall.body SubmitCall.body Clob.submitPrepared
  dsimp only
  rw [Clob.retryPostOrder]
  refine World.Comes.bind ?_
  refine comes_own (e := .clob .authorize) (r := some sampleAttempt) trivial ?_
  refine comes_own (e := .clob .lockSubmission) (r := ()) hserial ?_
  refine comes_own (e := .clob .permit) (r := some permit) hp.symm ?_
  simp only [ClientState.effect, ClientState.happened, permitEvents, List.append_assoc,
    List.cons_append, List.nil_append]
  exact .refl _

/-- The events of a submission up to the first poll of its POST. -/
def beginEvents (t : ℕ) (permit : ProtocolSubmissionPermit) : List ClientEvent :=
  permitEvents t permit ++
    [.act t (.clob .readClient) ⟨some permit.authority⟩, .act t (.clob .version) (.ok 2),
      .act t (.clob (.admits permit)) true,
      .act t (.clob (.revalidate sampleAttempt permit.authority)) true,
      .act t (.clob .version) (.ok 2), .act t (.clob (.admits permit)) true,
      .act t (.clob (.revalidate sampleAttempt permit.authority)) true,
      .act t (.clob (.beginPost sampleAttempt permit.authority sampleOrder.signed)) true]

/-- A submission posts under the permit of the gate. -/
theorem comes_beginPost (policy : RetryPolicy) {permit : ProtocolSubmissionPermit}
    (hserial : s.serialBy = none) (hi : s.installed = some permit.authority)
    (hp : s.gate.admits permit) (hversion : permit.authority.version = .v2) :
    clientWorld.Comes t others (ClientCall.body policy (.submit (.prepared sampleOrder))) s none
      { s with
        serialBy := some t
        readers := insert t s.readers
        log := s.log ++ beginEvents t permit } := by
  have hadmits : true = decide (s.gate.admits permit) := (decide_eq_true hp).symm
  have hclient : ¬ (permit.authority ≠ permit.authority ∨
      2 ≠ permit.authority.version.asU32) := by
    rw [hversion]
    simp [ProtocolVersion.asU32]
  have horder : ¬ (permit.authority ≠ permit.authority ∨
      sampleOrder.signed.payload.version ≠ 2 ∨ 2 ≠ permit.authority.version.asU32) := by
    rw [hversion]
    simp [ProtocolVersion.asU32, sampleOrder, OrderPayload.version]
  unfold ClientCall.body SubmitCall.body Clob.submitPrepared
  dsimp only
  rw [Clob.retryPostOrder]
  refine World.Comes.bind ?_
  refine comes_own (e := .clob .authorize) (r := some sampleAttempt) trivial ?_
  refine comes_own (e := .clob .lockSubmission) (r := ()) hserial ?_
  refine comes_own (e := .clob .permit) (r := some permit)
    (ProtocolSubmissionGate.permit_eq_some.2 hp.1).symm ?_
  refine comes_own (e := .clob .readClient) (r := ⟨some permit.authority⟩) hi.symm ?_
  refine comes_own (e := .clob .version) (r := .ok 2) trivial ?_
  simp only [Prog.bind, if_neg hclient, ClientState.effect, ClientState.happened,
    ProtocolSubmissionGate.after]
  refine comes_own (e := .clob (.admits permit)) (r := true) hadmits ?_
  refine comes_own (e := .clob (.revalidate _ _)) (r := true) trivial ?_
  refine comes_own (e := .clob .version) (r := .ok 2) trivial ?_
  simp only [Prog.bind, if_neg horder, ClientState.effect, ClientState.happened,
    ProtocolSubmissionGate.after]
  refine comes_own (e := .clob (.admits permit)) (r := true) hadmits ?_
  refine comes_own (e := .clob (.revalidate _ _)) (r := true) trivial ?_
  refine comes_own (e := .clob (.beginPost _ _ _)) (r := true) trivial ?_
  simp only [ClientState.effect, ClientState.happened, ProtocolSubmissionGate.after, beginEvents,
    permitEvents, List.append_assoc, List.cons_append, List.nil_append]
  exact .refl _

end Client

/-! ## Configurations -/

section

variable {policy : RetryPolicy} {identity : AuthenticatedCredentialIdentity} {c c' : ClientConfig}
  {s s' : ClientState} {t : ℕ} {task : ℕ → Client Unit}

/-- A step logs one event, or none. -/
theorem client_step_log (hs : ClientStep policy c c') : c'.shared.log = c.shared.log ∨
    ∃ event, c'.shared.log = c.shared.log ++ [event] := by
  cases hs with
  | call => exact .inl rfl
  | @act _ _ _ t e _ r _ hd =>
    obtain ⟨-, rfl⟩ := hd
    refine .inr ⟨.act t e r, ?_⟩
    simp only [ClientState.happened, ClientState.effect_log]
  | @crash _ _ _ t hc =>
    obtain rfl := hc
    exact .inr ⟨.dropped t, rfl⟩

/-- The log only grows. -/
theorem client_log (hs : Relation.ReflTransGen (ClientStep policy) c c') :
    ∃ events, c'.shared.log = c.shared.log ++ events := by
  induction hs with
  | refl => exact ⟨[], by simp⟩
  | tail _ hstep ih =>
    obtain ⟨events, hlog⟩ := ih
    rcases client_step_log hstep with h | ⟨event, h⟩
    · exact ⟨events, h.trans hlog⟩
    · exact ⟨events ++ [event], by rw [h, hlog, List.append_assoc]⟩

/-- The step of an event of the log. -/
theorem client_log_step (hs : Relation.ReflTransGen (ClientStep policy) c c')
    {event : ClientEvent} : ∀ {events}, c'.shared.log = c.shared.log ++ events → event ∈ events →
      ∃ c₁ c₂, Relation.ReflTransGen (ClientStep policy) c c₁ ∧ ClientStep policy c₁ c₂ ∧
        c₂.shared.log = c₁.shared.log ++ [event] := by
  induction hs with
  | refl =>
    intro events hlog hm
    obtain rfl := List.self_eq_append_right.1 hlog
    simp at hm
  | @tail c₁ c₂ hs hstep ih =>
    intro events hlog hm
    obtain ⟨events₁, hlog₁⟩ := client_log hs
    rcases client_step_log hstep with h | ⟨event', h⟩
    · exact ih (h.symm.trans hlog) hm
    · rw [h, hlog₁, List.append_assoc] at hlog
      obtain rfl := List.append_cancel_left hlog
      rcases List.mem_append.1 hm with hm | hm
      · exact ih hlog₁ hm
      · obtain rfl := List.mem_singleton.1 hm
        exact ⟨c₁, c₂, hs, hstep, h⟩

/-- The future of the task `t` is dropped. -/
def ClientConfig.drop (t : ℕ) (c : ClientConfig) : ClientConfig :=
  ⟨(c.shared.release t).happened (.dropped t), Function.update c.task t (.ret ())⟩

theorem client_step_drop (t : ℕ) (c : ClientConfig) : ClientStep policy c (c.drop t) := .crash rfl

/-- A call as far as it comes, while other calls are under way. -/
theorem client_comes {others : ClientState → ClientState → Prop} {call : ClientCall}
    {next : Option ClientAct} (task : ℕ → Client Unit)
    (hothers : ∀ s s', others s s' → ∀ task' : ℕ → Client Unit, (∀ u, u ≠ t → task' u = task u) →
      Relation.ReflTransGen (ClientStep policy) ⟨s, task'⟩ ⟨s', task'⟩)
    (ht : task t = .ret ()) (h : clientWorld.Comes t others (call.body policy) s next s') :
    ∃ q, (∀ e ∈ next, ∃ k, q = .act e k) ∧
      Relation.ReflTransGen (ClientStep policy) ⟨s, task⟩ ⟨s', Function.update task t q⟩ := by
  obtain ⟨q, h, hnext⟩ := h
  have hcall : ClientStep policy ⟨s, task⟩ ⟨s, Function.update task t (call.body policy)⟩ :=
    .call call ht
  refine ⟨q, hnext, .head hcall ?_⟩
  have hidem := Function.update_idem (a := t) (ClientCall.body policy call) q task
  rw [← hidem]
  refine World.Run.steps ?_ h (Function.update_self t _ task)
  intro s s' ho task' htask
  exact hothers s s' ho task' fun u hu => (htask u hu).trans (Function.update_of_ne hu _ _)

theorem client_comes_alone {call : ClientCall} {next : Option ClientAct} (task : ℕ → Client Unit)
    (ht : task t = .ret ())
    (h : clientWorld.Comes t (fun _ _ => False) (call.body policy) s next s') :
    ∃ q, (∀ e ∈ next, ∃ k, q = .act e k) ∧
      Relation.ReflTransGen (ClientStep policy) ⟨s, task⟩ ⟨s', Function.update task t q⟩ :=
  client_comes task (fun _ _ ho => ho.elim) ht h

/-- Once their holders are dropped the locks are free, and the task `t` is idle. -/
theorem client_frees (policy : RetryPolicy) (t : ℕ) (c : ClientConfig) : ∃ c',
    Relation.ReflTransGen (ClientStep policy) c c' ∧
    c'.task t = .ret () ∧ c'.shared.refreshedBy = none ∧ c'.shared.serialBy = none ∧
    t ∉ c'.shared.readers ∧ c'.shared.gate = c.shared.gate ∧
    c'.shared.installed = c.shared.installed := by
  let u := c.shared.refreshedBy.getD t
  let v := c.shared.serialBy.getD t
  refine ⟨((c.drop u).drop v).drop t, ?_, by simp [ClientConfig.drop], ?_, ?_, ?_, rfl, rfl⟩
  · exact .tail (.tail (.single (client_step_drop u c)) (client_step_drop v _))
      (client_step_drop t _)
  · cases h : c.shared.refreshedBy <;> simp [ClientConfig.drop, ClientState.release,
      ClientState.happened, h, u]
  · cases h : c.shared.serialBy <;> simp [ClientConfig.drop, ClientState.release,
      ClientState.happened, h, v]
  · simp [ClientConfig.drop, ClientState.release, ClientState.happened]

/-- The task `t` can get a permit of the authority that is installed and not quarantined. -/
theorem client_rearms (t : ℕ) (h : ClientReachable policy identity c)
    {authority : AuthenticatedProtocolAuthority} (hi : c.shared.installed = some authority)
    (hlt : c.shared.gate.quarantinedThroughGeneration < authority.generation) :
    ∃ c' events, Relation.ReflTransGen (ClientStep policy) c c' ∧
      c'.shared.log = c.shared.log ++ events ∧
      .act t (.clob .permit) (some ⟨authority⟩) ∈ events := by
  obtain ⟨⟨s, task⟩, hfree, ht, hrefreshed, hserial, hreaders, hgate, hinstalled⟩ :=
    client_frees policy t c
  dsimp only at ht hrefreshed hserial hreaders hgate hinstalled
  rw [← hgate] at hlt
  rw [← hinstalled] at hi
  have hactive : ∃ s', s'.serialBy = none ∧ s'.gate.permit = some ⟨authority⟩ ∧
      Relation.ReflTransGen (ClientStep policy) ⟨s, task⟩ ⟨s', task⟩ := by
    by_cases ha : ∃ a, s.gate.state = .active a
    · obtain ⟨a, ha⟩ := ha
      have hsame := ((client_custody (h.trans hfree)).active a ha).2
      obtain rfl : authority = a := Option.some.inj (hi.symm.trans hsame)
      exact ⟨s, hserial, ProtocolSubmissionGate.permit_eq_some.2 ha, .refl⟩
    · have hcall := Client.solo_activateIf policy hrefreshed hreaders hi ⟨hlt, not_exists.1 ha⟩
      have hsteps := client_solo (.activateIf authority) ht hcall
      refine ⟨_, ?_, ?_, hsteps⟩
      · exact hserial
      · rfl
  obtain ⟨s', hserial', hpermit, hsteps⟩ := hactive
  obtain ⟨q, -, hcomes⟩ := client_comes_alone task ht (Client.comes_permit policy hserial' hpermit)
  obtain ⟨events, hlog⟩ := client_log (hfree.trans hsteps)
  refine ⟨_, events ++ Client.permitEvents t ⟨authority⟩, hfree.trans (hsteps.trans hcomes), ?_, ?_⟩
  · dsimp only at hlog ⊢
    rw [hlog, List.append_assoc]
  · simp [Client.permitEvents]

end

end Rspm
