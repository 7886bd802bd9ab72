/-
  Freshness of the REST proof.

  A gap mark drops the recorded proof, so a catch-up cannot clear a gap that
  landed after its traversal.  A drop, an enqueue of a range that was never
  handed out and a second retention of a frame advance the gap version and
  leave the proof: `rest_proof_fresh_iff` says that these are exactly the runs
  in which a commit clears a younger gap version.
-/
import Rspm.Ws.Closure

namespace Rspm

/-- The call records a REST proof. -/
def CellCall.Proves (c : CellCall) : Prop := ∃ token authority, c.event = .proven token authority

/-- The proof is gone, or the gap version is still `gapVersion`, or the state is shut. -/
def ProofCurrent (gapVersion : ℕ) (s : AuthenticatedUserWsState) : Prop :=
  s.restProofGeneration = none ∨ s.gapVersion = gapVersion ∨ s.Shut

/-- Apart from lost evidence and new proofs, a move that advances the gap version drops
    the proof or shuts the state. -/
theorem Move.proofCurrent {s s' : AuthenticatedUserWsState} {e : Event} {gapVersion : ℕ}
    (h : Move s e s') (hl : e ≠ .lost) (hp : ∀ token authority, e ≠ .proven token authority)
    (hs : ProofCurrent gapVersion s) (hk : s.Shut → s'.Shut) : ProofCurrent gapVersion s' := by
  rcases hs with hs | hs | hs
  · cases h with
    | ledger | subscribed | responded => exact .inl hs
    | connecting | connected | disconnected | gap => exact .inl rfl
    | proven => exact absurd rfl (hp _ _)
    | lost => exact absurd rfl hl
    | overflowed => exact .inr (.inr (.inl rfl))
    | @caughtUp f he => left; rw [f.evidence.next_eq, ← he]; exact hs
    | closed he hc => exact .inl hc.restProofGeneration
  · cases h with
    | ledger | subscribed | responded => exact .inr (.inl hs)
    | connecting | connected | disconnected | gap => exact .inl rfl
    | proven => exact absurd rfl (hp _ _)
    | lost => exact absurd rfl hl
    | overflowed => exact .inr (.inr (.inl rfl))
    | @caughtUp f he => right; left; rw [f.evidence.next_eq, ← he]; exact hs
    | closed he hc => exact .inl hc.restProofGeneration
  · exact .inr (.inr (hk hs))

/-- Lost evidence advances the gap version, or shuts the state. -/
theorem Move.lost_advances {s s' : AuthenticatedUserWsState} (h : Move s .lost s') :
    s.gapVersion < s'.gapVersion ∨ s'.Shut := by
  cases h with
  | lost => exact .inl (Nat.lt_succ_self _)
  | overflowed => exact .inl (Nat.lt_succ_self _)
  | closed he hc => exact .inr (.inr hc.permanent)

/-- Without a proof nothing but a new proof brings one. -/
theorem Move.no_proof {s s' : AuthenticatedUserWsState} {e : Event} (h : Move s e s')
    (hp : ∀ token authority, e ≠ .proven token authority) (hs : s.restProofGeneration = none) :
    s'.restProofGeneration = none := by
  cases h with
  | ledger | subscribed | responded | lost | overflowed => exact hs
  | connecting | connected | disconnected | gap => rfl
  | proven => exact absurd rfl (hp _ _)
  | @caughtUp f he => rw [f.evidence.next_eq, ← he]; exact hs
  | closed he hc => exact hc.restProofGeneration

section
variable {credentialIdentity : AuthenticatedCredentialIdentity}
  {before between after : List CellCall} {mark prepare commit : CellCall} {cell : StateCell}
  {f : AuthenticatedUserCatchUpFinalization}

/-- Whenever a finalization was prepared, a REST proof was recorded before, and one of
    them is the last. -/
theorem CellRun.exists_last_proof {cs : List CellCall}
    (h : CellRun credentialIdentity (cs ++ prepare :: after) cell)
    (hp : prepare.out = .finalization (some f)) :
    ∃ before mark between, cs = before ++ mark :: between ∧ mark.Proves ∧
      ∀ c ∈ between, ¬ c.Proves := by
  classical
  refine Machine.exists_last ?_
  by_contra hn
  have hnone : prepare.pre.state.restProofGeneration = none := by
    refine h.before.1.path.closed_of_mem
      (P := fun cell => cell.state.restProofGeneration = none) (fun c hc hs => ?_) rfl
    exact (CellCall.move c).no_proof (fun t a he => hn ⟨c, hc, t, a, he⟩) hs
  rw [(CellCall.prepared hp).1.1, f.evidence.proven] at hnone
  cases hnone

/-- Between the proof and the preparation the gap version stands still exactly if no
    evidence was lost. -/
theorem CellRun.gapVersion_at_prepare
    (h : CellRun credentialIdentity (before ++ mark :: between ++ prepare :: after) cell)
    (hm : mark.Proves) (hl : ∀ c ∈ between, ¬ c.Proves)
    (hp : prepare.out = .finalization (some f)) :
    prepare.pre.state.gapVersion = mark.pre.state.gapVersion ↔
      ∀ c ∈ between, c.event ≠ .lost := by
  have hpath := h.between
  have hmark : mark.post.state.gapVersion = mark.pre.state.gapVersion := by
    obtain ⟨t, a, he⟩ := hm
    have := mark.move
    rw [he] at this
    generalize mark.post.state = s' at this ⊢
    cases this with
    | proven => rfl
    | overflowed he => rcases he with he | he <;> cases he
    | closed he => rcases he with he | he <;> cases he
  have hcoh : Coherent mark.post := (CellRun.coherent h.before.1.before.1).step
  have hexp := (CellCall.prepared hp).1.1
  have hshut : ¬ prepare.pre.state.Shut := hexp ▸ f.expected_not_shut
  constructor
  · intro heq c hc hlost
    obtain ⟨as, bs, rfl⟩ := List.append_of_mem hc
    obtain ⟨t, has, hrest⟩ := hpath.split
    obtain ⟨rfl, hbs⟩ := hrest.head
    have hcpre : Coherent c.pre := has.closed (fun s op => Coherent.step (c := ⟨s, op⟩)) hcoh
    have hbefore := grows_of_path has
    have hafter := grows_of_path hbs
    have hmove := CellCall.move c
    rw [hlost] at hmove
    rcases hmove.lost_advances with hlt | hs
    · have h1 := hbefore.gapVersion
      have h2 := hafter.gapVersion
      omega
    · have hkeep := hbs.closed (fun s op => KeptFrom.step op) (KeptFrom.refl hcpre.step)
      exact hshut (hkeep.2.shut hs)
  · intro hno
    have := hpath.closed_of_mem
      (P := fun cell => Coherent cell ∧ ProofCurrent mark.pre.state.gapVersion cell.state)
      (fun (c : CellCall) hc ⟨hco, hs⟩ => ⟨hco.step, c.move.proofCurrent (hno c hc)
        (fun t a he => hl c hc ⟨t, a, he⟩) hs (CellCall.kept hco).shut⟩)
      ⟨hcoh, .inr (.inl hmark)⟩
    rcases this.2 with hn | hn | hn
    · rw [hexp, f.evidence.proven] at hn; cases hn
    · exact hn
    · exact absurd hn hshut

/-- For every commit that succeeds and every preparation of its finalization there is a last
    REST proof before that preparation, and the commit clears the gap version of that proof
    exactly if no evidence was lost in between outside the gap marks. -/
theorem rest_proof_fresh_iff {cs : List CellCall}
    (h : CellRun credentialIdentity (cs ++ [commit]) cell) (hc : commit.event = .caughtUp f) :
    (∃ before mark between prepare after, cs = before ++ mark :: between ++ prepare :: after ∧
      mark.Proves ∧ (∀ c ∈ between, ¬ c.Proves) ∧ prepare.out = .finalization (some f)) ∧
    ∀ before mark between prepare after, cs = before ++ mark :: between ++ prepare :: after →
      mark.Proves → (∀ c ∈ between, ¬ c.Proves) → prepare.out = .finalization (some f) →
      (commit.pre.state.gapVersion = mark.pre.state.gapVersion ↔
        ∀ c ∈ between, c.event ≠ .lost) := by
  constructor
  · obtain ⟨prepare, hmem, hp⟩ := h.prepared_before hc
    obtain ⟨as, after, rfl⟩ := List.append_of_mem hmem
    obtain ⟨before, mark, between, rfl, hm, hl⟩ := CellRun.exists_last_proof h.before.1 hp
    exact ⟨before, mark, between, prepare, after, rfl, hm, hl, hp⟩
  · rintro before mark between prepare after rfl hm hl hp
    have hstate : commit.pre.state = prepare.pre.state :=
      (CellCall.installed hc).1.1.trans (CellCall.prepared hp).1.1.symm
    rw [hstate]
    exact CellRun.gapVersion_at_prepare h.before.1 hm hl hp

end

/-- A recovery without a gap clears the gap version of its proof. -/
theorem rest_proof_fresh_recovered :
    ∃ (cs : List CellCall) (mark commit : CellCall) (cell : StateCell),
      CellRun {} (cs ++ [commit]) cell ∧ mark ∈ cs ∧ mark.Proves ∧ commit.out = .bool true ∧
        commit.pre.state.gapVersion = mark.pre.state.gapVersion := by
  let f := (recoveryFinalization [] 1).get (by decide)
  have hf : recoveryFinalization [] 1 = some f := (Option.some_get _).symm
  have hrun := recovery_run (by simp) hf
  have hcommit : (recoveryCommit [] 1 f).out = .bool true := congrArg Reply.bool
    (show ((recoveryPrepare [] 1).post.commitCatchUpFinalization f).result = true by decide)
  have hmark : recoveryMark.Proves := ⟨_, _, rfl⟩
  have hpong : ∀ c ∈ cellMachine.calls recoveryMark.post [.markServerLivenessProven 1],
      CellCall.event c = .responded 1 := by
    intro c hc
    obtain rfl := List.mem_singleton.1 hc
    rfl
  rw [recovery_calls] at hrun
  refine ⟨_, recoveryMark, _, _, hrun, by simp, hmark, hcommit, ?_⟩
  refine ((rest_proof_fresh_iff hrun (CellCall.event_eq_caughtUp.2 ⟨rfl, hcommit⟩)).2 _ _ _ _ []
    rfl hmark (fun c hc => ?_) (recoveryPrepare_out hf)).2 fun c hc => ?_
  · rintro ⟨t, a, he⟩; rw [hpong c hc] at he; cases he
  · rw [hpong c hc]; exact Event.noConfusion

/-- A drop between the proof and the preparation: the catch-up clears a gap that the
    traversal never saw. -/
theorem rest_proof_not_fresh :
    ¬ ∀ (credentialIdentity : AuthenticatedCredentialIdentity)
      (before between after : List CellCall) (mark prepare commit : CellCall)
      (cell : StateCell) (f : AuthenticatedUserCatchUpFinalization),
      CellRun credentialIdentity
        (before ++ mark :: between ++ prepare :: after ++ [commit]) cell →
      mark.Proves → (∀ c ∈ between, ¬ c.Proves) → prepare.out = .finalization (some f) →
      commit.event = .caughtUp f →
      commit.pre.state.gapVersion = mark.pre.state.gapVersion := by
  intro h
  let during : List Op := [.markDropped ⟨1, 1⟩]
  let f := (recoveryFinalization during 2).get (by decide)
  have hf : recoveryFinalization during 2 = some f := (Option.some_get _).symm
  have hrun := recovery_run (by simp [during, Op.available]) hf
  have hcommit : (recoveryCommit during 2 f).out = .bool true := congrArg Reply.bool
    (show ((recoveryPrepare during 2).post.commitCatchUpFinalization f).result = true by decide)
  rw [recovery_calls] at hrun
  have := h {} _ _ [] recoveryMark _ _ _ f hrun ⟨_, _, rfl⟩ ?_ (recoveryPrepare_out hf)
    (CellCall.event_eq_caughtUp.2 ⟨rfl, hcommit⟩)
  · exact absurd this (by decide)
  · intro c hc
    rcases List.mem_pair.1 hc with rfl | rfl <;> rintro ⟨t, a, he⟩ <;> cases he

end Rspm
