/-
  Which catch-up `authority_matches` vouches for.

  A REST proof on a channel that is already caught up replaces the recorded
  authority and keeps the installed catch-up, so one PONG later the channel
  matches an authority that no commit installed.  In the runs whose proofs all
  come before their catch-up is installed, a match has its commit behind it.
-/
import Rspm.Ws.Provenance

namespace Rspm

/-- The call commits a finalization that was prepared with `authority`. -/
def CellCall.Installs (authority : AuthenticatedCredentialAuthority) (c : CellCall) : Prop :=
  ∃ f, c.event = .caughtUp f ∧ f.expectedState.restCredentialAuthority = some authority

/-- A REST proof recorded after the calls `before` comes while no catch-up is installed for
    the socket, or while a gap is open, or for an authority installed on this socket. -/
def CellCall.Timely (before : List CellCall) (c : CellCall) : Prop :=
  ∀ token authority, c.event = .proven token authority →
    c.pre.state.catchUpGeneration ≠ some c.pre.state.generation ∨ c.pre.state.GapOpen ∨
      ∃ d ∈ sinceConnected before, d.Installs authority

/-- The state names `authority` and reads as caught up with it. -/
structure Vouches (authority : AuthenticatedCredentialAuthority) (s : AuthenticatedUserWsState) :
    Prop where
  connected : s.connection = .connected
  recorded : s.restCredentialAuthority = some authority
  caughtUp : s.catchUpGeneration = some s.generation
  closed : ¬ s.GapOpen

/-- A state comes to vouch for an authority by its commit, by a late proof, or it did before. -/
theorem Move.vouches {s s' : AuthenticatedUserWsState} {e : Event}
    {authority : AuthenticatedCredentialAuthority} (h : Move s e s') (hv : Vouches authority s') :
    e.isConnected = false ∧
    ((∃ f, e = .caughtUp f ∧ f.expectedState.restCredentialAuthority = some authority) ∨
      (∃ token, e = .proven token authority ∧ s.catchUpGeneration = some s.generation ∧
        ¬ s.GapOpen) ∨
      Vouches authority s) := by
  obtain ⟨hc, hr, hcu, hg⟩ := hv
  cases h with
  | ledger | subscribed | responded => exact ⟨rfl, .inr (.inr ⟨hc, hr, hcu, hg⟩)⟩
  | connecting | connected | disconnected | gap => cases hr
  | @proven token authority' ht hi =>
    obtain rfl := Option.some.inj hr
    exact ⟨rfl, .inr (.inl ⟨token, rfl, hcu, hg⟩)⟩
  | lost =>
    refine ⟨rfl, .inr (.inr ⟨hc, hr, hcu, fun ho => hg ?_⟩)⟩
    exact ho.imp id (Or.imp (fun h => by simp [h]) fun h => by simp [h])
  | overflowed => exact absurd (.inr (.inl rfl)) hg
  | @caughtUp f he =>
    rw [f.evidence.next_eq] at hr
    exact ⟨rfl, .inl ⟨f, rfl, hr⟩⟩
  | closed he hcl => rw [hcl.restCredentialAuthority] at hr; cases hr

section
variable {credentialIdentity : AuthenticatedCredentialIdentity} {cs : List CellCall}
  {cell : StateCell}

/-- With timely proofs, what a state vouches for was installed on its socket. -/
theorem CellRun.installed (h : CellRun credentialIdentity cs cell)
    (ht : ∀ as c bs, cs = as ++ c :: bs → CellCall.Timely as c)
    {authority : AuthenticatedCredentialAuthority} (hv : Vouches authority cell.state) :
    ∃ c ∈ sinceConnected cs, c.Installs authority := by
  induction h generalizing authority with
  | nil => cases hv.connected
  | @snoc cs s op h _ ih =>
    obtain ⟨he, hcases⟩ := (CellCall.move ⟨s, op⟩).vouches hv
    rw [sinceConnected_snoc, if_neg (by rw [he]; exact Bool.false_ne_true)]
    have hprior : (∃ c ∈ sinceConnected cs, CellCall.Installs authority c) →
        ∃ c ∈ sinceConnected cs ++ [⟨s, op⟩], CellCall.Installs authority c :=
      fun ⟨c, hc, hi⟩ => ⟨c, List.mem_append_left _ hc, hi⟩
    rcases hcases with ⟨f, hf, ha⟩ | ⟨token, hp, hcu, hg⟩ | hv
    · exact ⟨_, List.mem_append_right _ (List.mem_singleton_self _), f, hf, ha⟩
    · rcases ht cs _ [] rfl token authority hp with h | h | h
      · exact absurd hcu h
      · exact absurd h hg
      · exact hprior h
    · exact hprior (ih (fun as c bs hcs => ht as c (bs ++ [⟨s, op⟩]) (by simp [hcs])) hv)

/-- In a run whose proofs are timely, `authority_matches` is true only for an authority whose
    finalization was prepared and committed on the socket of the token. -/
theorem authority_matches_installed {c : CellCall} {token : AuthenticatedUserRecoveryToken}
    {authority : AuthenticatedCredentialAuthority} {transportWatermark : ℕ}
    (h : CellRun credentialIdentity (cs ++ [c]) cell)
    (ht : ∀ as d bs, cs = as ++ d :: bs → CellCall.Timely as d)
    (hi : c.input = .authorityMatches token authority transportWatermark)
    (ho : c.out = .bool true) :
    ∃ as connect socket, cs = as ++ connect :: socket ∧
      connect.event = .connected token.generation ∧
      (∀ d ∈ socket, ∀ generation, d.event ≠ .connected generation) ∧
      ∃ commit ∈ socket, ∃ f, commit.event = .caughtUp f ∧
        ∃ prepare ∈ cs, prepare.out = .finalization (some f) ∧
          ∃ token' watermark floor, prepare.input =
            .prepareCatchUpFinalization token' authority watermark floor := by
  obtain ⟨hrun, -⟩ := h.before
  obtain ⟨htoken, hauth, -, hready⟩ := CellCall.matched hi ho
  obtain ⟨hconn, -, -, -, rfl⟩ := (c.pre.state.recoveryToken_eq_some).1 htoken
  have hv : Vouches authority c.pre.state :=
    ⟨hconn, hauth, hready.1.2.2.2.2.1, hready.1.not_gapOpen⟩
  obtain ⟨⟨as, connect, hcs, hg⟩, -⟩ := CellRun.session hrun hconn
  obtain ⟨commit, hmem, f, hf, hfa⟩ := CellRun.installed hrun ht hv
  have hcommit : commit ∈ cs := by
    rw [hcs]; exact List.mem_append_right _ (List.mem_cons_of_mem _ hmem)
  obtain ⟨xs, ys, hxy⟩ := List.append_of_mem hcommit
  obtain ⟨prepare, hp, hout⟩ := CellRun.prepared_before (hxy ▸ hrun) hf
  obtain ⟨hexp, -, token', authority', watermark, floor, hin, hadm⟩ := CellCall.prepared hout
  have : authority' = authority := by
    have := hadm.2.2.2.1
    rw [hexp.1, hfa] at this
    exact (Option.some.inj this).symm
  refine ⟨as, connect, _, hcs, hg, sinceConnected_not_connected cs, commit, hmem, f, hf, prepare,
    ?_, hout, token', watermark, floor, this ▸ hin⟩
  rw [hxy]; exact List.mem_append_left _ hp

end

/-- The calls of a recovery, the last of them its commit. -/
def recoveredCalls (f : AuthenticatedUserCatchUpFinalization) : List CellCall :=
  cellMachine.calls (.newWithIdentity {}) (recoveryOps []) ++ [recoveryPrepare [] 1] ++
    [recoveryCommit [] 1 f]

theorem recoveredCalls_input (f : AuthenticatedUserCatchUpFinalization) :
    (recoveredCalls f).map Machine.Call.input =
      recoveryOps [] ++ [(recoveryPrepare [] 1).input] ++ [.commitCatchUpFinalization f] := by
  rw [recoveredCalls, List.map_append, List.map_append, Machine.calls_input]
  rfl

/-- A recovered channel matches the authority of its catch-up. -/
theorem authority_matches_installed_recovered :
    ∃ (cs : List CellCall) (c : CellCall) (cell : StateCell), CellRun {} (cs ++ [c]) cell ∧
      c.out = .bool true ∧ ∃ prepare ∈ cs, ∃ token' watermark floor, prepare.input =
        .prepareCatchUpFinalization token' (sampleAuthority 0) watermark floor := by
  let f := (recoveryFinalization [] 1).get (by decide)
  let c : CellCall :=
    ⟨(recoveryCommit [] 1 f).post, .authorityMatches ⟨1, 1, {}⟩ (sampleAuthority 0) 1⟩
  have hrun : CellRun {} (recoveredCalls f) c.pre := recovery_run (by simp) (Option.some_get _).symm
  have hmatch : CellRun {} (recoveredCalls f ++ [c]) c.post := hrun.snoc trivial
  have hout : c.out = .bool true := congrArg Reply.bool (by decide)
  have htimely : ∀ as d bs, recoveredCalls f = as ++ d :: bs → CellCall.Timely as d := by
    intro as d bs hcs token authority hp
    have hd : d ∈ recoveredCalls f := hcs ▸ List.mem_append_right _ List.mem_cons_self
    have hin := CellCall.input_of_proven hp
    rw [recoveredCalls, recovery_calls, List.append_assoc, List.append_assoc,
      List.cons_append] at hd
    rcases List.mem_append.1 hd with hd | hd
    · have := List.mem_map_of_mem (f := Machine.Call.input) hd
      simp [Machine.calls_input, hin, recoverySetup] at this
    · rcases List.mem_cons.1 hd with rfl | hd
      · exact .inl (by decide)
      · have := List.mem_map_of_mem (f := Machine.Call.input) hd
        simp [Machine.calls_input, hin, recoveryPrepare, recoveryCommit] at this
  obtain ⟨-, -, -, -, -, -, -, -, -, -, prepare, hp, -, h⟩ :=
    authority_matches_installed hmatch htimely rfl hout
  exact ⟨_, _, _, hmatch, hout, prepare, hp, h⟩

/-- A second recovery that only records its REST proof. -/
def lateOps : List Op :=
  [.markAuthenticatedRestProven ⟨1, 1, {}⟩ (sampleAuthority 1), .markServerLivenessProven 1]

/-- A second REST proof on the ready channel, and a PONG: the channel matches an authority
    for which nothing was prepared. -/
theorem authority_matches_not_installed :
    ¬ ∀ (credentialIdentity : AuthenticatedCredentialIdentity) (cs : List CellCall)
      (c : CellCall) (cell : StateCell) (token : AuthenticatedUserRecoveryToken)
      (authority : AuthenticatedCredentialAuthority) (transportWatermark : ℕ),
      CellRun credentialIdentity (cs ++ [c]) cell →
      c.input = .authorityMatches token authority transportWatermark → c.out = .bool true →
      ∃ commit ∈ cs, ∃ f, commit.event = .caughtUp f ∧
        f.expectedState.restCredentialAuthority = some authority := by
  intro h
  let f := (recoveryFinalization [] 1).get (by decide)
  have hrun : CellRun {} (recoveredCalls f) (recoveryCommit [] 1 f).post :=
    recovery_run (by simp) (Option.some_get _).symm
  have hfree : ∀ op ∈ lateOps, ∀ cs, op.available cs := by simp [lateOps, Op.available]
  have hlate := hrun.extend _ (Machine.Admits.of_forall hfree (recoveredCalls f) _)
  have hmatch := hlate.snoc (i := .authorityMatches ⟨1, 1, {}⟩ (sampleAuthority 1) 1)
    (by simp [Op.available])
  obtain ⟨commit, hc, f', hf, ha⟩ := h {} _ _ _ _ _ _ hmatch rfl (congrArg Reply.bool (by decide))
  have hinput := List.mem_map_of_mem (f := Machine.Call.input) hc
  rw [List.map_append, recoveredCalls_input, Machine.calls_input,
    (CellCall.event_eq_caughtUp.1 hf).1] at hinput
  have : f' = f := by
    simpa [recoveryOps, recoverySetup, recoveryProof, recoveryPrepare, lateOps] using hinput
  rw [this] at ha
  exact absurd ha (by decide)

end Rspm
