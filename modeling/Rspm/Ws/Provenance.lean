/-
  Where readiness comes from.

  The events of a socket are those since its `try_mark_connected`.  `Session`
  says which of them each field of a connected state attests; every move keeps
  it, so a ready state has the whole recovery behind it, in order.
-/
import Rspm.Ws.Closure

namespace Rspm

open scoped List

def Event.isConnected : Event → Bool
  | .connected _ => true
  | _ => false

/-- The calls after the last one that connected. -/
def sinceConnected (cs : List CellCall) : List CellCall :=
  cs.foldl (fun socket c => if c.event.isConnected then [] else socket ++ [c]) []

theorem sinceConnected_snoc (cs : List CellCall) (c : CellCall) :
    sinceConnected (cs ++ [c]) =
      if c.event.isConnected then [] else sinceConnected cs ++ [c] := by
  simp [sinceConnected]

theorem sinceConnected_not_connected (cs : List CellCall) :
    ∀ c ∈ sinceConnected cs, ∀ generation, c.event ≠ .connected generation := by
  induction cs using List.reverseRecOn with
  | nil => simp [sinceConnected]
  | append_singleton cs c ih =>
    rw [sinceConnected_snoc]
    split_ifs with h
    · simp
    · intro d hd generation he
      rcases List.mem_append.1 hd with hd | hd
      · exact ih d hd generation he
      · obtain rfl := List.mem_singleton.1 hd
        exact h (by rw [he]; rfl)

/-! ## The recorded proof -/

/-- A recorded authority comes with the rest of its proof, for the connected socket. -/
def Recorded (s : AuthenticatedUserWsState) : Prop :=
  ∀ authority, s.restCredentialAuthority = some authority →
    s.connection = .connected ∧ authority.identity = s.credentialIdentity ∧
    s.restProofGeneration = some s.generation ∧
    ∃ floor, s.restProofLivenessFloor = some floor ∧ floor ≤ s.livenessVersion ∧
      (s.subscription = .serverResponsive → floor < s.livenessVersion)

theorem Move.recorded {s s' : AuthenticatedUserWsState} {e : Event} (h : Move s e s')
    (hs : Recorded s) : Recorded s' := by
  intro authority ha
  cases h with
  | ledger | lost | overflowed => exact hs authority ha
  | connecting | connected | disconnected | gap =>
    simp only [AuthenticatedUserWsState.clearRestProof] at ha; cases ha
  | subscribed hc =>
    obtain ⟨h1, h2, h3, floor, hf, hle, -⟩ := hs authority ha
    exact ⟨h1, h2, h3, floor, hf, hle, fun h => by cases h⟩
  | responded hp =>
    obtain ⟨h1, h2, h3, floor, hf, hle, -⟩ := hs authority ha
    exact ⟨h1, h2, h3, floor, hf, Nat.le_succ_of_le hle, fun _ => Nat.lt_succ_of_le hle⟩
  | proven ht hi =>
    obtain ⟨hc, -, -, -, rfl⟩ := (s.recoveryToken_eq_some).1 ht
    obtain rfl := Option.some.inj ha
    exact ⟨hc, hi.symm, rfl, s.livenessVersion, rfl, le_rfl, fun h => by cases h⟩
  | @caughtUp f he =>
    rw [f.evidence.next_eq, ← he] at ha ⊢
    exact hs authority ha
  | closed he hc => rw [hc.restCredentialAuthority] at ha; cases ha

/-! ## The session of a socket -/

/-- What the fields of a connected state of `generation` attest about its events. -/
structure Session (generation : ℕ) (events : List Event) (s : AuthenticatedUserWsState) :
    Prop where
  submitted : s.authentication = .credentialsSubmitted → [.subscribed generation] <+ events
  responsive : s.subscription = .serverResponsive →
    [.subscribed generation, .responded generation] <+ events
  proven : ∀ authority, s.restCredentialAuthority = some authority →
    ∃ token, token.generation = generation ∧
      [.subscribed generation, .responded generation, .proven token authority] <+ events
  reproven : ∀ authority, s.restCredentialAuthority = some authority →
    s.subscription = .serverResponsive → ∃ token, token.generation = generation ∧
      [.subscribed generation, .responded generation, .proven token authority,
        .responded generation] <+ events
  caughtUp : s.catchUpGeneration = some generation →
    ∃ token authority f, token.generation = generation ∧
      f.nextState.catchUpGeneration = some generation ∧
      f.expectedState.restCredentialAuthority = some authority ∧
      [.subscribed generation, .responded generation, .proven token authority,
        .responded generation, .caughtUp f] <+ events

/-- A new socket attests nothing. -/
theorem Session.new {generation : ℕ} {s : AuthenticatedUserWsState}
    (ha : s.authentication = .inactive) (hs : s.subscription = .inactive)
    (hr : s.restCredentialAuthority = none) (hc : s.catchUpGeneration = none) :
    Session generation [] s where
  submitted h := by rw [ha] at h; cases h
  responsive h := by rw [hs] at h; cases h
  proven _ h := by rw [hr] at h; cases h
  reproven _ h := by rw [hr] at h; cases h
  caughtUp h := by rw [hc] at h; cases h

/-- More events attest as much of the same fields. -/
theorem Session.mono {generation : ℕ} {events events' : List Event}
    {s s' : AuthenticatedUserWsState} (h : Session generation events s)
    (hsub : events <+ events') (ha : s'.authentication = s.authentication)
    (hs : s'.subscription = s.subscription)
    (hr : s'.restCredentialAuthority = s.restCredentialAuthority)
    (hc : s'.catchUpGeneration = s.catchUpGeneration) : Session generation events' s' where
  submitted h' := (h.submitted (ha ▸ h')).trans hsub
  responsive h' := (h.responsive (hs ▸ h')).trans hsub
  proven a h' := by
    obtain ⟨t, ht, hl⟩ := h.proven a (hr ▸ h')
    exact ⟨t, ht, hl.trans hsub⟩
  reproven a h' hs' := by
    obtain ⟨t, ht, hl⟩ := h.reproven a (hr ▸ h') (hs ▸ hs')
    exact ⟨t, ht, hl.trans hsub⟩
  caughtUp h' := by
    obtain ⟨t, a, f, ht, hf, he, hl⟩ := h.caughtUp (hc ▸ h')
    exact ⟨t, a, f, ht, hf, he, hl.trans hsub⟩

theorem sublist_snoc {α : Type} {l m : List α} (h : l <+ m) (a : α) : l ++ [a] <+ m ++ [a] :=
  h.append (List.Sublist.refl [a])

/-- A move within a socket keeps its session. -/
theorem Move.session {s s' : AuthenticatedUserWsState} {e : Event} {events : List Event}
    (h : Move s e s') (hs : Session s.generation events s) (hc : s'.connection = .connected)
    (he : e.isConnected = false) :
    s'.generation = s.generation ∧ Session s.generation (events ++ [e]) s' := by
  have hk : Session s.generation (events ++ [e]) s :=
    hs.mono (List.sublist_append_left events [e]) rfl rfl rfl rfl
  cases h with
  | ledger | lost | overflowed => exact ⟨rfl, hk.mono (.refl _) rfl rfl rfl rfl⟩
  | connecting | disconnected => cases hc
  | connected => cases he
  | subscribed =>
    exact ⟨rfl, fun _ => sublist_snoc (List.nil_sublist events) _, nofun, hk.proven,
      fun a ha => nofun, hk.caughtUp⟩
  | responded hp =>
    refine ⟨rfl, hk.submitted, fun _ => sublist_snoc (hs.submitted hp.2.2.1) _, hk.proven,
      fun a ha _ => ?_, hk.caughtUp⟩
    obtain ⟨t, ht, hl⟩ := hs.proven a ha
    exact ⟨t, ht, sublist_snoc hl _⟩
  | @proven token authority ht hi =>
    obtain ⟨-, -, hsub, -, rfl⟩ := (s.recoveryToken_eq_some).1 ht
    refine ⟨rfl, hk.submitted, nofun, fun a ha => ?_, fun a ha => nofun, hk.caughtUp⟩
    obtain rfl := Option.some.inj ha
    exact ⟨_, rfl, sublist_snoc (hs.responsive hsub) _⟩
  | gap => exact ⟨rfl, hk.submitted, nofun, nofun, nofun, hk.caughtUp⟩
  | @caughtUp f hexp =>
    subst hexp
    have hr := f.evidence.ready.1
    rw [f.evidence.next_eq] at hr ⊢
    obtain ⟨-, -, hresp, -, -, hauth, -⟩ := hr
    obtain ⟨a, ha⟩ := Option.isSome_iff_exists.1 hauth
    obtain ⟨t, ht, hl⟩ := hs.reproven a ha hresp
    refine ⟨rfl, hk.submitted, hk.responsive, hk.proven, hk.reproven, fun _ => ?_⟩
    exact ⟨t, a, f, ht, by rw [f.evidence.next_eq]; rfl, ha, sublist_snoc hl _⟩
  | closed he hcl => rw [hcl.connection] at hc; cases hc

/-- A move into a connected state is the connecting one, or stays on the socket. -/
theorem Move.connected_cases {s s' : AuthenticatedUserWsState} {e : Event} (h : Move s e s')
    (hc : s'.connection = .connected) :
    (e = .connected s'.generation ∧ s'.authentication = .inactive ∧
      s'.subscription = .inactive ∧ s'.restCredentialAuthority = none ∧
      s'.catchUpGeneration = none) ∨
    e.isConnected = false ∧ s.connection = .connected := by
  cases h with
  | connected => exact .inl ⟨rfl, rfl, rfl, rfl, rfl⟩
  | ledger | subscribed | responded | proven | gap | lost => exact .inr ⟨rfl, hc⟩
  | overflowed he => rcases he with rfl | rfl <;> exact .inr ⟨rfl, hc⟩
  | connecting | disconnected => cases hc
  | @caughtUp f he =>
    rw [f.evidence.next_eq, ← he] at hc
    exact .inr ⟨rfl, hc⟩
  | closed he hcl => rw [hcl.connection] at hc; cases hc

section
variable {credentialIdentity : AuthenticatedCredentialIdentity} {cs : List CellCall}
  {cell : StateCell}

theorem CellRun.recorded (h : CellRun credentialIdentity cs cell) : Recorded cell.state :=
  h.invariant (P := fun cell => Recorded cell.state) (fun _ h => by cases h)
    fun s op hs => (CellCall.move ⟨s, op⟩).recorded hs

/-- A connected state was opened by the call before its session, and keeps that session. -/
theorem CellRun.session (h : CellRun credentialIdentity cs cell)
    (hc : cell.state.connection = .connected) :
    (∃ as connect, cs = as ++ connect :: sinceConnected cs ∧
      connect.event = .connected cell.state.generation) ∧
    Session cell.state.generation ((sinceConnected cs).map CellCall.event) cell.state := by
  induction h with
  | nil => cases hc
  | @snoc cs s op h _ ih =>
    have hmove := CellCall.move ⟨s, op⟩
    rw [sinceConnected_snoc]
    rcases hmove.connected_cases hc with ⟨he, ha, hs, hr, hcu⟩ | ⟨he, hconn⟩
    · rw [he]
      exact ⟨⟨cs, _, rfl, he⟩, .new ha hs hr hcu⟩
    · obtain ⟨⟨as, connect, hcs, hg⟩, hses⟩ := ih hconn
      obtain ⟨hgen, hses'⟩ := hmove.session hses hc he
      rw [if_neg (by rw [he]; exact Bool.false_ne_true), List.map_append]
      refine ⟨⟨as, connect, ?_, ?_⟩, ?_⟩
      · rw [← List.cons_append, ← List.append_assoc, ← hcs]
      · rw [hg, ← hgen]; rfl
      · rw [← hgen] at hses'; exact hses'

end

/-! ## Gap flags -/

/-- A schema, delivery or evidence gap is open. -/
def AuthenticatedUserWsState.GapOpen (s : AuthenticatedUserWsState) : Prop :=
  s.schemaGap = true ∨ s.deliveryGap = true ∨ s.evidenceGap = true

/-- Only an installed catch-up clears a gap flag. -/
theorem Move.keeps_gaps {s s' : AuthenticatedUserWsState} {e : Event} (h : Move s e s')
    (hn : ∀ f, e ≠ .caughtUp f) :
    (s.schemaGap = true → s'.schemaGap = true) ∧
      (s.deliveryGap = true → s'.deliveryGap = true) ∧
      (s.evidenceGap = true → s'.evidenceGap = true) := by
  cases h with
  | ledger | connecting | subscribed | responded | proven => exact ⟨id, id, id⟩
  | connected | disconnected => exact ⟨id, id, fun _ => rfl⟩
  | gap => exact ⟨fun h => by simp [h], fun h => by simp [h], fun h => by simp [h]⟩
  | lost => exact ⟨id, fun h => by simp [h], fun h => by simp [h]⟩
  | overflowed => exact ⟨id, fun _ => rfl, id⟩
  | caughtUp => exact absurd rfl (hn _)
  | closed he hc => exact ⟨fun _ => hc.schemaGap, fun _ => hc.deliveryGap, fun _ => hc.evidenceGap⟩

/-- A call that closes a gap is a commit that succeeded. -/
theorem CellCall.closes_gap {c : CellCall}
    (h : (c.pre.state.schemaGap = true ∧ c.post.state.schemaGap = false) ∨
      (c.pre.state.deliveryGap = true ∧ c.post.state.deliveryGap = false) ∨
      (c.pre.state.evidenceGap = true ∧ c.post.state.evidenceGap = false)) :
    ∃ f, c.event = .caughtUp f := by
  by_contra hn
  obtain ⟨h1, h2, h3⟩ := c.move.keeps_gaps fun f he => hn ⟨f, he⟩
  rcases h with ⟨hp, hq⟩ | ⟨hp, hq⟩ | ⟨hp, hq⟩
  · rw [h1 hp] at hq; cases hq
  · rw [h2 hp] at hq; cases hq
  · rw [h3 hp] at hq; cases hq

/-- A gap stays open along a path without a commit. -/
theorem gapOpen_of_path {cell cell' : StateCell} {cs : List CellCall}
    (h : Machine.Path cellMachine cell cs cell')
    (hn : ∀ c ∈ cs, ∀ f, CellCall.event c ≠ .caughtUp f) (hg : cell.state.GapOpen) :
    cell'.state.GapOpen := by
  refine h.closed_of_mem (P := fun cell => cell.state.GapOpen) (fun c hc hp => ?_) hg
  obtain ⟨h1, h2, h3⟩ := (CellCall.move c).keeps_gaps (hn c hc)
  exact hp.imp h1 (Or.imp h2 h3)

/-! ## Readiness -/

theorem AuthenticatedUserWsState.channelAuthorityIntact.not_gapOpen
    {s : AuthenticatedUserWsState} (h : s.channelAuthorityIntact) : ¬ s.GapOpen := by
  obtain ⟨-, -, -, -, -, -, hs, hd, -, he, -⟩ := h
  rintro (h | h | h)
  · rw [hs] at h; cases h
  · rw [hd] at h; cases h
  · rw [he] at h; cases h

/-- An intact channel authority has behind it, on its own socket and in this order, the
    subscription, a PONG, the REST proof, a later PONG and a commit; its recorded proof is of
    its credential identity and older than its liveness; and every gap that a call ever left
    open was followed by a commit, which alone closes gaps. -/
theorem readiness_provenance {credentialIdentity : AuthenticatedCredentialIdentity}
    {cs : List CellCall} {cell : StateCell} (h : CellRun credentialIdentity cs cell)
    (hr : cell.state.channelAuthorityIntact) :
    (∃ as connect socket token authority f,
      cs = as ++ connect :: socket ∧ connect.event = .connected cell.state.generation ∧
      (∀ c ∈ socket, ∀ generation, c.event ≠ .connected generation) ∧
      token.generation = cell.state.generation ∧
      f.nextState.catchUpGeneration = some cell.state.generation ∧
      [.subscribed cell.state.generation, .responded cell.state.generation,
        .proven token authority, .responded cell.state.generation, .caughtUp f] <+
          socket.map CellCall.event) ∧
    (∃ authority floor, cell.state.restCredentialAuthority = some authority ∧
      authority.identity = cell.state.credentialIdentity ∧
      cell.state.restProofGeneration = some cell.state.generation ∧
      cell.state.restProofLivenessFloor = some floor ∧ floor < cell.state.livenessVersion) ∧
    (∀ as c bs, cs = as ++ c :: bs → c.post.state.GapOpen →
      ∃ b ∈ bs, ∃ f, b.event = .caughtUp f) ∧
    ∀ c ∈ cs,
      (c.pre.state.schemaGap = true ∧ c.post.state.schemaGap = false) ∨
        (c.pre.state.deliveryGap = true ∧ c.post.state.deliveryGap = false) ∨
        (c.pre.state.evidenceGap = true ∧ c.post.state.evidenceGap = false) →
      ∃ f, c.event = .caughtUp f := by
  have hgap := hr.not_gapOpen
  obtain ⟨hconn, -, hresp, -, hcatch, hauth, -⟩ := hr
  refine ⟨?_, ?_, ?_, fun c _ => CellCall.closes_gap⟩
  · obtain ⟨⟨as, connect, hcs, hg⟩, hses⟩ := h.session hconn
    obtain ⟨token, authority, f, ht, hf, -, hsub⟩ := hses.caughtUp hcatch
    exact ⟨as, connect, _, token, authority, f, hcs, hg, sinceConnected_not_connected cs, ht, hf,
      hsub⟩
  · obtain ⟨authority, ha⟩ := Option.isSome_iff_exists.1 hauth
    obtain ⟨-, hid, hgen, floor, hfloor, -, hlt⟩ := h.recorded authority ha
    exact ⟨authority, floor, ha, hid, hgen, hfloor, hlt hresp⟩
  · rintro as c bs rfl hopen
    by_contra hn
    exact hgap (gapOpen_of_path h.after (fun b hb f he => hn ⟨b, hb, f, he⟩) hopen)

/-- The recovery of a new channel makes it ready. -/
theorem readiness_provenance_recovered :
    ∃ (cs : List CellCall) (cell : StateCell), CellRun {} cs cell ∧ cell.state.isReady ∧
      ∃ f, .caughtUp f ∈ cs.map CellCall.event := by
  let f := (recoveryFinalization [] 1).get (by decide)
  have hrun := recovery_run (by simp) (Option.some_get _ : some f = recoveryFinalization [] 1).symm
  have hready : (recoveryCommit [] 1 f).post.state.isReady := by decide
  obtain ⟨⟨as, connect, socket, _, _, f', hcs, -, -, -, -, hsub⟩, -⟩ :=
    readiness_provenance hrun hready.1
  refine ⟨_, _, hrun, hready, f', ?_⟩
  rw [hcs, List.map_append, List.map_cons]
  exact List.mem_append_right _ (List.mem_cons_of_mem _ (hsub.subset (by simp)))

end Rspm
