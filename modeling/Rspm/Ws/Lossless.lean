/-
  Frame admission is gap-free and lossless.

  `Admitted` is what a run of the connection task shows, as far as it came:
  the batches in the event channel continue one another, each reports its own
  frame and range, and its evidence is pending from before it was sent until it
  is acknowledged.  A frame that gets its range and is not sent is the last one
  of its session, so a hole is never followed by a batch.
-/
import Rspm.Ws.Passage

namespace Rspm

/-- What holds of the task, its cell and the event channel. -/
structure Admitted (x : Connection) : Prop where
  consecutive : ∀ before batch after, x.sent = before ++ batch :: after →
    batch.firstTransportSequence =
      (before.map AuthenticatedUserEventBatch.sequenceWidth).sum + 1
  disjoint : x.sent.Pairwise fun a b =>
    a.firstTransportSequence + (a.sequenceWidth - 1) < b.firstTransportSequence
  numbered : x.sent.Pairwise fun a b => a.frameSequence < b.frameSequence
  generations : x.sent.Pairwise fun a b => a.socketGeneration ≤ b.socketGeneration
  last_of_gap : x.sent.Pairwise fun a b =>
    a.frameGap.isSome → a.socketGeneration < b.socketGeneration
  exact : ∀ before batch r after, x.trace = before ++ .own ⟨.send batch, r⟩ :: after →
    ∃ message receipt range frameSequence evidence,
      Sends (before.filterMap Entry.ownAct) batch message receipt range frameSequence evidence
  retained : ∀ before batch r after, x.trace = before ++ .own ⟨.send batch, r⟩ :: after →
    ∃ evidence earlier between, batch.rawEvidence = some evidence ∧
      before = earlier ++ .retains evidence :: between
  pending : ∀ evidence, x.Awaits evidence → evidence ∈ x.cell.pendingRawFrames.result
  permits : x.cell.pendingRawFrames.result.length + x.held + x.cell.rawFrameCapacity =
    maxPendingRawFrames
  lossless : ∃ rest, x.received = x.sent.map AuthenticatedUserEventBatch.rawFrame ++ rest ∧
    rest.length ≤ 1
  unpanicked : ∀ r, Entry.own ⟨.panic, r⟩ ∉ x.trace

/-! ## Every run -/

theorem Connection.Kept.start {json : List UInt8 → Option FrameValue}
    (credentialIdentity : AuthenticatedCredentialIdentity) :
    ({ cell := .newWithIdentity credentialIdentity } : Connection).Kept json (.free none) where
  ledger := by
    refine ⟨Coherent.new credentialIdentity, rfl, fun n hn => ?_, fun evidence ha => ?_⟩
    · change (∅ : Std.TreeMap ℕ AuthenticatedUserRawFrame).contains n = true at hn
      rw [Std.TreeMap.contains_emptyc] at hn
      cases hn
    · obtain ⟨before, after, hsplit, -⟩ := ha
      cases before <;> cases hsplit
  held := rfl
  steps := ⟨[], rfl⟩
  sequenced := .nil
  counted := nofun
  exact before batch r after hsplit := by cases before <;> cases hsplit
  received := rfl
  unpanicked := nofun
  owes := rfl

/-- The invariant holds as far as a task comes. -/
theorem ConnectionRun.kept {json : List UInt8 → Option FrameValue} (hjson : JsonBounded json)
    {config : AuthenticatedUserWsConfig} {credentialIdentity : AuthenticatedCredentialIdentity}
    {task : ConnectionLoop (Option LoopPoint)} {x : Connection}
    (h : ConnectionRun json config credentialIdentity task x) : ∃ w, x.Kept json w := by
  have hat : Stage.At (.connect 0 config.initialReconnectDelay) (.free none) := trivial
  obtain ⟨w, hkept, -⟩ := World.looping_follows
    (fun k w hk => ConnectionLoop.turn_follows k hk)
    (fun w e s r s' w' hw hd hnext => Connection.Kept.own hjson hw hd hnext)
    (fun w s s' hw hs => hw.bystander hs)
    (Connection.Kept.start credentialIdentity) hat h
  exact ⟨w, hkept⟩

/-- The evidence of a batch was retained before the batch was sent. -/
theorem Sends.retained {before : List Entry} {batch : AuthenticatedUserEventBatch}
    {message : Message} {receipt : AuthenticatedUserFrameReceipt} {range : TransportSequenceRange}
    {frameSequence : ℕ} {evidence : AuthenticatedUserRawFrame}
    (h : Sends (before.filterMap Entry.ownAct) batch message receipt range frameSequence
      evidence) : ∃ earlier between, before = earlier ++ .retains evidence :: between := by
  obtain ⟨earlier, state, hown⟩ := h.steps
  have hmem : (⟨.retainRawFrame evidence, true⟩ : Σ e : ConnectionAct, e.Answer) ∈
      before.filterMap Entry.ownAct := by simp [hown]
  obtain ⟨entry, he, hact⟩ := List.mem_filterMap.1 hmem
  cases entry with
  | other c => cases hact
  | own a =>
    obtain rfl := Option.some.inj hact
    obtain ⟨before, after, rfl⟩ := List.append_of_mem he
    exact ⟨before, after, rfl⟩

theorem Stage.unsent_length (w : Stage) : w.unsent.length ≤ 1 := by
  cases w <;> simp [unsent]

/-- Frame admission is gap-free and lossless, up to the end of the task. -/
theorem frame_admission {json : List UInt8 → Option FrameValue} (hjson : JsonBounded json)
    {config : AuthenticatedUserWsConfig} {credentialIdentity : AuthenticatedCredentialIdentity}
    {task : ConnectionLoop (Option LoopPoint)} {x : Connection}
    (h : ConnectionRun json config credentialIdentity task x) : Admitted x := by
  obtain ⟨w, hkept⟩ := h.kept hjson
  exact {
    consecutive := hkept.sequenced.consecutive
    disjoint := hkept.sequenced.disjoint
    numbered := hkept.sequenced.numbered
    generations := hkept.sequenced.generations
    last_of_gap := hkept.sequenced.last_of_gap
    exact := hkept.exact
    retained := by
      intro before batch r after hsplit
      obtain ⟨message, receipt, range, frameSequence, evidence, hsends⟩ :=
        hkept.exact before batch r after hsplit
      obtain ⟨earlier, between, hbefore⟩ := hsends.retained
      exact ⟨evidence, earlier, between, hsends.rawEvidence, hbefore⟩
    pending := fun evidence ha =>
      StateCell.mem_pendingRawFrames (hkept.ledger.awaited evidence ha)
    permits := by
      rw [StateCell.length_pendingRawFrames]
      exact hkept.ledger.permits
    lossless := ⟨w.unsent, hkept.received, w.unsent_length⟩
    unpanicked := hkept.unpanicked }

/-! ## A frame, step by step -/

section

variable {json : List UInt8 → Option FrameValue} {config : AuthenticatedUserWsConfig}
  {credentialIdentity : AuthenticatedCredentialIdentity} {x : Connection}

/-- The next action of the task. -/
theorem ConnectionRun.act {e : ConnectionAct} {k : e.Answer → ConnectionLoop (Option LoopPoint)}
    (h : ConnectionRun json config credentialIdentity (.act e k) x) (r : e.Answer)
    (hdoes : ∀ op reply, e.cellCall r = some (op, reply) → (x.call op).out = reply) :
    ConnectionRun json config credentialIdentity (k r) (x.after e r) :=
  h.tail (.along (.own ⟨hdoes, rfl⟩))

theorem ConnectionRun.turn {k : LoopPoint}
    (h : ConnectionRun json config credentialIdentity (.ret (some k)) x) :
    ConnectionRun json config credentialIdentity (ConnectionLoop.turn json config k) x :=
  h.tail .turn

end

theorem pairJson_bounded : JsonBounded pairJson := by
  intro frame events h
  unfold pairJson at h
  split_ifs at h with hempty hpair
  · cases h
    exact Nat.zero_le _
  · cases h
    subst hpair
    decide +kernel

theorem receive_pairFrame (generation : ℕ) (outstandingPing : Bool)
    (receipt : AuthenticatedUserFrameReceipt) :
    ConnectionLoop.receive pairJson generation outstandingPing receipt (.text pairFrame) =
      ConnectionLoop.admitFrame generation outstandingPing receipt pairDecoded := by
  have hpong : pairFrame ≠ pongText := by decide +kernel
  rw [ConnectionLoop.receive, if_neg hpong, AuthenticatedUserEventBatch.captureTextFrame,
    pairFrame_decodes]

/-- A text frame of two events, and a binary frame. -/
theorem frame_admission_two_frames :
    ∃ (task : ConnectionLoop (Option LoopPoint)) (x : Connection),
      ConnectionRun pairJson ⟨1, 1, none⟩ {} task x ∧
      x.sent.map AuthenticatedUserEventBatch.firstTransportSequence = [1, 3] ∧ Admitted x := by
  have hstart : ConnectionRun pairJson ⟨1, 1, none⟩ {} (.ret (some (.connect 0 1)))
    { cell := .newWithIdentity {} } := .refl
  -- the socket is opened
  have h1 := hstart.turn.act false (by rintro _ _ ⟨⟩)
  have h2 := h1.act () (by rintro _ _ ⟨⟩; rfl)
  have h3 := h2.act (.done true) (by rintro _ _ ⟨⟩)
  have h4 := h3.act (.ok 1) (by rintro _ _ ⟨⟩; rfl)
  have h5 := h4.act (.done true) (by rintro _ _ ⟨⟩)
  have h6 := h5.act () (by rintro _ _ ⟨⟩; rfl)
  have h7 := h6.act (.done true) (by rintro _ _ ⟨⟩)
  -- the text frame
  have h8 := h7.turn.act false (by rintro _ _ ⟨⟩)
  have h9 := h8.act (.permit true) (by rintro _ _ ⟨⟩)
  have h10 := h9.act (.capacity true) (by rintro _ _ ⟨⟩; rfl)
  have h11 : ConnectionRun pairJson ⟨1, 1, none⟩ {}
      (ConnectionLoop.receive pairJson 1 true ⟨0, 1, 1⟩ (.text pairFrame) >>= _) _ :=
    h10.act (.received (some (.ok (.text pairFrame))) (some ⟨0, 1, 1⟩)) (by rintro _ _ ⟨⟩)
  rw [receive_pairFrame] at h11
  have h12 := h11.act (some ⟨1, 2⟩) (by rintro _ _ ⟨⟩; rfl)
  have h13 := h12.act (some 1) (by rintro _ _ ⟨⟩; rfl)
  have h14 := h13.act _ (by rintro _ _ ⟨⟩; rfl)
  have h15 := h14.act true (by rintro _ _ ⟨⟩; rfl)
  have h16 := h15.act () (by rintro _ _ ⟨⟩)
  have h17 := h16.act () (by rintro _ _ ⟨⟩; rfl)
  -- the binary frame
  have h18 := h17.turn.act false (by rintro _ _ ⟨⟩)
  have h19 := h18.act (.permit true) (by rintro _ _ ⟨⟩)
  have h20 := h19.act (.capacity true) (by rintro _ _ ⟨⟩; rfl)
  have h21 := h20.act (.received (some (.ok (.binary [7]))) (some ⟨0, 1, 1⟩)) (by rintro _ _ ⟨⟩)
  have h22 := h21.act (some ⟨3, 3⟩) (by rintro _ _ ⟨⟩; rfl)
  have h23 := h22.act (some 2) (by rintro _ _ ⟨⟩; rfl)
  have h24 := h23.act _ (by rintro _ _ ⟨⟩; rfl)
  have h25 := h24.act true (by rintro _ _ ⟨⟩; rfl)
  have h26 := h25.act () (by rintro _ _ ⟨⟩)
  exact ⟨_, _, h26, rfl, frame_admission pairJson_bounded h26⟩

end Rspm
