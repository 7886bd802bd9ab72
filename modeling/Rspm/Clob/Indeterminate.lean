/-
  Indeterminate outcomes, and the gate.

  A POST that was accepted, or whose acceptance is unknown, and whose order the
  caller does not get, should leave the gate closed for its generation
  (`ClosesGeneration`).  It does, but for two kinds of replies (`Slips`), after
  which the gate is closed only if the call finds it superseded or another task
  closes it (`Supersedes`).

  `Kept` is what holds of the gate from the reply to the end of the call.
-/
import Rspm.Clob.Client

namespace Rspm

/-! ## A gate closed for a generation -/

/-- The gate is not active for this generation or an older one, and does not become so. -/
def ProtocolSubmissionGate.ClosedThrough (gate : ProtocolSubmissionGate) (generation : ℕ) : Prop :=
  generation ≤ gate.quarantinedThroughGeneration ∧
    ∀ authority, gate.state = .active authority → generation < authority.generation

namespace ProtocolSubmissionGate

variable {gate gate' : ProtocolSubmissionGate} {generation : ℕ}
  {authority : AuthenticatedProtocolAuthority}

theorem closedThrough_quarantine (h : generation ≤ authority.generation) :
    (gate.quarantine authority).ClosedThrough generation := by
  refine ⟨h.trans (le_max_right _ _), fun a ha => ?_⟩
  unfold quarantine at ha
  cases hs : gate.state <;> simp [hs] at ha

theorem closedThrough_markIndeterminate (h : generation ≤ authority.generation) :
    (gate.markIndeterminate authority).ClosedThrough generation :=
  ⟨h.trans (le_max_right _ _), nofun⟩

/-- Once closed for a generation, the gate stays so, whatever the other tasks do. -/
theorem Moves.closedThrough (h : gate.Moves gate') (hc : gate.ClosedThrough generation) :
    gate'.ClosedThrough generation := by
  obtain ⟨hle, hactive⟩ := hc
  cases h with
  | close =>
    unfold ProtocolSubmissionGate.close
    cases hs : gate.state with
    | active authority => exact ⟨hle.trans (le_max_left _ _), nofun⟩
    | closed | indeterminate => exact ⟨hle, hactive⟩
  | quarantine authority =>
    refine ⟨hle.trans (le_max_left _ _), fun a ha => ?_⟩
    unfold ProtocolSubmissionGate.quarantine at ha
    cases hs : gate.state <;> simp [hs] at ha
  | markIndeterminate authority => exact ⟨hle.trans (le_max_left _ _), nofun⟩
  | activate authority hcan =>
    refine ⟨hle, fun a ha => ?_⟩
    obtain rfl := ProtocolSubmissionState.active.inj ha
    exact hle.trans_lt hcan.1

/-- Every later permit is of a newer generation. -/
theorem ClosedThrough.permit (h : gate.ClosedThrough generation)
    (hmoves : Relation.ReflTransGen Moves gate gate') {permit : ProtocolSubmissionPermit}
    (hp : gate'.permit = some permit) : generation < permit.authority.generation := by
  have hc : gate'.ClosedThrough generation := by
    clear hp
    induction hmoves with
    | refl => exact h
    | tail _ hstep ih => exact hstep.closedThrough ih
  unfold ProtocolSubmissionGate.permit at hp
  cases hs : gate'.state with
  | active authority =>
    rw [hs] at hp
    obtain rfl := Option.some.inj hp
    exact hc.2 _ hs
  | closed | indeterminate => rw [hs] at hp; cases hp

/-- A gate that matches a permit is not closed for its generation. -/
theorem not_closedThrough_of_admits {permit : ProtocolSubmissionPermit}
    (h : gate.admits permit) : ¬ gate.ClosedThrough permit.authority.generation :=
  fun hc => absurd (hc.2 _ h.1) (lt_irrefl _)

end ProtocolSubmissionGate

/-! ## The law, and when it holds -/

/-- The order is not handed to the caller, although it was or may have been accepted. -/
def PostReply.Lost (reply : PostReply) (result : Submitted (Option String)) : Prop :=
  (∃ orderId, reply.accepts = some orderId ∧ result ≠ .ok (some orderId)) ∨ reply.Unknown

/-- When the call returns, the gate is closed for the generation of every POST whose order was
    lost. -/
def ClosesGeneration (result : Submitted (Option String)) (s : ClobState) : Prop :=
  ∀ before permit signed reply after,
    s.log = before ++ .own (.awaitPost permit signed) reply :: after → reply.Lost result →
      s.gate.ClosedThrough permit.authority.generation

/-- A success reply without a response, or another order accepted in place of the prepared one. -/
def PostReply.Slips (reply : PostReply) (call : SubmitCall) : Prop :=
  reply.IsNull ∨ ∃ orderId expected, reply.accepts = some orderId ∧
    call.expectedOrderId = some expected ∧ orderId ≠ expected

/-- The permit was found superseded, or another task closed the gate for its generation. -/
def ClobEvent.Supersedes (permit : ProtocolSubmissionPermit) : ClobEvent → Prop
  | .own .version version => version ≠ .ok permit.authority.version.asU32
  | .own (.admits permit') ok => permit' = permit ∧ ok = false
  | .other gate => gate.ClosedThrough permit.authority.generation
  | _ => False

theorem PostReply.Lost.not_harmless {reply : PostReply} {result : Submitted (Option String)}
    (h : reply.Lost result) : ¬ reply.Harmless := by
  rintro ⟨haccepts, hunknown⟩
  rcases h with ⟨orderId, h, -⟩ | h
  · rw [haccepts] at h; cases h
  · exact hunknown h

theorem PostReply.IsNull.unknown {reply : PostReply} (h : reply.IsNull) : reply.Unknown := by
  unfold PostReply.IsNull at h
  split at h
  · exact .inr ⟨h, trivial⟩
  · exact h.elim

theorem PostReply.Slips.not_harmless {reply : PostReply} {call : SubmitCall}
    (h : reply.Slips call) : ¬ reply.Harmless := by
  rintro ⟨haccepts, hunknown⟩
  rcases h with h | ⟨orderId, expected, h, -⟩
  · exact hunknown h.unknown
  · rw [haccepts] at h; cases h

/-! ## What the others do -/

namespace ClobState

variable {s s' s'' : ClobState}

/-- The others add to the log, and the gate is closed for a generation exactly when it was, or one
    of them left it so. -/
theorem Others.log (h : Relation.ReflTransGen Others s s') :
    ∃ gates : List ProtocolSubmissionGate, s'.log = s.log ++ gates.map .other ∧
      ∀ generation, s'.gate.ClosedThrough generation ↔
        s.gate.ClosedThrough generation ∨ ∃ gate ∈ gates, gate.ClosedThrough generation := by
  induction h with
  | refl => exact ⟨[], by simp, by simp⟩
  | @tail s₁ s₂ _ hstep ih =>
    obtain ⟨gates, hlog, hclosed⟩ := ih
    obtain ⟨hmoves, hlog'⟩ := hstep
    refine ⟨gates ++ [s₂.gate], by simp [hlog', hlog], fun generation => ?_⟩
    constructor
    · exact fun h => .inr ⟨s₂.gate, by simp, h⟩
    · rintro (h | ⟨gate, hm, h⟩)
      · exact hmoves.closedThrough ((hclosed generation).2 (.inl h))
      · rcases List.mem_append.1 hm with hm | hm
        · exact hmoves.closedThrough ((hclosed generation).2 (.inr ⟨gate, hm, h⟩))
        · obtain rfl := List.mem_singleton.1 hm
          exact h

/-- Every reply so far left no order behind. -/
def Clean (s : ClobState) : Prop :=
  ∀ permit signed reply, .own (.awaitPost permit signed) reply ∈ s.log → reply.Harmless

/-- The last reply is `reply`, the earlier ones left no order behind, and `after` happened
    since. -/
def Answered (permit : ProtocolSubmissionPermit) (reply : PostReply) (after : List ClobEvent)
    (s : ClobState) : Prop :=
  ∃ before signed, s.log = before ++ .own (.awaitPost permit signed) reply :: after ∧
    (∀ permit' signed' reply', .own (.awaitPost permit' signed') reply' ∈ before →
      reply'.Harmless) ∧
    ∀ permit' signed' reply', .own (.awaitPost permit' signed') reply' ∉ after

/-- The gate after a reply that left an order behind: closed, if the reply is indeterminate, and
    otherwise if the permit was superseded since. -/
def Kept (permit : ProtocolSubmissionPermit) (reply : PostReply) (s : ClobState) : Prop :=
  ∃ after, Answered permit reply after s ∧
    (reply.result = .error .postSendIndeterminate →
      s.gate.ClosedThrough permit.authority.generation) ∧
    (reply.result ≠ .error .postSendIndeterminate →
      (s.gate.ClosedThrough permit.authority.generation ↔ ∃ e ∈ after, e.Supersedes permit))

theorem Clean.others (h : Clean s) (ho : Relation.ReflTransGen Others s s') : Clean s' := by
  obtain ⟨gates, hlog, -⟩ := Others.log ho
  intro permit signed reply hm
  rw [hlog] at hm
  rcases List.mem_append.1 hm with hm | hm
  · exact h permit signed reply hm
  · obtain ⟨gate, -, hg⟩ := List.mem_map.1 hm
    cases hg

theorem Answered.append {permit : ProtocolSubmissionPermit} {reply : PostReply}
    {after since : List ClobEvent} (h : Answered permit reply after s)
    (hlog : s'.log = s.log ++ since)
    (hs : ∀ permit' signed' reply', .own (.awaitPost permit' signed') reply' ∉ since) :
    Answered permit reply (after ++ since) s' := by
  obtain ⟨before, signed, hlog₀, hbefore, hafter⟩ := h
  refine ⟨before, signed, by simp [hlog, hlog₀], hbefore, fun permit' signed' reply' hm => ?_⟩
  rcases List.mem_append.1 hm with hm | hm
  · exact hafter permit' signed' reply' hm
  · exact hs permit' signed' reply' hm

theorem Kept.others {permit : ProtocolSubmissionPermit} {reply : PostReply}
    (h : Kept permit reply s) (ho : Relation.ReflTransGen Others s s') : Kept permit reply s' := by
  obtain ⟨after, hanswered, hsent, hsettled⟩ := h
  obtain ⟨gates, hlog, hclosed⟩ := Others.log ho
  refine ⟨after ++ gates.map .other, hanswered.append hlog (by simp), fun hr => ?_, fun hr => ?_⟩
  · exact (hclosed _).2 (.inl (hsent hr))
  · rw [hclosed, hsettled hr]
    simp only [List.mem_append, or_and_right, exists_or, List.mem_map, exists_exists_and_eq_and,
      ClobEvent.Supersedes]

end ClobState

/-- Nothing is asked of the other tasks. -/
def outcomeLogic : clobWorld.Logic where
  inv _ := True
  rely _ := Relation.ReflTransGen ClobState.Others
  refl _ _ := .refl
  trans h h' := h.trans h'
  crash _ h := h.elim

/-! ## What a submission leaves -/

namespace Clob

open ClobState

variable {α : Type} {s : ClobState} {Q : α → ClobState → Prop} {a : SubmissionAttemptAuthority}
  {permit : ProtocolSubmissionPermit}

theorem safe_own {e : ClobAct} {k : e.Answer → Clob α}
    (hk : ∀ s₁ r s₂, Relation.ReflTransGen Others s s₁ → s₁.does e r s₂ →
      outcomeLogic.Safe () Q (k r) s₂) : outcomeLogic.Safe () Q (.act e k) s :=
  fun s₁ ho _ r s₂ hd => ⟨⟨trivial, fun _ hu => absurd rfl hu⟩, hk s₁ r s₂ ho hd⟩

/-- An action before the reply, or after a reply that left no order behind. -/
theorem safe_clean {e : ClobAct} {k : e.Answer → Clob α} (h : Clean s)
    (he : ∀ permit signed, e ≠ .awaitPost permit signed)
    (hk : ∀ r s', Clean s' → outcomeLogic.Safe () Q (k r) s') :
    outcomeLogic.Safe () Q (.act e k) s := by
  refine safe_own fun s₁ r s₂ ho hd => hk r s₂ fun permit signed reply hm => ?_
  rw [hd.2] at hm
  rcases List.mem_append.1 hm with hm | hm
  · exact h.others ho permit signed reply hm
  · rw [List.mem_singleton] at hm
    cases e with
    | awaitPost permit signed => exact absurd rfl (he permit signed)
    | _ => cases hm

/-- The call left no order behind, or its result is `f` of that of the last reply. -/
def Done (f : Submitted PostOrderOutcome → Submitted α) (result : Submitted α) (s : ClobState) :
    Prop :=
  Clean s ∨ ∃ permit reply, ¬ reply.Harmless ∧ result = f reply.result ∧ Kept permit reply s

theorem safe_refuse_clean {authority : AuthenticatedProtocolAuthority} {error : ClobOperationError}
    (h : Clean s) : outcomeLogic.Safe () (fun (_ : Submitted α) s => Clean s)
      (refuse authority error) s :=
  safe_clean h nofun fun _ _ h => h

theorem clean_checkClient {guard : AuthenticatedClientState} (h : Clean s) :
    outcomeLogic.Safe () (fun _ s => Clean s) (checkClient guard permit) s := by
  unfold checkClient
  cases guard.protocolAuthority with
  | none => exact h
  | some authority =>
    refine safe_clean h nofun fun version s h => ?_
    cases version with
    | error error => exact h
    | ok sdkVersion =>
      dsimp only [Prog.bind]
      split_ifs
      · exact safe_refuse_clean h
      · refine safe_clean h nofun fun ok s h => ?_
        cases ok with
        | false => exact safe_refuse_clean h
        | true => exact h

theorem clean_submissionClient (h : Clean s) :
    outcomeLogic.Safe () (fun _ s => Clean s) submissionClient s := by
  refine safe_clean h nofun fun permit s h => ?_
  cases permit with
  | none => exact h
  | some permit =>
    refine safe_clean h nofun fun guard s h => ?_
    refine (clean_checkClient h).bind fun result s h => ?_
    cases result with
    | error error => exact safe_clean h nofun fun _ _ h => h
    | ok _ => exact h

/-- The version before the POST is that of the permit. -/
theorem clean_checkAuthority {guard : AuthenticatedClientState} {orderVersion : ℕ}
    (h : Clean s) : outcomeLogic.Safe () (fun result s => Clean s ∧
      ∀ version, result = .ok version → version = permit.authority.version.asU32)
      (checkAuthority guard permit a orderVersion) s := by
  have hrefuse : ∀ {s : ClobState}, Clean s → outcomeLogic.Safe () (fun result s => Clean s ∧
      ∀ version, result = .ok version → version = permit.authority.version.asU32)
      (refuse permit.authority .protocolAuthorityRevoked) s := by
    intro s h
    exact safe_clean h nofun fun _ _ h => ⟨h, nofun⟩
  unfold checkAuthority
  cases guard.protocolAuthority with
  | none => exact ⟨h, nofun⟩
  | some authority =>
    refine safe_clean h nofun fun version s h => ?_
    cases version with
    | error error => exact ⟨h, nofun⟩
    | ok beforeVersion =>
      dsimp only [Prog.bind]
      split_ifs with hdiffers
      · exact hrefuse h
      · rw [not_or, not_or, not_not, not_not, not_not] at hdiffers
        refine safe_clean h nofun fun ok s h => ?_
        cases ok with
        | false => exact hrefuse h
        | true =>
          refine safe_clean h nofun fun ok s h => ?_
          cases ok with
          | false => exact hrefuse h
          | true =>
            refine ⟨h, fun version hversion => ?_⟩
            rw [← Except.ok.inj hversion, hdiffers.2.2, hdiffers.1]

theorem clean_settle {beforeVersion : ℕ} {response : Submitted PostOrderOutcome} (h : Clean s) :
    outcomeLogic.Safe () (fun _ s => Clean s) (settle permit beforeVersion response) s := by
  refine safe_clean h nofun fun afterVersion s h => ?_
  refine safe_clean h nofun fun matched s h => ?_
  dsimp only [Prog.bind]
  split_ifs
  · exact safe_clean h nofun fun _ _ h => h
  · exact h

/-- An indeterminate reply closes the gate. -/
theorem kept_indeterminate {reply : PostReply} (h : Answered permit reply [] s)
    (hr : reply.result = .error .postSendIndeterminate) : outcomeLogic.Safe ()
      (fun result s => result = reply.result ∧ Kept permit reply s) (indeterminate permit) s := by
  refine safe_own fun s₁ r s₂ ho hd => ?_
  obtain ⟨gates, hlog, -⟩ := Others.log ho
  have hlog₂ : s₂.log = s.log ++ (gates.map .other ++ [.own (.markIndeterminate _) r]) := by
    rw [hd.2, hlog, List.append_assoc]
  refine ⟨hr.symm, _, h.append hlog₂ (by simp), fun _ => ?_, fun hne => absurd hr hne⟩
  rw [show s₂.gate = s₁.gate.markIndeterminate permit.authority from hd.1]
  exact ProtocolSubmissionGate.closedThrough_markIndeterminate le_rfl

/-- After the other replies the gate is closed if the permit was found superseded, or if another
    task closed it. -/
theorem kept_settle {reply : PostReply} (h : Answered permit reply [] s)
    (hr : reply.result ≠ .error .postSendIndeterminate)
    (hrevoked : reply.result ≠ .error .protocolAuthorityRevoked) : outcomeLogic.Safe ()
      (fun result s => result = reply.result ∧ Kept permit reply s)
      (settle permit permit.authority.version.asU32 reply.result) s := by
  refine safe_own fun s₁ version s₂ ho₁ hd₁ => ?_
  refine safe_own fun s₃ matched s₄ ho₃ hd₃ => ?_
  obtain ⟨gates₁, hlog₁, hclosed₁⟩ := Others.log ho₁
  obtain ⟨gates₃, hlog₃, hclosed₃⟩ := Others.log ho₃
  have hlog₄ : s₄.log = s.log ++ (gates₁.map ClobEvent.other ++ ClobEvent.own .version version ::
      (gates₃.map ClobEvent.other ++ [ClobEvent.own (.admits permit) matched])) := by
    simp [hd₃.2, hlog₃, hd₁.2, hlog₁]
  obtain ⟨hmatched, hgate₄⟩ := hd₃.1
  dsimp only [Prog.bind]
  split_ifs with hcheck
  · refine safe_own fun s₅ r s₆ ho₅ hd₅ => ?_
    obtain ⟨gates₅, hlog₅, -⟩ := Others.log ho₅
    have hlog₆ : s₆.log = s.log ++ (gates₁.map ClobEvent.other ++ ClobEvent.own .version version ::
        (gates₃.map ClobEvent.other ++ ClobEvent.own (.admits permit) matched ::
          (gates₅.map ClobEvent.other ++ [ClobEvent.own (.quarantine permit.authority) r]))) := by
      simp [hd₅.2, hlog₅, hlog₄]
    refine ⟨rfl, _, h.append hlog₆ (by simp), fun hsent => absurd hsent hr, fun _ => ?_⟩
    have hclosed : s₆.gate.ClosedThrough permit.authority.generation := by
      rw [show s₆.gate = s₅.gate.quarantine permit.authority from hd₅.1]
      exact ProtocolSubmissionGate.closedThrough_quarantine le_rfl
    refine iff_of_true hclosed ?_
    rcases hcheck with hcheck | hcheck | hcheck
    · exact absurd hcheck hrevoked
    · exact ⟨.own .version version, by simp, hcheck⟩
    · exact ⟨.own (.admits permit) matched, by simp, rfl, hcheck⟩
  · rw [not_or, not_or, not_not, Bool.not_eq_false] at hcheck
    obtain ⟨-, hversion, htrue⟩ := hcheck
    have hadmits : s₃.gate.admits permit := of_decide_eq_true (hmatched ▸ htrue)
    have hopen := ProtocolSubmissionGate.not_closedThrough_of_admits hadmits
    have hgate₂ : s₂.gate = s₁.gate := hd₁.1
    refine ⟨rfl, _, h.append hlog₄ (by simp), fun hsent => absurd hsent hr, fun _ => ?_⟩
    rw [hgate₄]
    refine iff_of_false hopen ?_
    rintro ⟨e, he, hsupersedes⟩
    simp only [List.nil_append, List.mem_append, List.mem_cons, List.mem_map, List.not_mem_nil,
      or_false] at he
    rcases he with ⟨gate, hm, rfl⟩ | rfl | ⟨gate, hm, rfl⟩ | rfl
    · refine hopen ((hclosed₃ _).2 (.inl ?_))
      rw [hgate₂]
      exact (hclosed₁ _).2 (.inr ⟨gate, hm, hsupersedes⟩)
    · exact hsupersedes hversion
    · exact hopen ((hclosed₃ _).2 (.inr ⟨gate, hm, hsupersedes⟩))
    · rw [htrue] at hsupersedes
      cases hsupersedes.2

/-- The POST leaves no order behind, or the gate as `Kept` says. -/
theorem done_postSigned {signed : SignedOrder} (h : Clean s) : outcomeLogic.Safe () (Done id)
      (postSigned permit a signed permit.authority.version.asU32) s := by
  refine safe_clean h nofun fun ok s h => ?_
  cases ok with
  | false => exact (safe_refuse_clean h).mono fun _ _ h => .inl h
  | true =>
    refine safe_own fun s₁ reply s₂ ho hd => ?_
    have hclean : Clean s₁ := h.others ho
    change outcomeLogic.Safe () (Done id) (sortReply permit _ reply) s₂
    rw [sortReply_eq]
    by_cases hharmless : reply.Harmless
    · have hclean₂ : Clean s₂ := by
        intro permit' signed' reply' hm
        rw [hd.2] at hm
        rcases List.mem_append.1 hm with hm | hm
        · exact hclean permit' signed' reply' hm
        · rw [List.mem_singleton] at hm
          cases hm
          exact hharmless
      split_ifs
      · exact safe_clean hclean₂ nofun fun _ _ h => .inl h
      · exact (clean_settle hclean₂).mono fun _ _ h => .inl h
    · have hanswered : Answered permit reply [] s₂ :=
        ⟨s₁.log, signed, hd.2, hclean, by simp⟩
      split_ifs with hsent
      · exact (kept_indeterminate hanswered hsent).mono fun _ _ h =>
          .inr ⟨permit, reply, hharmless, h.1, h.2⟩
      · refine (kept_settle hanswered hsent ?_).mono fun _ _ h =>
          .inr ⟨permit, reply, hharmless, h.1, h.2⟩
        rcases PostReply.result_cases hharmless with ⟨orderId, -, h⟩ | ⟨-, h⟩ | ⟨-, -, h⟩
        all_goals rw [h]; nofun

theorem done_postPreparedSdk {guard : AuthenticatedClientState} {signed : SignedOrder}
    (h : Clean s) :
    outcomeLogic.Safe () (Done id) (postPreparedSdk signed guard permit a) s := by
  refine (clean_checkAuthority h).bind ?_
  rintro result s ⟨h, hversion⟩
  cases result with
  | error error => exact .inl h
  | ok beforeVersion =>
    obtain rfl := hversion beforeVersion rfl
    exact done_postSigned h

theorem done_signAndPostSdk {guard : AuthenticatedClientState} {signable : SignableOrder}
    (h : Clean s) :
    outcomeLogic.Safe () (Done id) (signAndPostSdk signable guard permit a) s := by
  refine (clean_checkAuthority h).bind ?_
  rintro result s ⟨h, hversion⟩
  cases result with
  | error error => exact .inl h
  | ok beforeVersion =>
    obtain rfl := hversion beforeVersion rfl
    refine safe_clean h nofun fun signed s h => ?_
    cases signed with
    | error error => exact .inl h
    | ok signed =>
      refine safe_clean h nofun fun ok s h => ?_
      cases ok with
      | false => exact (safe_refuse_clean h).mono fun _ _ h => .inl h
      | true => exact done_postSigned h

/-- What a submission makes of the result of a POST, in its attempts. -/
def PostDone (f : Submitted PostOrderOutcome → Submitted PostOrderOutcome) (post : Post) : Prop :=
  ∀ {guard permit a s}, Clean s → outcomeLogic.Safe () (Done f) (post guard permit a) s

theorem done_buildAndPost {order : LimitOrder} : PostDone id (buildAndPost order) := by
  intro guard permit a s h
  refine safe_clean h nofun fun signable s h => ?_
  cases signable with
  | error error => exact .inl h
  | ok signable => exact done_signAndPostSdk h

theorem Done.map {β : Type} {f : Submitted PostOrderOutcome → Submitted α}
    {result : Submitted α} (h : Done f result s) (g : Submitted α → Submitted β) :
    Done (g ∘ f) (g result) s := by
  rcases h with h | ⟨permit, reply, hr, rfl, h⟩
  · exact .inl h
  · exact .inr ⟨permit, reply, hr, rfl, h⟩

theorem done_postAndMatch {order : PreparedClobOrder} :
    PostDone (matchOrderId order) (postAndMatch order) := by
  intro guard permit a s h
  refine (done_postPreparedSdk h).bind fun result s h => ?_
  exact h.map (matchOrderId order)

/-- The guards are dropped, whatever the submission leaves. -/
theorem done_release {f : Submitted PostOrderOutcome → Submitted α} {e : ClobAct}
    (he : e = .dropClient ∨ e = .unlockSubmission) {result : Submitted α}
    (h : Done f result s) : outcomeLogic.Safe () (Done f) (.act e fun _ => .ret result) s := by
  rcases h with h | ⟨permit, reply, hr, hresult, h⟩
  · refine safe_clean h ?_ fun _ _ h => .inl h
    rcases he with rfl | rfl <;> nofun
  · refine safe_own fun s₁ r s₂ ho hd => .inr ⟨permit, reply, hr, hresult, ?_⟩
    obtain ⟨after, hanswered, hsent, hsettled⟩ := h.others ho
    have hgate : s₂.gate = s₁.gate := by rcases he with rfl | rfl <;> exact hd.1
    refine ⟨after ++ [.own e r], hanswered.append hd.2 ?_, fun h => ?_, fun h => ?_⟩
    · rcases he with rfl | rfl <;> simp
    · rw [hgate]
      exact hsent h
    · rw [hgate, hsettled h]
      rcases he with rfl | rfl <;> simp [ClobEvent.Supersedes]

theorem done_revalidateAndPost {f : Submitted PostOrderOutcome → Submitted PostOrderOutcome}
    {post : Post} (hpost : PostDone f post) : PostDone f (revalidateAndPost post) := by
  intro guard permit a s h
  refine safe_clean h nofun fun ok s h => ?_
  cases ok with
  | false => exact (safe_refuse_clean h).mono fun _ _ h => .inl h
  | true => exact hpost h

theorem done_attemptFn {f : Submitted PostOrderOutcome → Submitted PostOrderOutcome}
    {post : Post} (hpost : PostDone f post) (h : Clean s) :
    outcomeLogic.Safe () (Done f) (attemptFn post a) s := by
  refine safe_clean h nofun fun _ s h => ?_
  have hguard : outcomeLogic.Safe () (Done f) (underGuard post a) s := by
    refine (clean_submissionClient h).bind fun result s h => ?_
    rcases result with error | ⟨guard, permit⟩
    · exact .inl h
    · refine (done_revalidateAndPost hpost h).bind fun result s h => ?_
      exact done_release (.inl rfl) h
  refine hguard.bind fun result s h => ?_
  exact done_release (.inr rfl) h

/-- A rate limit left no order behind, so another attempt starts clean. -/
theorem done_retryPostOrder {policy : RetryPolicy}
    {f : Submitted PostOrderOutcome → Submitted PostOrderOutcome} {post : Post}
    (hpost : PostDone f post)
    (hf : ∀ result, result.isRateLimited = false → (f result).isRateLimited = false)
    (attempt : ℕ) : ∀ s, Clean s → outcomeLogic.Safe () (Done f)
      (retryPostOrder policy retryAuthorityActive (attemptFn post) attempt) s := by
  induction hm : policy.maxAttempts - attempt using Nat.strong_induction_on
    generalizing attempt with
  | _ m ih =>
    intro s h
    rw [retryPostOrder]
    refine safe_clean h (by simp) fun a s h => ?_
    cases a with
    | none => exact .inl h
    | some a =>
      refine (done_attemptFn hpost h).bind fun result s hresult => ?_
      rcases result with error | outcome
      · cases error with
        | rateLimited d =>
          have h : Clean s := by
            rcases hresult with h | ⟨permit, reply, hr, heq, -⟩
            · exact h
            · have hlimited := hf reply.result
                (Bool.eq_false_iff.2 (PostReply.not_rateLimited hr))
              rw [← heq] at hlimited
              cases hlimited
          refine safe_clean h (by simp) fun permit s h => ?_
          cases permit with
          | none => exact .inl h
          | some permit =>
            dsimp only [Prog.bind, Option.isSome]
            split_ifs with hretry
            · refine safe_clean h (by simp) fun _ s h => ?_
              have hlt : attempt < policy.maxAttempts := of_decide_eq_true hretry
              exact ih _ (by omega) (attempt + 1) rfl s h
            · exact .inl h
        | _ => exact hresult
      · exact hresult

end Clob

/-- What the call makes of the result of its last POST. -/
def SubmitCall.outcome : SubmitCall → Submitted PostOrderOutcome → Submitted (Option String)
  | .fak .. => Clob.orderIdUnlessNoMatch
  | .gtcSell _ | .gtcBuy _ => Clob.orderId
  | .prepared order => Clob.orderIdUnlessNoMatch ∘ Clob.matchOrderId order

namespace Clob

theorem done_submitLimit {policy : RetryPolicy} {input : OrderInput} {side : ClobSide}
    {orderType : Option OrderType} {postOnly : Bool} (h : ClobState.Clean s) :
    outcomeLogic.Safe () (Done id) (submitLimit policy input side orderType postOnly) s := by
  unfold submitLimit
  split
  · exact done_retryPostOrder done_buildAndPost (fun _ h => h) 1 s h
  · exact .inl h

theorem done_body (policy : RetryPolicy) (call : SubmitCall) (h : ClobState.Clean s) :
    outcomeLogic.Safe () (Done call.outcome) (call.body policy) s := by
  cases call with
  | fak =>
    refine (done_submitLimit h).bind fun result s h => ?_
    exact h.map orderIdUnlessNoMatch
  | gtcSell | gtcBuy =>
    refine (done_submitLimit h).bind fun result s h => ?_
    exact h.map orderId
  | prepared order =>
    refine (done_retryPostOrder done_postAndMatch (fun _ => isRateLimited_matchOrderId) 1 s h).bind
      fun result s h => ?_
    exact h.map orderIdUnlessNoMatch

theorem Done.others {f : Submitted PostOrderOutcome → Submitted α} {result : Submitted α}
    {s s' : ClobState} (h : Done f result s)
    (ho : Relation.ReflTransGen ClobState.Others s s') : Done f result s' := by
  rcases h with h | ⟨permit, reply, hr, hresult, h⟩
  · exact .inl (h.others ho)
  · exact .inr ⟨permit, reply, hr, hresult, h.others ho⟩

end Clob

/-- What a complete run of a call leaves. -/
theorem SubmissionRun.done {policy : RetryPolicy} {call : SubmitCall}
    {gate : ProtocolSubmissionGate} {result : Submitted (Option String)} {s : ClobState}
    (h : SubmissionRun (call.body policy) gate (.ret result) s) :
    Clob.Done call.outcome result s := by
  have hsafe := Clob.done_body policy (s := { gate }) call (by nofun)
  have hrun := World.Logic.Safe.run (L := outcomeLogic)
    (fun s s' _ ho => ⟨trivial, Relation.ReflTransGen.single ho⟩) (fun _ _ _ h ho => h.others ho)
    h trivial hsafe
  exact hrun.2

/-- The last reply that left an order behind is found in one place of the log. -/
theorem ClobState.Answered.unique {permit permit' : ProtocolSubmissionPermit}
    {signed : SignedOrder} {reply reply' : PostReply} {before after after' : List ClobEvent}
    {s : ClobState} (h : Answered permit reply after s) (hr : ¬ reply'.Harmless)
    (hlog : s.log = before ++ .own (.awaitPost permit' signed) reply' :: after') :
    permit' = permit ∧ reply' = reply ∧ after' = after := by
  obtain ⟨before₀, signed₀, hlog₀, hbefore, hafter⟩ := h
  rw [hlog₀] at hlog
  obtain ⟨-, he, hafter'⟩ := (List.append_cons_inj_of_notMem
    (fun hm => hr (hbefore _ _ _ hm)) (hafter permit' signed reply')).1 hlog
  cases he
  exact ⟨rfl, rfl, hafter'.symm⟩

/-- The law is about that reply. -/
theorem ClobState.Answered.closesGeneration {permit : ProtocolSubmissionPermit}
    {reply : PostReply} {after : List ClobEvent} {s : ClobState}
    {result : Submitted (Option String)} (h : Answered permit reply after s) :
    ClosesGeneration result s ↔
      (reply.Lost result → s.gate.ClosedThrough permit.authority.generation) := by
  constructor
  · intro hcloses hlost
    obtain ⟨before, signed, hlog, -⟩ := h
    exact hcloses before permit signed reply after hlog hlost
  · intro hcloses before permit' signed reply' after' hlog hlost
    obtain ⟨rfl, rfl, -⟩ := h.unique hlost.not_harmless hlog
    exact hcloses hlost

/-- So is the condition. -/
theorem ClobState.Answered.forall_slips {permit : ProtocolSubmissionPermit}
    {reply : PostReply} {after : List ClobEvent} {s : ClobState} {call : SubmitCall}
    (h : Answered permit reply after s) :
    (∀ before permit' signed reply' after',
      s.log = before ++ .own (.awaitPost permit' signed) reply' :: after' → reply'.Slips call →
        ∃ e ∈ after', e.Supersedes permit') ↔
      (reply.Slips call → ∃ e ∈ after, e.Supersedes permit) := by
  constructor
  · intro hall hslips
    obtain ⟨before, signed, hlog, -⟩ := h
    exact hall before permit signed reply after hlog hslips
  · intro hone before permit' signed reply' after' hlog hslips
    obtain ⟨rfl, rfl, rfl⟩ := h.unique hslips.not_harmless hlog
    exact hone hslips

/-- The call returns the identifier of an accepted order, unless it is not the prepared one. -/
theorem SubmitCall.outcome_accepted (call : SubmitCall) (orderId : String) :
    call.outcome (.ok (.accepted orderId)) = .ok (some orderId) ↔
      ∀ expected, call.expectedOrderId = some expected → orderId = expected := by
  cases call with
  | fak | gtcSell | gtcBuy => exact iff_of_true rfl nofun
  | prepared order =>
    simp only [outcome, expectedOrderId, Function.comp_apply, Clob.matchOrderId]
    split_ifs with heq
    · exact iff_of_true rfl fun expected h => heq.trans (Option.some.inj h)
    · exact iff_of_false nofun fun h => heq (h _ rfl)

/-- A lost order closes the gate, unless its reply slips. -/
theorem lost_closed_iff {call : SubmitCall} {permit : ProtocolSubmissionPermit}
    {reply : PostReply} {after : List ClobEvent} {gate : ProtocolSubmissionGate}
    (hr : ¬ reply.Harmless)
    (hsent : reply.result = .error .postSendIndeterminate →
      gate.ClosedThrough permit.authority.generation)
    (hsettled : reply.result ≠ .error .postSendIndeterminate →
      (gate.ClosedThrough permit.authority.generation ↔ ∃ e ∈ after, e.Supersedes permit)) :
    (reply.Lost (call.outcome reply.result) → gate.ClosedThrough permit.authority.generation) ↔
      (reply.Slips call → ∃ e ∈ after, e.Supersedes permit) := by
  rcases PostReply.result_cases hr with ⟨orderId, ha, h⟩ | ⟨hn, h⟩ | ⟨hu, hn, h⟩
  · have hunknown : ¬ reply.Unknown := by
      intro hu
      by_cases hn : reply.IsNull
      · rw [PostReply.result_of_isNull hn] at h; cases h
      · rw [PostReply.result_of_unknown hu hn] at h; cases h
    have hlost : reply.Lost (call.outcome reply.result) ↔ reply.Slips call := by
      simp only [PostReply.Lost, PostReply.Slips, ha, h, Option.some.injEq, exists_eq_left',
        hunknown, mt PostReply.IsNull.unknown hunknown, or_false, false_or, ne_eq,
        call.outcome_accepted orderId]
      push Not
      constructor
      · rintro ⟨expected, he⟩
        exact ⟨orderId, expected, rfl, he⟩
      · rintro ⟨_, expected, rfl, he⟩
        exact ⟨expected, he⟩
    rw [hlost, hsettled (by rw [h]; nofun)]
  · have hlost : reply.Lost (call.outcome reply.result) := .inr hn.unknown
    rw [forall_prop_of_true hlost, forall_prop_of_true (.inl hn), hsettled (by rw [h]; nofun)]
  · refine iff_of_true (fun _ => hsent h) ?_
    rintro (hnull | ⟨orderId, expected, ha, -⟩)
    · exact absurd hnull hn
    · rw [PostReply.result_of_accepts ha] at h
      cases h

/-- When a submission returns, the gate is closed for the generation of every POST whose order was
    accepted, or may have been, and is not returned, if and only if for its reply, where it is one
    that slips, the permit was found superseded or another task closed the gate.  A gate that is
    closed for a generation permits newer ones only. -/
theorem closesGeneration_iff {policy : RetryPolicy} {call : SubmitCall}
    {gate : ProtocolSubmissionGate} {result : Submitted (Option String)} {s : ClobState}
    (h : SubmissionRun (call.body policy) gate (.ret result) s) :
    (ClosesGeneration result s ↔ ∀ before permit signed reply after,
      s.log = before ++ .own (.awaitPost permit signed) reply :: after → reply.Slips call →
        ∃ e ∈ after, e.Supersedes permit) ∧
    ∀ generation, s.gate.ClosedThrough generation →
      ∀ gate', Relation.ReflTransGen ProtocolSubmissionGate.Moves s.gate gate' →
        ∀ permit, gate'.permit = some permit → generation < permit.authority.generation := by
  refine ⟨?_, fun generation hc gate' hmoves permit hp => hc.permit hmoves hp⟩
  rcases h.done with hclean | ⟨permit, reply, hr, rfl, after, hanswered, hsent, hsettled⟩
  · have hharmless : ∀ {before permit signed reply after},
        s.log = before ++ .own (.awaitPost permit signed) reply :: after → reply.Harmless :=
      fun hlog => hclean _ _ _ (hlog ▸ List.mem_append_right _ List.mem_cons_self)
    refine iff_of_true ?_ ?_
    · intro before permit signed reply after hlog hlost
      exact absurd (hharmless hlog) hlost.not_harmless
    · intro before permit signed reply after hlog hslips
      exact absurd (hharmless hlog) hslips.not_harmless
  · rw [hanswered.closesGeneration, hanswered.forall_slips]
    exact lost_closed_iff hr hsent hsettled

/-! ## A prepared order answered with another one -/

/-- The prepared order is accepted under another identifier, and the gate stays active. -/
theorem solo_mismatch : SubmissionRun (SubmitCall.body .default (.prepared sampleOrder)) sampleGate
    (.ret (.error .preparedOrderMismatch)) ⟨sampleGate, sampleEvents (sampleAccepted "0xB")⟩ := by
  have haccepted := sampleAccepted_result "0xB" (by decide)
  have hattempt := Clob.solo_attemptFn (sampleAccepted "0xB") []
    (by rw [haccepted]; nofun) (by rw [haccepted]; nofun)
  rw [haccepted] at hattempt
  refine World.Solo.run (World.solo_bind.2 ⟨.error .preparedOrderMismatch,
    ⟨sampleGate, sampleEvents (sampleAccepted "0xB")⟩, ?_, .ret _ _⟩)
  exact Clob.solo_retryPostOrder rfl hattempt

theorem closesGeneration_not : ∃ s : ClobState,
    SubmissionRun (SubmitCall.body .default (.prepared sampleOrder)) sampleGate
      (.ret (.error .preparedOrderMismatch)) s ∧
    .own (.awaitPost samplePermit sampleOrder.signed) (sampleAccepted "0xB") ∈ s.log ∧
    (sampleAccepted "0xB").accepts = some "0xB" ∧
    s.gate.state = .active samplePermit.authority ∧
    ¬ ClosesGeneration (.error .preparedOrderMismatch) s := by
  refine ⟨_, solo_mismatch, by simp [sampleEvents], by decide, rfl, fun h => ?_⟩
  have hclosed := h sampleStart samplePermit sampleOrder.signed (sampleAccepted "0xB") sampleEnd rfl
    (.inl ⟨"0xB", by decide, by simp⟩)
  exact absurd hclosed.1 (by decide)

/-- The condition and the law both fail for that run. -/
theorem closesGeneration_iff_mismatch : ∃ s : ClobState,
    ¬ ClosesGeneration (.error .preparedOrderMismatch) s ∧
    ¬ ∀ before permit signed reply after,
      s.log = before ++ .own (.awaitPost permit signed) reply :: after →
        reply.Slips (.prepared sampleOrder) → ∃ e ∈ after, e.Supersedes permit := by
  have hopen : ¬ ∀ before permit signed reply after,
      sampleEvents (sampleAccepted "0xB") =
        before ++ .own (.awaitPost permit signed) reply :: after →
        reply.Slips (.prepared sampleOrder) → ∃ e ∈ after, e.Supersedes permit := by
    intro h
    have hslips : (sampleAccepted "0xB").Slips (.prepared sampleOrder) :=
      .inr ⟨"0xB", "0xA", by decide, rfl, by decide⟩
    obtain ⟨e, he, hsupersedes⟩ :=
      h sampleStart samplePermit sampleOrder.signed _ sampleEnd rfl hslips
    simp only [sampleEnd, List.mem_cons, List.not_mem_nil, or_false] at he
    rcases he with rfl | rfl | rfl | rfl
    · exact hsupersedes rfl
    · cases hsupersedes.2
    · exact hsupersedes
    · exact hsupersedes
  exact ⟨_, fun h => hopen ((closesGeneration_iff solo_mismatch).1.1 h), hopen⟩

end Rspm
