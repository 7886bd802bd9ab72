/-
  The gate of a submission, between its last check and the first poll of its
  POST.

  Another task may leave the gate not matching the permit that a submission
  holds.  The submission notices it at its next check of the gate, unless the
  gate matches again by then; after the last check nothing notices it.
-/
import Rspm.Clob.Indeterminate
import Rspm.Clob.Stance

namespace Rspm

/-! ## The gate, read off the log -/

namespace ProtocolSubmissionGate

variable {gate gate' : ProtocolSubmissionGate}

theorem does_after {e : ClobAct} {r : e.Answer} (h : gate.does e r gate') :
    gate' = gate.after e := by
  cases e with
  | permit | admits => exact h.2
  | _ => exact h

/-- No action of a submission makes the gate match again. -/
theorem admits_of_after {e : ClobAct} {permit : ProtocolSubmissionPermit}
    (h : (gate.after e).admits permit) : gate.admits permit := by
  cases e with
  | quarantine authority =>
    obtain ⟨hactive, -⟩ := h
    unfold after quarantine at hactive
    cases hs : gate.state <;> simp [hs] at hactive
  | markIndeterminate authority => exact absurd h.1 (by simp [after, markIndeterminate])
  | _ => exact h

end ProtocolSubmissionGate

/-- The gates after the events of a log, where a check of the gate answers what it is. -/
def gates : Monitor ProtocolSubmissionGate ClobEvent where
  next gate
    | .own (.admits permit) r => if r = decide (gate.admits permit) then some gate else none
    | .own e _ => some (gate.after e)
    | .other gate' => some gate'

/-- The stances of the call whose events are read. -/
def ownStances : Monitor Stance ClobEvent where
  next w
    | .own e r => w.next ⟨e, r⟩
    | .other _ => some w

theorem gates_own {gate gate' : ProtocolSubmissionGate} {e : ClobAct} {r : e.Answer}
    (h : gates.next gate (.own e r) = some gate') : gate' = gate.after e := by
  cases e with
  | admits permit => exact (Option.ite_none_right_eq_some.1 h).2 |> Option.some.inj |>.symm
  | _ => exact (Option.some.inj h).symm

theorem gates_admits {gate gate' : ProtocolSubmissionGate} {permit : ProtocolSubmissionPermit}
    (h : gates.next gate (.own (.admits permit) true) = some gate') : gate.admits permit :=
  of_decide_eq_true (Option.ite_none_right_eq_some.1 h).1.symm

namespace SubmissionRun

variable {α : Type} {p q : Clob α} {gate : ProtocolSubmissionGate} {s : ClobState}

theorem reads_gates (h : SubmissionRun p gate q s) : gates.reads gate s.log = some s.gate := by
  refine World.Run.invariant (P := fun s => gates.reads gate s.log = some s.gate) ?_ ?_ h rfl
  · rintro e s r s' hs ⟨hgate, hlog⟩
    rw [hlog, Monitor.reads_snoc, hs]
    cases e with
    | admits permit =>
      obtain ⟨hr, hgate⟩ := hgate
      rw [hgate]
      exact if_pos hr
    | _ => exact congrArg some (ProtocolSubmissionGate.does_after hgate).symm
  · rintro s s' hs ⟨-, hlog⟩
    rw [hlog, Monitor.reads_snoc, hs]
    rfl

theorem reads_stances {Q : α → Stance → Prop} (h : SubmissionRun p gate q s)
    (hp : Clob.Follows Q p .idle) : ∃ w, ownStances.reads .idle s.log = some w := by
  have hrun := World.follows_run (M := stances)
    (fun s : ClobState => ownStances.reads .idle s.log) ?_ ?_ h rfl hp
  · obtain ⟨w, hw, -⟩ := hrun
    exact ⟨w, hw⟩
  · rintro e s r s' ⟨-, hlog⟩
    rw [hlog, Monitor.reads_snoc]
    rfl
  · rintro s s' ⟨-, hlog⟩
    rw [hlog, Monitor.reads_snoc]
    exact Option.bind_fun_some _

end SubmissionRun

/-! ## The permit that is held -/

namespace Stance

variable {w w' : Stance} {permit : ProtocolSubmissionPermit} {guard : AuthenticatedClientState}

/-- The permit is held, and its POST has not begun. -/
def Holds (permit : ProtocolSubmissionPermit) : Stance → Prop
  | .permitted permit' | .guarded permit' _ | .fresh permit' _ => permit' = permit
  | _ => False

/-- A permit is held since it was read. -/
theorem own_holds {e : ClobEvent} (h : ownStances.next w e = some w') (hw : w'.Holds permit) :
    e = .own .permit (some permit) ∨ w.Holds permit ∧ ∀ r, e ≠ .own .permit r := by
  cases e with
  | other gate =>
    obtain rfl := Option.some.inj h
    exact .inr ⟨hw, by simp⟩
  | own e r =>
    cases next_cases h with
    | permit =>
      obtain rfl : _ = permit := hw
      exact .inl rfl
    | version hdrop => exact .inr ⟨hw, by simp⟩
    | admitsGuarded | admitsFresh =>
      refine .inr ⟨?_, by simp⟩
      split_ifs at hw <;> exact hw
    | quarantine hguard =>
      refine .inr ⟨?_, by simp⟩
      rcases hguard with rfl | rfl <;> exact hw
    | readClient | build | sign | revalidate => exact .inr ⟨hw, by simp⟩
    | beginPost =>
      split_ifs at hw
      · exact hw.elim
      · exact .inr ⟨hw, by simp⟩
    | _ => exact hw.elim

/-- A permit is fresh since the last check of the gate. -/
theorem own_fresh {e : ClobEvent} (h : ownStances.next w e = some w')
    (hw : w' = .fresh permit guard) :
    e = .own (.admits permit) true ∨
      w = .fresh permit guard ∧ (∀ r, e ≠ .own .permit r) ∧
        ∀ permit' r, e ≠ .own (.admits permit') r := by
  cases e with
  | other gate =>
    obtain rfl := Option.some.inj h
    exact .inr ⟨hw, by simp⟩
  | own e r =>
    cases next_cases h with
    | version hdrop => exact .inr ⟨hw, by simp⟩
    | admitsGuarded | admitsFresh =>
      split_ifs at hw with hr
      cases hw
      rw [hr]
      exact .inl rfl
    | build | sign | revalidate => exact .inr ⟨hw, by simp⟩
    | beginPost => split_ifs at hw
    | _ => cases hw

end Stance

/-! ## The first poll -/

/-- The POST under `permit` received its first poll: `checked` is what came between the permit and
    the last check of the gate, and `gap` what came between that check and the poll. -/
structure ClobState.Polled (s : ClobState) (permit : ProtocolSubmissionPermit)
    (checked gap : List ClobEvent) : Prop where
  log : ∃ before attempt signed after,
    s.log = before ++ .own .permit (some permit) :: (checked ++ .own (.admits permit) true ::
      (gap ++ .own (.beginPost attempt permit.authority signed) true :: after))
  held : ∀ r, .own .permit r ∉ checked ++ gap
  last : ∀ permit' r, .own (.admits permit') r ∉ gap

/-- A list cut at two of its elements. -/
theorem cut_between {α : Type} {as bs cs ds : List α} {a c : α} (h : as ++ a :: bs = cs ++ c :: ds)
    (hne : a ≠ c) (ha : a ∉ ds) : ∃ es, cs = as ++ a :: es ∧ bs = es ++ c :: ds := by
  rcases List.append_eq_append_iff.1 h with ⟨es, rfl, hes⟩ | ⟨es, rfl, hes⟩
  · cases es with
    | nil => exact absurd (List.cons.inj hes).1 hne
    | cons e es =>
      obtain ⟨rfl, rfl⟩ := List.cons.inj hes
      exact ⟨es, rfl, rfl⟩
  · cases es with
    | nil => exact absurd (List.cons.inj hes).1.symm hne
    | cons e es =>
      obtain ⟨rfl, rfl⟩ := List.cons.inj hes
      exact absurd (List.mem_append_right _ List.mem_cons_self) ha

/-- What comes before the first poll of a POST. -/
theorem SubmissionRun.polled {policy : RetryPolicy} {call : SubmitCall}
    {gate : ProtocolSubmissionGate} {q : Clob (Submitted (Option String))} {s : ClobState}
    (h : SubmissionRun (call.body policy) gate q s) {before after : List ClobEvent}
    {attempt : SubmissionAttemptAuthority} {authority : AuthenticatedProtocolAuthority}
    {signed : SignedOrder}
    (hlog : s.log = before ++ .own (.beginPost attempt authority signed) true :: after) :
    ∃ start checked gap, s.Polled ⟨authority⟩ checked gap ∧
      before = start ++ .own .permit (some ⟨authority⟩) :: checked ++
        .own (.admits ⟨authority⟩) true :: gap := by
  obtain ⟨w, hw⟩ := h.reads_stances (Clob.follows_body policy call)
  rw [hlog] at hw
  obtain ⟨v, v', hv, hnext, -⟩ := Monitor.reads_split hw
  replace hnext := Stance.next_cases hnext
  cases hnext with | @beginPost permit guard =>
  obtain ⟨start, _, held, rfl, rfl, hheld⟩ := Monitor.reads_since (P := (·.Holds permit))
    (m := (· = .own .permit (some permit))) (k := fun e => ∀ r, e ≠ .own .permit r)
    (fun hc => hc.elim) (fun v e v' => Stance.own_holds) hv rfl
  obtain ⟨_, _, gap, hcut, rfl, hgap⟩ := Monitor.reads_since (P := (· = .fresh permit guard))
    (m := (· = .own (.admits permit) true))
    (k := fun e => (∀ r, e ≠ .own .permit r) ∧ ∀ permit' r, e ≠ .own (.admits permit') r)
    (fun hc => by cases hc) (fun v e v' => Stance.own_fresh) hv rfl
  obtain ⟨checked, rfl, rfl⟩ := cut_between hcut (by simp) fun hm => (hgap _ hm).1 _ rfl
  refine ⟨start, checked, gap, ⟨⟨start, attempt, signed, after, ?_⟩, ?_, ?_⟩, hcut⟩
  · rw [hlog]
    simp
  · intro r hr
    refine hheld _ ?_ r rfl
    rcases List.mem_append.1 hr with hr | hr
    · exact List.mem_append_left _ hr
    · exact List.mem_append_right _ (List.mem_cons_of_mem _ hr)
  · exact fun permit' r hr => (hgap _ hr).2 permit' r rfl

/-- The gate matched the permit again after another task had left it not matching. -/
def Rematched (permit : ProtocolSubmissionPermit) (log : List ClobEvent) : Prop :=
  ∃ l₁ gate l₂ gate' l₃, log = l₁ ++ .other gate :: (l₂ ++ .other gate' :: l₃) ∧
    ¬ gate.admits permit ∧ gate'.admits permit

/-- If a gate matches a permit that it did not match before, it was made to match again. -/
theorem rematched_of_reads {permit : ProtocolSubmissionPermit} {gate gate₁ : ProtocolSubmissionGate}
    {log : List ClobEvent} (hm : .other gate₁ ∈ log) (hout : ¬ gate₁.admits permit) :
    ∀ {gate'}, gates.reads gate log = some gate' → gate'.admits permit → Rematched permit log := by
  induction log using List.reverseRecOn with
  | nil => simp at hm
  | append_singleton log e ih =>
    intro gate' h hin
    rw [Monitor.reads_snoc] at h
    obtain ⟨v, hv, hnext⟩ := Option.bind_eq_some_iff.1 h
    cases e with
    | own e r =>
      rw [gates_own hnext] at hin
      obtain ⟨l₁, g, l₂, g', l₃, rfl, hg⟩ := ih (by simpa using hm) hv
        (ProtocolSubmissionGate.admits_of_after hin)
      exact ⟨l₁, g, l₂, g', l₃ ++ [.own e r], by simp, hg⟩
    | other gate₂ =>
      obtain rfl : gate₂ = gate' := Option.some.inj hnext
      have hm : .other gate₁ ∈ log := by
        rcases List.mem_append.1 hm with hm | hm
        · exact hm
        · obtain rfl := ClobEvent.other.inj (List.mem_singleton.1 hm)
          exact absurd hin hout
      obtain ⟨l₁, l₂, rfl⟩ := List.append_of_mem hm
      exact ⟨l₁, gate₁, l₂, gate₂, [], by simp, hout, hin⟩

/-- The first poll of every POST comes after a check of the gate.  No other task left the gate not
    matching the permit since it was read, if and only if none did since that check, and before it
    the gate was not made to match again. -/
theorem latch_linearizes_iff {policy : RetryPolicy} {call : SubmitCall}
    {gate : ProtocolSubmissionGate} {q : Clob (Submitted (Option String))} {s : ClobState}
    (h : SubmissionRun (call.body policy) gate q s) :
    (∀ before attempt authority signed after,
      s.log = before ++ .own (.beginPost attempt authority signed) true :: after →
        ∃ start checked gap, s.Polled ⟨authority⟩ checked gap ∧
          before = start ++ .own .permit (some ⟨authority⟩) :: checked ++
            .own (.admits ⟨authority⟩) true :: gap) ∧
    ∀ permit checked gap, s.Polled permit checked gap →
      ((∀ gate', .other gate' ∈ checked ++ gap → gate'.admits permit) ↔
        (∀ gate', .other gate' ∈ gap → gate'.admits permit) ∧ ¬ Rematched permit checked) := by
  refine ⟨fun before attempt authority signed after hlog => h.polled hlog, ?_⟩
  rintro permit checked gap ⟨⟨before, attempt, signed, after, hlog⟩, -, -⟩
  have hreads := h.reads_gates
  rw [hlog] at hreads
  obtain ⟨g₁, g₂, -, -, hreads⟩ := Monitor.reads_split hreads
  obtain ⟨g₃, g₄, hchecked, hadmits, -⟩ := Monitor.reads_split hreads
  constructor
  · intro hall
    refine ⟨fun gate' hm => hall gate' (List.mem_append_right _ hm), ?_⟩
    rintro ⟨l₁, g, l₂, g', l₃, rfl, hout, -⟩
    exact hout (hall g (by simp))
  · rintro ⟨hgap, hnot⟩ gate' hm
    rcases List.mem_append.1 hm with hm | hm
    · by_contra hout
      exact hnot (rematched_of_reads hm hout hchecked (gates_admits hadmits))
    · exact hgap gate' hm

/-! ## A revocation between the check and the poll -/

/-- The sample attempt up to its POST, with a revocation by another task before the first poll. -/
def sampleRaced : List ClobEvent :=
  [.own .authorize (some sampleAttempt), .own .lockSubmission (),
    .own .permit (some samplePermit), .own .readClient ⟨some sampleProtocolAuthority⟩,
    .own .version (.ok 2), .own (.admits samplePermit) true,
    .own (.revalidate sampleAttempt sampleProtocolAuthority) true, .own .version (.ok 2),
    .own (.admits samplePermit) true,
    .own (.revalidate sampleAttempt sampleProtocolAuthority) true, .other sampleGate.close,
    .own (.beginPost sampleAttempt sampleProtocolAuthority sampleOrder.signed) true]

namespace ClobState

variable {α : Type} {gate gate' : ProtocolSubmissionGate} {log : List ClobEvent}
  {next : Option ClobAct} {s : ClobState}

theorem comes_own {e : ClobAct} {r : e.Answer} {k : e.Answer → Clob α} (hd : gate.does e r gate')
    (h : clobWorld.Comes () Others (k r) ⟨gate', log ++ [.own e r]⟩ next s) :
    clobWorld.Comes () Others (.act e k) ⟨gate, log⟩ next s := .own ⟨hd, rfl⟩ h

theorem comes_other {p : Clob α} (hd : gate.Moves gate')
    (h : clobWorld.Comes () Others p ⟨gate', log ++ [.other gate']⟩ next s) :
    clobWorld.Comes () Others p ⟨gate, log⟩ next s := .other ⟨hd, rfl⟩ h

end ClobState

open ClobState in
/-- The sample attempt, raced. -/
theorem comes_attemptFn : clobWorld.Comes () Others
    (Clob.attemptFn (Clob.postAndMatch sampleOrder) sampleAttempt)
    ⟨sampleGate, [.own .authorize (some sampleAttempt)]⟩ none ⟨sampleGate.close, sampleRaced⟩ := by
  refine comes_own (e := .lockSubmission) (r := ()) rfl ?_
  refine comes_own (e := .permit) (r := some samplePermit) ⟨rfl, rfl⟩ ?_
  refine comes_own (e := .readClient) (r := ⟨some sampleProtocolAuthority⟩) rfl ?_
  refine comes_own (e := .version) (r := .ok 2) rfl ?_
  refine comes_own (e := .admits samplePermit) (r := true) ⟨by decide, rfl⟩ ?_
  refine comes_own (e := .revalidate _ _) (r := true) rfl ?_
  refine comes_own (e := .version) (r := .ok 2) rfl ?_
  refine comes_own (e := .admits samplePermit) (r := true) ⟨by decide, rfl⟩ ?_
  refine comes_own (e := .revalidate _ _) (r := true) rfl ?_
  refine comes_other .close ?_
  refine comes_own (e := .beginPost _ _ _) (r := true) rfl ?_
  exact .refl _

theorem run_raced : ∃ q, SubmissionRun (SubmitCall.body .default (.prepared sampleOrder)) sampleGate
    q ⟨sampleGate.close, sampleRaced⟩ := by
  have hretry : clobWorld.Comes () ClobState.Others (Clob.retryPostOrder .default
      Clob.retryAuthorityActive (Clob.attemptFn (Clob.postAndMatch sampleOrder)) 1)
      ⟨sampleGate, []⟩ none ⟨sampleGate.close, sampleRaced⟩ := by
    rw [Clob.retryPostOrder]
    refine ClobState.comes_own (e := .authorize) (r := some sampleAttempt) rfl ?_
    exact comes_attemptFn.bind
  obtain ⟨q, h, -⟩ := hretry
  exact ⟨q >>= _, h.bind⟩

theorem sampleRaced_polled : ClobState.Polled ⟨sampleGate.close, sampleRaced⟩ samplePermit
    (sampleRaced.drop 3 |>.take 5) [.own (.revalidate sampleAttempt sampleProtocolAuthority) true,
      .other sampleGate.close] where
  log := ⟨sampleRaced.take 2, sampleAttempt, sampleOrder.signed, [], rfl⟩
  held := by simp [sampleRaced]
  last := by simp

/-- The permit is read, the gate is closed for its generation by another task, and then its POST
    receives its first poll. -/
theorem latch_linearizes_not : ∃ q s checked gap,
    SubmissionRun (SubmitCall.body .default (.prepared sampleOrder)) sampleGate q s ∧
    s.Polled samplePermit checked gap ∧ .other sampleGate.close ∈ checked ++ gap ∧
    sampleGate.close.ClosedThrough samplePermit.authority.generation ∧
    ¬ ∀ gate', .other gate' ∈ checked ++ gap → gate'.admits samplePermit := by
  obtain ⟨q, h⟩ := run_raced
  have hm : .other sampleGate.close ∈ (sampleRaced.drop 3 |>.take 5) ++
      [.own (.revalidate sampleAttempt sampleProtocolAuthority) true, .other sampleGate.close] := by
    simp
  have hclosed : sampleGate.close.ClosedThrough samplePermit.authority.generation :=
    ⟨by decide, by simp [sampleGate, ProtocolSubmissionGate.close]⟩
  refine ⟨q, _, _, _, h, sampleRaced_polled, hm, hclosed, fun hall => ?_⟩
  exact absurd (hall _ hm) (by decide)

/-- The condition and the law both fail for that run. -/
theorem latch_linearizes_iff_raced : ∃ checked gap,
    ClobState.Polled ⟨sampleGate.close, sampleRaced⟩ samplePermit checked gap ∧
    ¬ ((∀ gate', .other gate' ∈ gap → gate'.admits samplePermit) ∧
      ¬ Rematched samplePermit checked) := by
  obtain ⟨q, h⟩ := run_raced
  refine ⟨_, _, sampleRaced_polled, fun hcondition => ?_⟩
  have hall := ((latch_linearizes_iff h).2 _ _ _ sampleRaced_polled).2 hcondition
  exact absurd (hall sampleGate.close (by simp)) (by decide)

end Rspm
