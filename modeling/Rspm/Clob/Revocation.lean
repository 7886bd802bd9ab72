/-
  Revocation is final.

  `Inv` ties the controller to its log: an attempt that was minted before a
  completed revocation has an epoch that is gone, or the controller is
  poisoned.  A task that holds the lock of `active` relies on the others to
  leave the epoch, the entry and the log alone but for dropped attempts
  (`Rely`).  `Legal` says which events may follow a log.
-/
import Rspm.Clob.Submission

namespace Rspm

open SubmissionControllerState (does crash)

/-! ## Logs -/

/-- The attempt was minted before a revocation that is complete. -/
def Revoked (log : List SubmissionEvent) (attempt : SubmissionAttemptAuthority) : Prop :=
  ∃ before epoch after, log = before ++ .revoked epoch :: after ∧ .minted attempt ∈ before

/-- A revocation found the last epoch. -/
def Exhausted (log : List SubmissionEvent) : Prop :=
  ∃ epoch, u64Max ≤ epoch ∧ .revoked epoch ∈ log

/-- The event may follow the log. -/
def Legal (log : List SubmissionEvent) : SubmissionEvent → Prop
  | .validated attempt | .polled attempt => ¬ Revoked log attempt ∧ ¬ Exhausted log
  | .minted _ => ¬ Exhausted log
  | .activated _ => ¬ Exhausted log ∧ ∀ attempt, .minted attempt ∈ log → .dropped attempt.id ∈ log
  | .revoked _ | .dropped _ => True

inductive History : List SubmissionEvent → Prop
  | nil : History []
  | snoc {log : List SubmissionEvent} {e : SubmissionEvent} (h : History log) (he : Legal log e) :
      History (log ++ [e])

theorem History.legal {before after : List SubmissionEvent} {e : SubmissionEvent}
    (h : History (before ++ e :: after)) : Legal before e := by
  induction after using List.reverseRecOn with
  | nil =>
    generalize hl : before ++ [e] = log at h
    cases h with
    | nil => simp at hl
    | snoc h he =>
      obtain ⟨rfl, hs⟩ := List.append_inj' hl rfl
      obtain rfl := List.singleton_injective hs
      exact he
  | append_singleton after e' ih =>
    generalize hl : before ++ e :: (after ++ [e']) = log at h
    cases h with
    | nil => simp at hl
    | snoc h he =>
      rw [← List.cons_append, ← List.append_assoc] at hl
      obtain ⟨rfl, -⟩ := List.append_inj' hl rfl
      exact ih h

theorem Exhausted.append {log : List SubmissionEvent} (h : Exhausted log)
    (events : List SubmissionEvent) : Exhausted (log ++ events) :=
  let ⟨epoch, hmax, hm⟩ := h
  ⟨epoch, hmax, List.mem_append_left _ hm⟩

/-- One more event exhausts the log only as a revocation. -/
theorem exhausted_snoc {log : List SubmissionEvent} {e : SubmissionEvent} :
    Exhausted (log ++ [e]) ↔ Exhausted log ∨ ∃ epoch, u64Max ≤ epoch ∧ e = .revoked epoch := by
  constructor
  · rintro ⟨epoch, hmax, hm⟩
    rcases List.mem_append.1 hm with hm | hm
    · exact .inl ⟨epoch, hmax, hm⟩
    · exact .inr ⟨epoch, hmax, (List.mem_singleton.1 hm).symm⟩
  · rintro (h | ⟨epoch, hmax, rfl⟩)
    · exact h.append _
    · exact ⟨epoch, hmax, List.mem_append_right _ (List.mem_singleton_self _)⟩

/-- One more event revokes the attempts minted before it only as a revocation. -/
theorem revoked_snoc {log : List SubmissionEvent} {e : SubmissionEvent}
    {attempt : SubmissionAttemptAuthority} (h : Revoked (log ++ [e]) attempt) :
    Revoked log attempt ∨ (∃ epoch, e = .revoked epoch) ∧ .minted attempt ∈ log := by
  obtain ⟨before, epoch, after, hl, hm⟩ := h
  rcases List.eq_nil_or_concat' after with rfl | ⟨after, e', rfl⟩
  · obtain ⟨rfl, he⟩ := List.append_inj' hl rfl
    exact .inr ⟨⟨epoch, List.singleton_injective he⟩, hm⟩
  · rw [← List.cons_append, ← List.append_assoc] at hl
    obtain ⟨rfl, -⟩ := List.append_inj' hl rfl
    exact .inl ⟨before, epoch, after, rfl, hm⟩

theorem exhausted_dropped {log : List SubmissionEvent} {ids : List ℕ}
    (h : Exhausted (log ++ ids.map .dropped)) : Exhausted log := by
  obtain ⟨epoch, hmax, hm⟩ := h
  rcases List.mem_append.1 hm with hm | hm
  · exact ⟨epoch, hmax, hm⟩
  · obtain ⟨_, -, h⟩ := List.mem_map.1 hm; cases h

theorem revoked_dropped {log : List SubmissionEvent} {attempt : SubmissionAttemptAuthority} :
    ∀ {ids : List ℕ}, Revoked (log ++ ids.map .dropped) attempt → Revoked log attempt := by
  intro ids
  induction ids using List.reverseRecOn with
  | nil => intro h; simpa using h
  | append_singleton ids id ih =>
    intro h
    rw [List.map_append, ← List.append_assoc] at h
    rcases revoked_snoc h with h | ⟨⟨epoch, h⟩, -⟩
    · exact ih h
    · cases h

/-! ## The invariant, and what a task relies on -/

/-- The controller agrees with its log. -/
structure SubmissionControllerState.Inv (s : SubmissionControllerState) : Prop where
  history : History s.log
  minted_le : ∀ a, .minted a ∈ s.log → a.revocationEpoch ≤ s.revocationEpoch
  revoked : ∀ a, Revoked s.log a → a.revocationEpoch < s.revocationEpoch ∨ s.poisoned = true
  exhausted : Exhausted s.log → s.poisoned = true
  alive : ∀ a, .minted a ∈ s.log → .dropped a.id ∈ s.log ∨ .attempt a.id ∈ s.fenceReaders
  fence : s.leased = true → s.fenceReaders = ∅
  users : ∀ t ∈ s.leaseUsers, s.leased = true

/-- What the other tasks do to the controller, as task `t` sees it. -/
structure SubmissionControllerState.Rely (t : ℕ) (s s' : SubmissionControllerState) : Prop where
  epoch_le : s.revocationEpoch ≤ s'.revocationEpoch
  poisoned : s.poisoned = true → s'.poisoned = true
  reader : .task t ∈ s.fenceReaders → .task t ∈ s'.fenceReaders
  user : t ∈ s.leaseUsers → t ∈ s'.leaseUsers
  held : s.lockedBy = some t → s'.lockedBy = some t ∧ s'.revocationEpoch = s.revocationEpoch ∧
    s'.active = s.active ∧ ∃ ids : List ℕ, s'.log = s.log ++ ids.map .dropped

namespace SubmissionControllerState

variable {t u : ℕ} {s s' s'' : SubmissionControllerState}

theorem Rely.refl (t : ℕ) (s : SubmissionControllerState) : Rely t s s :=
  ⟨le_rfl, id, id, id, fun h => ⟨h, rfl, rfl, [], by simp⟩⟩

theorem Rely.trans (h : Rely t s s') (h' : Rely t s' s'') : Rely t s s'' where
  epoch_le := h.epoch_le.trans h'.epoch_le
  poisoned := h'.poisoned ∘ h.poisoned
  reader := h'.reader ∘ h.reader
  user := h'.user ∘ h.user
  held hl := by
    obtain ⟨hl', he, ha, ids, hlog⟩ := h.held hl
    obtain ⟨hl'', he', ha', ids', hlog'⟩ := h'.held hl'
    refine ⟨hl'', he'.trans he, ha'.trans ha, ids ++ ids', ?_⟩
    rw [hlog', hlog, List.map_append, List.append_assoc]

/-- What a task has to know before a step that others rely on. -/
def Allowed (t : ℕ) (s : SubmissionControllerState) : SubmissionAct → Prop
  | .unlock none | .writeActive _ | .tryUpdateEpoch => s.lockedBy = some t
  | .unlock (some (.revoked epoch)) => s.lockedBy = some t ∧
    (∀ a, .minted a ∈ s.log → a.revocationEpoch < s.revocationEpoch ∨ s.poisoned = true) ∧
    (u64Max ≤ epoch → s.poisoned = true)
  | .unlock (some (.activated active)) => s.lockedBy = some t ∧ Legal s.log (.activated active)
  | .unlock (some (.validated a)) => s.lockedBy = some t ∧ Legal s.log (.validated a)
  | .unlock (some _) => False
  | .mint _ revocationEpoch _ => s.lockedBy = some t ∧ .task t ∈ s.fenceReaders ∧
    ¬ Exhausted s.log ∧ revocationEpoch ≤ s.revocationEpoch
  | .pollTransport a => s.lockedBy = some t ∧ Legal s.log (.polled a)
  | _ => True

theorem Rely.of_not_held (hl : s.lockedBy ≠ some u) (he : s.revocationEpoch ≤ s'.revocationEpoch)
    (hp : s.poisoned = true → s'.poisoned = true)
    (hr : .task u ∈ s.fenceReaders → .task u ∈ s'.fenceReaders)
    (hs : u ∈ s.leaseUsers → u ∈ s'.leaseUsers) : Rely u s s' :=
  ⟨he, hp, hr, hs, fun h => absurd h hl⟩

/-- The update of the epoch succeeds below `u64::MAX`. -/
theorem tryUpdateEpoch_cases {r : Except ℕ ℕ} (hd : does t .tryUpdateEpoch s r s') :
    s.revocationEpoch < u64Max ∧ r = .ok s.revocationEpoch ∧
        s' = { s with revocationEpoch := s.revocationEpoch + 1 } ∨
      u64Max ≤ s.revocationEpoch ∧ r = .error s.revocationEpoch ∧ s' = s := by
  simp only [does] at hd
  cases hn : checkedAdd s.revocationEpoch 1 with
  | none =>
    rw [hn] at hd
    rw [checkedAdd_eq_none] at hn
    exact .inr ⟨by omega, hd⟩
  | some next =>
    rw [hn] at hd
    obtain ⟨hmax, rfl⟩ := checkedAdd_eq_some.1 hn
    exact .inl ⟨by omega, hd⟩

/-- The others may rely on every allowed step. -/
theorem Allowed.rely {e : SubmissionAct} {r : e.Answer} (ha : Allowed t s e)
    (hd : does t e s r s') (hu : u ≠ t) : Rely u s s' := by
  have hheld : s.lockedBy = some t → s.lockedBy ≠ some u := by
    intro h h'
    rw [h] at h'
    exact hu (Option.some.inj h').symm
  cases e with
  | lock =>
    obtain ⟨hl, -, rfl⟩ := hd
    exact .of_not_held (by rw [hl]; nofun) le_rfl id id id
  | unlock done =>
    have hl : s.lockedBy = some t := by
      cases done with
      | none => exact ha
      | some e => cases e <;> first | exact ha.1 | exact ha.elim
    obtain rfl := hd
    exact .of_not_held (hheld hl) le_rfl id id id
  | writeActive active =>
    obtain rfl := hd
    exact .of_not_held (hheld ha) le_rfl id id id
  | tryUpdateEpoch =>
    rcases tryUpdateEpoch_cases hd with ⟨-, -, rfl⟩ | ⟨-, -, rfl⟩
    · exact .of_not_held (hheld ha) (Nat.le_succ _) id id id
    · exact .refl u _
  | mint binding epoch authority =>
    obtain rfl := hd
    refine .of_not_held (hheld ha.1) le_rfl id (fun h => ?_) id
    exact Finset.mem_insert_of_mem (Finset.mem_erase.2 ⟨fun h => hu (by injection h), h⟩)
  | pollTransport attempt =>
    obtain rfl := hd
    exact .of_not_held (hheld ha.1) le_rfl id id id
  | dropAttempt id =>
    obtain ⟨-, rfl⟩ := hd
    exact ⟨le_rfl, fun h => h, fun h => Finset.mem_erase.2 ⟨nofun, h⟩, fun h => h,
      fun h => ⟨h, rfl, rfl, [id], rfl⟩⟩
  | readActive | loadPoisoned | loadEpoch | upgrade => obtain ⟨-, rfl⟩ := hd; exact .refl u _
  | authorize => obtain rfl := hd; exact .refl u _
  | storePoisoned =>
    obtain rfl := hd
    exact ⟨le_rfl, fun _ => rfl, id, id, fun h => ⟨h, rfl, rfl, [], by simp⟩⟩
  | readFence =>
    obtain ⟨-, rfl⟩ := hd
    exact ⟨le_rfl, id, Finset.mem_insert_of_mem, id, fun h => ⟨h, rfl, rfl, [], by simp⟩⟩
  | dropFence =>
    obtain rfl := hd
    exact ⟨le_rfl, id, fun h => Finset.mem_erase.2 ⟨fun h => hu (by injection h), h⟩, id,
      fun h => ⟨h, rfl, rfl, [], by simp⟩⟩
  | writeFence | dropLease =>
    obtain ⟨-, -, rfl⟩ := hd
    exact ⟨le_rfl, id, id, id, fun h => ⟨h, rfl, rfl, [], by simp⟩⟩
  | borrowLease =>
    obtain ⟨-, rfl⟩ := hd
    exact ⟨le_rfl, id, id, Finset.mem_insert_of_mem, fun h => ⟨h, rfl, rfl, [], by simp⟩⟩
  | returnLease =>
    obtain rfl := hd
    exact ⟨le_rfl, id, id, fun h => Finset.mem_erase.2 ⟨hu, h⟩,
      fun h => ⟨h, rfl, rfl, [], by simp⟩⟩
  | dropControllers =>
    obtain rfl := hd
    exact ⟨le_rfl, id, id, id, fun h => ⟨h, rfl, rfl, [], by simp⟩⟩

/-- A legal event that revokes and mints nothing keeps the invariant. -/
theorem Inv.snoc (hi : s.Inv) {e : SubmissionEvent} (he : Legal s.log e)
    (hr : ∀ epoch, e ≠ .revoked epoch) (hm : ∀ a, e ≠ .minted a)
    (hs : s'.log = s.log ++ [e]) (hep : s'.revocationEpoch = s.revocationEpoch)
    (hp : s'.poisoned = s.poisoned) (hl : s'.leased = s.leased) (hu : s'.leaseUsers = s.leaseUsers)
    (hf : ∀ id, .attempt id ∈ s.fenceReaders → .attempt id ∈ s'.fenceReaders ∨ e = .dropped id)
    (hf' : s'.fenceReaders ⊆ s.fenceReaders) : s'.Inv := by
  have hmem : ∀ a, .minted a ∈ s'.log → .minted a ∈ s.log := by
    intro a ha
    rw [hs] at ha
    rcases List.mem_append.1 ha with ha | ha
    · exact ha
    · exact absurd (List.mem_singleton.1 ha).symm (hm a)
  constructor
  · rw [hs]; exact hi.history.snoc he
  · intro a ha; rw [hep]; exact hi.minted_le a (hmem a ha)
  · intro a ha
    rw [hs] at ha
    rcases revoked_snoc ha with ha | ⟨⟨epoch, h⟩, -⟩
    · rw [hep, hp]; exact hi.revoked a ha
    · exact absurd h (hr epoch)
  · intro hx
    rw [hs, exhausted_snoc] at hx
    rcases hx with hx | ⟨epoch, -, h⟩
    · rw [hp]; exact hi.exhausted hx
    · exact absurd h (hr epoch)
  · intro a ha
    rw [hs]
    rcases hi.alive a (hmem a ha) with h | h
    · exact .inl (List.mem_append_left _ h)
    · rcases hf a.id h with h | rfl
      · exact .inr h
      · exact .inl (List.mem_append_right _ (List.mem_singleton_self _))
  · intro h
    rw [hl] at h
    exact Finset.subset_empty.1 (hi.fence h ▸ hf')
  · intro t ht
    rw [hu] at ht
    rw [hl]
    exact hi.users t ht

/-- A step that logs nothing and keeps the guards of the attempts. -/
theorem Inv.quiet (hi : s.Inv) (hs : s'.log = s.log)
    (he : s.revocationEpoch ≤ s'.revocationEpoch)
    (hp : s.poisoned = true → s'.poisoned = true)
    (ha : ∀ id, .attempt id ∈ s.fenceReaders → .attempt id ∈ s'.fenceReaders)
    (hf : s'.leased = true → s'.fenceReaders = ∅) (hu : ∀ t ∈ s'.leaseUsers, s'.leased = true) :
    s'.Inv := by
  constructor
  · rw [hs]; exact hi.history
  · intro a hm; rw [hs] at hm; exact (hi.minted_le a hm).trans he
  · intro a hr
    rw [hs] at hr
    exact (hi.revoked a hr).imp (fun h => h.trans_le he) hp
  · intro hx; rw [hs] at hx; exact hp (hi.exhausted hx)
  · intro a hm
    rw [hs] at hm ⊢
    exact (hi.alive a hm).imp_right (ha a.id)
  · exact hf
  · exact hu

/-- A completed revocation. -/
theorem Inv.revocation (hi : s.Inv) {epoch : ℕ}
    (hm : ∀ a, .minted a ∈ s.log → a.revocationEpoch < s.revocationEpoch ∨ s.poisoned = true)
    (hx : u64Max ≤ epoch → s.poisoned = true) :
    Inv { s with lockedBy := none, log := s.log ++ [.revoked epoch] } := by
  have hmem : ∀ a, .minted a ∈ s.log ++ [.revoked epoch] → .minted a ∈ s.log := by
    intro a ha
    rcases List.mem_append.1 ha with ha | ha
    · exact ha
    · cases List.mem_singleton.1 ha
  constructor
  · exact hi.history.snoc trivial
  · exact fun a ha => hi.minted_le a (hmem a ha)
  · intro a ha
    rcases revoked_snoc ha with ha | ⟨-, ha⟩
    · exact hi.revoked a ha
    · exact hm a ha
  · intro h
    rcases exhausted_snoc.1 h with h | ⟨epoch', hmax, h⟩
    · exact hi.exhausted h
    · obtain rfl := SubmissionEvent.revoked.inj h
      exact hx hmax
  · intro a ha
    exact (hi.alive a (hmem a ha)).imp_left (List.mem_append_left _)
  · exact hi.fence
  · exact hi.users

/-- A minted attempt takes over the read guard of its task. -/
theorem Inv.mint (hi : s.Inv) {binding epoch : ℕ} {authority : AuthenticatedProtocolAuthority}
    (hr : .task t ∈ s.fenceReaders) (hx : ¬ Exhausted s.log) (he : epoch ≤ s.revocationEpoch) :
    Inv { s with
      lockedBy := none
      fenceReaders := insert (.attempt s.nextAttempt) (s.fenceReaders.erase (.task t))
      nextAttempt := s.nextAttempt + 1
      log := s.log ++ [.minted ⟨s.nextAttempt, binding, epoch, authority⟩] } := by
  constructor
  · exact hi.history.snoc hx
  · intro a ha
    rcases List.mem_append.1 ha with ha | ha
    · exact hi.minted_le a ha
    · obtain rfl := SubmissionEvent.minted.inj (List.mem_singleton.1 ha)
      exact he
  · intro a ha
    rcases revoked_snoc ha with ha | ⟨⟨_, h⟩, -⟩
    · exact hi.revoked a ha
    · cases h
  · intro h
    rcases exhausted_snoc.1 h with h | ⟨_, -, h⟩
    · exact hi.exhausted h
    · cases h
  · intro a ha
    rcases List.mem_append.1 ha with ha | ha
    · rcases hi.alive a ha with h | h
      · exact .inl (List.mem_append_left _ h)
      · exact .inr (Finset.mem_insert_of_mem (Finset.mem_erase.2 ⟨nofun, h⟩))
    · obtain rfl := SubmissionEvent.minted.inj (List.mem_singleton.1 ha)
      exact .inr (Finset.mem_insert_self _ _)
  · intro hl
    rw [hi.fence hl] at hr
    exact absurd hr (Finset.notMem_empty _)
  · exact hi.users

/-- Every allowed step keeps the invariant. -/
theorem Allowed.inv {e : SubmissionAct} {r : e.Answer} (hi : s.Inv) (ha : Allowed t s e)
    (hd : does t e s r s') : s'.Inv := by
  cases e with
  | lock => obtain ⟨-, -, rfl⟩ := hd; exact hi.quiet rfl le_rfl id (fun _ => id) hi.fence hi.users
  | readActive | loadPoisoned | loadEpoch | upgrade => obtain ⟨-, rfl⟩ := hd; exact hi
  | authorize => obtain rfl := hd; exact hi
  | writeActive | dropControllers =>
    obtain rfl := hd; exact hi.quiet rfl le_rfl id (fun _ => id) hi.fence hi.users
  | storePoisoned =>
    obtain rfl := hd; exact hi.quiet rfl le_rfl (fun _ => rfl) (fun _ => id) hi.fence hi.users
  | tryUpdateEpoch =>
    rcases tryUpdateEpoch_cases hd with ⟨-, -, rfl⟩ | ⟨-, -, rfl⟩
    · exact hi.quiet rfl (Nat.le_succ _) id (fun _ => id) hi.fence hi.users
    · exact hi
  | readFence =>
    obtain ⟨hl, rfl⟩ := hd
    refine hi.quiet rfl le_rfl id (fun _ => Finset.mem_insert_of_mem) (fun h => ?_) hi.users
    rw [show s.leased = true from h] at hl
    cases hl
  | dropFence =>
    obtain rfl := hd
    refine hi.quiet rfl le_rfl id (fun _ h => Finset.mem_erase.2 ⟨nofun, h⟩) (fun h => ?_) hi.users
    show s.fenceReaders.erase (.task t) = ∅
    rw [hi.fence h, Finset.erase_empty]
  | writeFence =>
    obtain ⟨-, hr, rfl⟩ := hd
    exact hi.quiet rfl le_rfl id (fun _ => id) (fun _ => hr) (fun _ _ => rfl)
  | dropLease =>
    obtain ⟨-, hu, rfl⟩ := hd
    refine hi.quiet rfl le_rfl id (fun _ => id) nofun (fun u h => ?_)
    rw [show s.leaseUsers = ∅ from hu] at h
    exact absurd h (Finset.notMem_empty _)
  | borrowLease =>
    obtain ⟨hl, rfl⟩ := hd
    exact hi.quiet rfl le_rfl id (fun _ => id) hi.fence (fun _ _ => hl)
  | returnLease =>
    obtain rfl := hd
    exact hi.quiet rfl le_rfl id (fun _ => id) hi.fence
      (fun u h => hi.users u (Finset.mem_of_mem_erase h))
  | unlock done =>
    obtain rfl := hd
    cases done with
    | none =>
      exact hi.quiet (List.append_nil _) le_rfl id (fun _ => id) hi.fence hi.users
    | some e =>
      cases e with
      | revoked epoch => exact hi.revocation ha.2.1 ha.2.2
      | activated | validated =>
        exact hi.snoc ha.2 nofun nofun rfl rfl rfl rfl rfl (fun _ => .inl) subset_rfl
      | _ => exact ha.elim
  | mint binding epoch authority => obtain rfl := hd; exact hi.mint ha.2.1 ha.2.2.1 ha.2.2.2
  | pollTransport attempt =>
    obtain rfl := hd
    exact hi.snoc ha.2 nofun nofun rfl rfl rfl rfl rfl (fun _ => .inl) subset_rfl
  | dropAttempt id =>
    obtain ⟨-, rfl⟩ := hd
    refine hi.snoc (e := .dropped id) trivial nofun nofun rfl rfl rfl rfl rfl (fun id' h => ?_)
      (Finset.erase_subset _ _)
    by_cases heq : id' = id
    · exact .inr (heq ▸ rfl)
    · exact .inl (Finset.mem_erase.2 ⟨fun h' => heq (FenceReader.attempt.inj h'), h⟩)

theorem Inv.crash (hi : s.Inv) (hc : crash t s s') : s'.Inv := by
  obtain ⟨-, rfl⟩ := hc
  refine hi.quiet rfl le_rfl id (fun _ h => Finset.mem_erase.2 ⟨nofun, h⟩) (fun h => ?_)
    (fun u h => hi.users u (Finset.mem_of_mem_erase h))
  show s.fenceReaders.erase (.task t) = ∅
  rw [hi.fence h, Finset.erase_empty]

theorem Rely.crash (hc : SubmissionControllerState.crash t s s') (hu : u ≠ t) : Rely u s s' := by
  obtain ⟨hl, rfl⟩ := hc
  refine .of_not_held ?_ le_rfl id
    (fun h => Finset.mem_erase.2 ⟨fun h' => hu (FenceReader.task.inj h'), h⟩)
    (fun h => Finset.mem_erase.2 ⟨hu, h⟩)
  rw [hl]
  exact fun h => hu (Option.some.inj h).symm

end SubmissionControllerState

/-- What the tasks around a controller rely on, and keep. -/
def submissionLogic : submissionWorld.Logic where
  inv := SubmissionControllerState.Inv
  rely := SubmissionControllerState.Rely
  refl := .refl
  trans h h' := h.trans h'
  crash hi hc := ⟨hi.crash hc, fun _ hu => .crash hc hu⟩

/-! ## What a task knows -/

namespace Submission

open SubmissionControllerState (Rely Allowed Inv)

variable {t : ℕ} {s s' s'' : SubmissionControllerState} {α : Type}
  {Q : α → SubmissionControllerState → Prop}

/-- One step, and what follows it. -/
theorem safe_act {e : SubmissionAct} {k : e.Answer → Submission α}
    (ha : ∀ s₁, Rely t s s₁ → s₁.Inv → Allowed t s₁ e)
    (hk : ∀ s₁ r s₂, Rely t s s₁ → s₁.Inv → does t e s₁ r s₂ →
      submissionLogic.Safe t Q (k r) s₂) :
    submissionLogic.Safe t Q (.act e k) s := by
  intro s₁ hr hi r s₂ hd
  have hall := ha s₁ hr hi
  exact ⟨⟨hall.inv hi hd, fun u hu => hall.rely hd hu⟩, hk s₁ r s₂ hr hi hd⟩

/-- The task keeps its read guard and its lease. -/
def Guarded (t : ℕ) (s s' : SubmissionControllerState) : Prop :=
  (.task t ∈ s.fenceReaders → .task t ∈ s'.fenceReaders) ∧
    (t ∈ s.leaseUsers → t ∈ s'.leaseUsers)

theorem Guarded.refl (t : ℕ) (s : SubmissionControllerState) : Guarded t s s := ⟨id, id⟩

theorem Guarded.trans (h : Guarded t s s') (h' : Guarded t s' s'') : Guarded t s s'' :=
  ⟨h'.1 ∘ h.1, h'.2 ∘ h.2⟩

theorem Guarded.of_rely (h : Rely t s s') : Guarded t s s' := ⟨h.reader, h.user⟩

/-- The task holds the lock of a controller that was not exhausted; revoked attempts have an
    epoch that is gone. -/
structure Held (t : ℕ) (s : SubmissionControllerState) : Prop where
  locked : s.lockedBy = some t
  fresh : ¬ Exhausted s.log
  stale : ∀ a, Revoked s.log a → a.revocationEpoch < s.revocationEpoch

theorem Held.rely (h : Held t s) (hr : Rely t s s') : Held t s' := by
  obtain ⟨hl, he, -, ids, hlog⟩ := hr.held h.locked
  refine ⟨hl, fun hx => ?_, fun a ha => ?_⟩
  · rw [hlog] at hx; exact h.fresh (exhausted_dropped hx)
  · rw [hlog] at ha; rw [he]; exact h.stale a (revoked_dropped ha)

/-- A controller that is not poisoned, seen under the lock. -/
theorem Held.of_loadPoisoned (hi : s.Inv) (hl : s.lockedBy = some t) (hp : s.poisoned = false) :
    Held t s := by
  refine ⟨hl, fun hx => ?_, fun a ha => ?_⟩
  · rw [hi.exhausted hx] at hp; cases hp
  · refine (hi.revoked a ha).resolve_right fun h => ?_
    rw [h] at hp; cases hp

/-- An attempt of the current epoch is not revoked. -/
theorem Held.legal (h : Held t s) {a : SubmissionAttemptAuthority}
    (he : s.revocationEpoch = a.revocationEpoch) : ¬ Revoked s.log a ∧ ¬ Exhausted s.log :=
  ⟨fun hr => (h.stale a hr).ne he.symm, h.fresh⟩

/-! ## The methods are safe -/

/-- The task holds the lock, with the guards it had at `s₀`. -/
def Locks (t : ℕ) (s₀ s : SubmissionControllerState) : Prop :=
  s.lockedBy = some t ∧ Guarded t s₀ s

variable {s₀ : SubmissionControllerState}

theorem Locks.rely (h : Locks t s₀ s) (hr : Rely t s s') : Locks t s₀ s' :=
  ⟨(hr.held h.1).1, h.2.trans (.of_rely hr)⟩

/-- A step that only reads. -/
theorem safe_read {e : SubmissionAct} {k : e.Answer → Submission α}
    (he : ∀ s r s', does t e s r s' → s' = s) (ha : ∀ s, Allowed t s e)
    (hk : ∀ s₁ r, Rely t s s₁ → s₁.Inv → does t e s₁ r s₁ → submissionLogic.Safe t Q (k r) s₁) :
    submissionLogic.Safe t Q (.act e k) s := by
  refine safe_act (fun s₁ _ _ => ha s₁) fun s₁ r s₂ hr hi hd => ?_
  obtain rfl := he _ _ _ hd
  exact hk _ r hr hi hd

theorem safe_loadPoisoned {k : Bool → Submission α}
    (hk : ∀ s₁, Rely t s s₁ → s₁.Inv → submissionLogic.Safe t Q (k s₁.poisoned) s₁) :
    submissionLogic.Safe t Q (.act .loadPoisoned k) s :=
  safe_read (fun _ _ _ h => h.2) (fun _ => trivial) fun s₁ _ hr hi hd => hd.1 ▸ hk s₁ hr hi

theorem safe_loadEpoch {k : ℕ → Submission α}
    (hk : ∀ s₁, Rely t s s₁ → submissionLogic.Safe t Q (k s₁.revocationEpoch) s₁) :
    submissionLogic.Safe t Q (.act .loadEpoch k) s :=
  safe_read (fun _ _ _ h => h.2) (fun _ => trivial) fun s₁ _ hr _ hd => hd.1 ▸ hk s₁ hr

theorem safe_readActive {k : Option ActiveSubmissionAuthority → Submission α}
    (hk : ∀ s₁, Rely t s s₁ → submissionLogic.Safe t Q (k s₁.active) s₁) :
    submissionLogic.Safe t Q (.act .readActive k) s :=
  safe_read (fun _ _ _ h => h.2) (fun _ => trivial) fun s₁ _ hr _ hd => hd.1 ▸ hk s₁ hr

theorem safe_writeActive {active : Option ActiveSubmissionAuthority} {k : Unit → Submission α}
    (h : Locks t s₀ s) (hk : ∀ s', Locks t s₀ s' → submissionLogic.Safe t Q (k ()) s') :
    submissionLogic.Safe t Q (.act (.writeActive active) k) s := by
  refine safe_act (fun s₁ hr _ => (h.rely hr).1) ?_
  rintro s₁ _ s₂ hr - rfl
  have hl := h.rely hr
  exact hk _ ⟨hl.1, hl.2⟩

theorem safe_storePoisoned {k : Unit → Submission α} (h : Locks t s₀ s)
    (hk : ∀ s', Locks t s₀ s' → s'.poisoned = true → submissionLogic.Safe t Q (k ()) s') :
    submissionLogic.Safe t Q (.act .storePoisoned k) s := by
  refine safe_act (fun _ _ _ => trivial) ?_
  rintro s₁ _ s₂ hr - rfl
  have hl := h.rely hr
  exact hk _ ⟨hl.1, hl.2⟩ rfl

theorem safe_unlock {k : Unit → Submission α} (h : Locks t s₀ s)
    (hk : ∀ s', Guarded t s₀ s' → submissionLogic.Safe t Q (k ()) s') :
    submissionLogic.Safe t Q (.act (.unlock none) k) s := by
  refine safe_act (fun s₁ hr _ => (h.rely hr).1) ?_
  rintro s₁ _ s₂ hr - rfl
  exact hk _ (h.rely hr).2

/-- `lock_active` returns a held lock, or it returns without the lock. -/
theorem safe_lockActive (h : Guarded t s₀ s) : submissionLogic.Safe t
    (fun ok s' => Guarded t s₀ s' ∧ (ok = true → Held t s')) lockActive s := by
  refine safe_act (fun _ _ _ => trivial) ?_
  rintro s₁ poisoned s₂ hr - ⟨-, -, rfl⟩
  have hl : Locks t s₀ { s₁ with lockedBy := some t } :=
    ⟨rfl, (h.trans (.of_rely hr) : Guarded t s₀ s₁)⟩
  cases poisoned with
  | true =>
    refine safe_writeActive hl fun s hl => ?_
    refine safe_storePoisoned hl fun s hl _ => ?_
    refine safe_unlock hl fun s hg => ?_
    exact ⟨hg, nofun⟩
  | false =>
    refine safe_act (fun _ _ _ => trivial) ?_
    rintro s₃ poisoned s₄ hr₃ hi ⟨hp, rfl⟩
    replace hl := hl.rely hr₃
    cases poisoned with
    | true =>
      refine safe_writeActive hl fun s hl => ?_
      refine safe_unlock hl fun s hg => ?_
      exact ⟨hg, nofun⟩
    | false => exact ⟨hl.2, fun _ => .of_loadPoisoned hi hl.1 hp.symm⟩

/-- `poison_and_clear_active` is safe wherever it is called. -/
theorem safe_poisonAndClearActive (h : Guarded t s₀ s) :
    submissionLogic.Safe t (fun _ s' => Guarded t s₀ s') poisonAndClearActive s := by
  refine safe_act (fun _ _ _ => trivial) ?_
  rintro s₁ _ s₂ hr - rfl
  have hg : Guarded t s₀ { s₁ with poisoned := true } :=
    (h.trans (.of_rely hr) : Guarded t s₀ s₁)
  refine safe_act (fun _ _ _ => trivial) ?_
  rintro s₃ _ s₄ hr₃ - ⟨-, -, rfl⟩
  have hl : Locks t s₀ { s₃ with lockedBy := some t } :=
    ⟨rfl, (hg.trans (.of_rely hr₃) : Guarded t s₀ s₃)⟩
  refine safe_writeActive hl fun s hl => ?_
  exact safe_unlock hl fun s hg => hg

/-- Every minted attempt has an epoch that is gone, or the controller is poisoned. -/
def Passed (s : SubmissionControllerState) : Prop :=
  ∀ a, .minted a ∈ s.log → a.revocationEpoch < s.revocationEpoch ∨ s.poisoned = true

theorem Passed.rely (h : Passed s) (hl : s.lockedBy = some t) (hr : Rely t s s') : Passed s' := by
  obtain ⟨-, he, -, ids, hlog⟩ := hr.held hl
  intro a ha
  rw [hlog] at ha
  rcases List.mem_append.1 ha with ha | ha
  · rw [he]; exact (h a ha).imp_right hr.poisoned
  · obtain ⟨_, -, h⟩ := List.mem_map.1 ha; cases h

/-- The end of a revocation: the entry is cleared, and the lock given back. -/
theorem safe_clearRevoked {epoch : ℕ} (h : Locks t s₀ s) (hp : Passed s)
    (hx : u64Max ≤ epoch → s.poisoned = true) :
    submissionLogic.Safe t (fun _ s' => Guarded t s₀ s')
      (.act (.writeActive none) fun _ => step (.unlock (some (.revoked epoch)))) s := by
  refine safe_act (fun s₁ hr _ => (h.rely hr).1) ?_
  rintro s₁ _ s₂ hr - rfl
  have hl : Locks t s₀ { s₁ with active := none } := ⟨(h.rely hr).1, (h.rely hr).2⟩
  have hp₁ : Passed { s₁ with active := none } := (hp.rely h.1 hr : Passed s₁)
  refine safe_act (fun s₃ hr₃ _ => ?_) ?_
  · exact ⟨(hl.rely hr₃).1, hp₁.rely hl.1 hr₃, fun hmax => hr₃.poisoned (hr.poisoned (hx hmax))⟩
  · rintro s₃ _ s₄ hr₃ - rfl
    exact (hl.rely hr₃).2

/-- Under the lock the epoch moves past every minted attempt, or the controller is poisoned. -/
theorem safe_publishRevocation (h : Locks t s₀ s) :
    submissionLogic.Safe t (fun _ s' => Guarded t s₀ s') publishRevocation s := by
  refine safe_act (fun s₁ hr _ => (h.rely hr).1) ?_
  intro s₁ r s₂ hr hi hd
  have hl := h.rely hr
  rcases SubmissionControllerState.tryUpdateEpoch_cases hd with ⟨hlt, rfl, rfl⟩ | ⟨-, rfl, rfl⟩
  · refine safe_clearRevoked hl (fun a ha => .inl ?_) fun hmax => absurd hlt (not_lt.2 hmax)
    exact Nat.lt_succ_of_le (hi.minted_le a ha)
  · refine safe_storePoisoned hl fun s hl hp => ?_
    exact safe_clearRevoked hl (fun _ _ => .inr hp) fun _ => hp

/-- `request_revocation` is safe wherever it is called. -/
theorem safe_requestRevocation (h : Guarded t s₀ s) :
    submissionLogic.Safe t (fun _ s' => Guarded t s₀ s') requestRevocation s := by
  refine safe_act (fun _ _ _ => trivial) ?_
  rintro s₁ poisoned s₂ hr - ⟨-, -, rfl⟩
  have hl : Locks t s₀ { s₁ with lockedBy := some t } :=
    ⟨rfl, (h.trans (.of_rely hr) : Guarded t s₀ s₁)⟩
  cases poisoned with
  | true => exact safe_storePoisoned hl fun s hl _ => safe_publishRevocation hl
  | false => exact safe_publishRevocation hl

/-- A read guard is dropped, and the method ends. -/
theorem safe_dropFence : submissionLogic.Safe t (fun _ _ => True) (step .dropFence) s :=
  safe_act (fun _ _ _ => trivial) fun _ _ _ _ _ _ => trivial

theorem safe_refuseAttempt (h : Locks t s₀ s) :
    submissionLogic.Safe t (fun _ _ => True) refuseAttempt s := by
  refine safe_unlock h fun s hg => ?_
  exact (safe_requestRevocation hg).bind fun _ _ _ => safe_dropFence

/-- The task holds the lock of a controller that was not exhausted, with its guards. -/
structure Holds (t : ℕ) (s₀ s : SubmissionControllerState) : Prop extends Held t s where
  guarded : Guarded t s₀ s

theorem Holds.rely (h : Holds t s₀ s) (hr : Rely t s s') : Holds t s₀ s' :=
  ⟨h.toHeld.rely hr, h.guarded.trans (.of_rely hr)⟩

theorem Holds.locks (h : Holds t s₀ s) : Locks t s₀ s := ⟨h.locked, h.guarded⟩

theorem Holds.epoch (h : Holds t s₀ s) (hr : Rely t s s') :
    s'.revocationEpoch = s.revocationEpoch := (hr.held h.locked).2.1

theorem Holds.active (h : Holds t s₀ s) (hr : Rely t s s') : s'.active = s.active :=
  (hr.held h.locked).2.2.1

/-- An attempt is minted with its read guard, of a controller that was not exhausted, at the
    epoch under the lock. -/
theorem safe_authorizeIf {binding : ℕ} {authority : AuthenticatedProtocolAuthority} :
    submissionLogic.Safe t (fun _ _ => True) (authorizeIf binding authority) s := by
  refine safe_act (fun _ _ _ => trivial) ?_
  rintro s₁ _ s₂ - - ⟨-, hs₂⟩
  have hreader : .task t ∈ s₂.fenceReaders := by rw [hs₂]; exact Finset.mem_insert_self _ _
  refine safe_read (fun _ _ _ h => h) (fun _ => trivial) fun s₃ authorized hr₃ _ _ => ?_
  have hg : Guarded t s₂ s₃ := .of_rely hr₃
  cases authorized with
  | none => exact (safe_poisonAndClearActive hg).bind fun _ _ _ => safe_dropFence
  | some authorized =>
    refine (safe_lockActive hg).bind ?_
    rintro ok s₄ ⟨hg, hheld⟩
    cases ok with
    | false => exact safe_dropFence
    | true =>
      have h : Holds t s₂ s₄ := ⟨hheld rfl, hg⟩
      refine safe_loadEpoch fun s₅ hr₅ => ?_
      replace h := h.rely hr₅
      cases authorized with
      | false => exact safe_refuseAttempt h.locks
      | true =>
        refine safe_loadPoisoned fun s₆ hr₆ _ => ?_
        have h₆ := h.rely hr₆
        cases s₆.poisoned with
        | true => exact safe_refuseAttempt h₆.locks
        | false =>
          refine safe_readActive fun s₇ hr₇ => ?_
          have h₇ := h₆.rely hr₇
          show submissionLogic.Safe t _ (if _ then _ else _) s₇
          split_ifs
          · exact safe_refuseAttempt h₇.locks
          · refine safe_act (fun s₈ hr₈ _ => ?_) fun _ _ _ _ _ _ => trivial
            have h₈ := h₇.rely hr₈
            refine ⟨h₈.locked, h₈.guarded.1 hreader, h₈.fresh, ?_⟩
            exact (hr₆.trans (hr₇.trans hr₈)).epoch_le

/-- A refused activation gives the lock and its lease back. -/
theorem safe_returnLease (ok : Bool) :
    submissionLogic.Safe t (fun _ _ => True) (do step .returnLease; return ok) s :=
  safe_act (fun _ _ _ => trivial) fun _ _ _ _ _ _ => trivial

theorem safe_refuseActivation (h : Locks t s₀ s) :
    submissionLogic.Safe t (fun _ _ => True) refuseActivation s :=
  safe_unlock h fun _ _ => safe_returnLease false

/-- While a lease is borrowed every minted attempt was dropped. -/
theorem legal_activated (hi : s.Inv) (hu : t ∈ s.leaseUsers) (hx : ¬ Exhausted s.log)
    (active : ActiveSubmissionAuthority) : Legal s.log (.activated active) := by
  refine ⟨hx, fun a ha => (hi.alive a ha).resolve_right fun h => ?_⟩
  rw [hi.fence (hi.users t hu)] at h
  exact absurd h (Finset.notMem_empty _)

/-- An activation succeeds under the lease, of a controller that was not exhausted. -/
theorem safe_activate {epoch : ℕ} {authority : AuthenticatedProtocolAuthority} :
    submissionLogic.Safe t (fun _ _ => True) (activate epoch authority) s := by
  refine safe_act (fun _ _ _ => trivial) ?_
  rintro s₁ _ s₂ - - ⟨-, hs₂⟩
  have huser : t ∈ s₂.leaseUsers := by rw [hs₂]; exact Finset.mem_insert_self _ _
  refine safe_loadPoisoned fun s₃ hr₃ _ => ?_
  have hg : Guarded t s₂ s₃ := .of_rely hr₃
  cases s₃.poisoned with
  | true => exact safe_returnLease false
  | false =>
    refine safe_loadEpoch fun s₄ hr₄ => ?_
    replace hg := hg.trans (.of_rely hr₄)
    show submissionLogic.Safe t _ (if _ then _ else _) s₄
    split_ifs
    · exact safe_returnLease false
    refine (safe_lockActive hg).bind ?_
    rintro ok s₅ ⟨hg, hheld⟩
    cases ok with
    | false => exact safe_returnLease false
    | true =>
      have h : Holds t s₂ s₅ := ⟨hheld rfl, hg⟩
      refine safe_loadPoisoned fun s₆ hr₆ _ => ?_
      replace h := h.rely hr₆
      cases s₆.poisoned with
      | true => exact safe_refuseActivation h.locks
      | false =>
        refine safe_readActive fun s₇ hr₇ => ?_
        replace h := h.rely hr₇
        show submissionLogic.Safe t _ (if _ then _ else _) s₇
        split_ifs
        · exact safe_refuseActivation h.locks
        refine safe_loadEpoch fun s₈ hr₈ => ?_
        replace h := h.rely hr₈
        show submissionLogic.Safe t _ (if _ then _ else _) s₈
        split_ifs
        · exact safe_refuseActivation h.locks
        refine safe_act (fun s₉ hr₉ _ => (h.rely hr₉).locked) ?_
        rintro s₉ _ s₁₀ hr₉ - rfl
        have h₉ := h.rely hr₉
        have h₁₀ : Holds t s₂ { s₉ with
            active := some (⟨epoch, authority⟩ : ActiveSubmissionAuthority) } :=
          ⟨⟨h₉.locked, h₉.fresh, h₉.stale⟩, h₉.guarded⟩
        refine safe_act (fun s hr hi => ?_) fun _ _ _ _ _ _ => safe_returnLease true
        have h := h₁₀.rely hr
        exact ⟨h.locked, legal_activated hi (h.guarded.2 huser) h.fresh _⟩

/-- What `lockValid` leaves: the lock, and the attempt is of the epoch and the active entry. -/
structure Valid (t : ℕ) (attempt : SubmissionAttemptAuthority) (s : SubmissionControllerState) :
    Prop extends Held t s where
  epoch : s.revocationEpoch = attempt.revocationEpoch
  active : s.active = some ⟨attempt.revocationEpoch, attempt.protocolAuthority⟩

theorem Valid.rely {attempt : SubmissionAttemptAuthority} (h : Valid t attempt s)
    (hr : Rely t s s') : Valid t attempt s' := by
  obtain ⟨-, he, ha, -⟩ := hr.held h.locked
  exact ⟨h.toHeld.rely hr, he.trans h.epoch, ha.trans h.active⟩

theorem safe_lockValid {attempt : SubmissionAttemptAuthority} {binding : ℕ}
    {authority : AuthenticatedProtocolAuthority} : submissionLogic.Safe t
      (fun ok s' => ok = true → Valid t attempt s') (lockValid attempt binding authority) s := by
  unfold lockValid
  split_ifs
  · exact nofun
  refine safe_read (fun _ _ _ h => h.2) (fun _ => trivial) fun s₁ upgraded hr₁ _ _ => ?_
  cases upgraded with
  | false => exact nofun
  | true =>
    refine (safe_lockActive (.of_rely hr₁)).bind ?_
    rintro ok s₂ ⟨hg, hheld⟩
    cases ok with
    | false => exact nofun
    | true =>
      have h : Holds t s s₂ := ⟨hheld rfl, hg⟩
      refine safe_loadPoisoned fun s₃ hr₃ _ => ?_
      replace h := h.rely hr₃
      cases s₃.poisoned with
      | true => exact safe_unlock h.locks fun _ _ => nofun
      | false =>
        refine safe_loadEpoch fun s₄ hr₄ => ?_
        replace h := h.rely hr₄
        show submissionLogic.Safe t _ (if _ then _ else _) s₄
        split_ifs with he
        · exact safe_unlock h.locks fun _ _ => nofun
        refine safe_readActive fun s₅ hr₅ => ?_
        have h₅ := h.rely hr₅
        show submissionLogic.Safe t _ (if _ then _ else _) s₅
        split_ifs with ha
        · exact safe_unlock h₅.locks fun _ _ => nofun
        exact fun _ => ⟨h₅.toHeld, (h.epoch hr₅).trans (not_not.1 he), not_not.1 ha⟩

/-- A revalidation that returns `true` found the attempt in the active entry. -/
theorem safe_revalidate {attempt : SubmissionAttemptAuthority} {binding : ℕ}
    {authority : AuthenticatedProtocolAuthority} : submissionLogic.Safe t
      (fun ok s' => ok = true → s'.revocationEpoch = attempt.revocationEpoch ∧
        s'.active = some ⟨attempt.revocationEpoch, attempt.protocolAuthority⟩)
      (revalidate attempt binding authority) s := by
  refine safe_lockValid.bind ?_
  rintro ok s₁ hvalid
  cases ok with
  | false => exact nofun
  | true =>
    have h := hvalid rfl
    refine safe_act (fun s₂ hr _ => ?_) ?_
    · exact ⟨(h.rely hr).locked, (h.rely hr).legal (h.rely hr).epoch⟩
    · rintro s₂ _ s₃ hr - rfl
      exact fun _ => ⟨(h.rely hr).epoch, (h.rely hr).active⟩

theorem safe_pollFirstTransport {attempt : SubmissionAttemptAuthority} {binding : ℕ}
    {authority : AuthenticatedProtocolAuthority} : submissionLogic.Safe t
      (fun _ _ => True) (pollFirstTransport attempt binding authority) s := by
  refine safe_lockValid.bind ?_
  rintro ok s₁ hvalid
  cases ok with
  | false => trivial
  | true =>
    have h := hvalid rfl
    refine safe_act (fun s₂ hr _ => ?_) ?_
    · exact ⟨(h.rely hr).locked, (h.rely hr).legal (h.rely hr).epoch⟩
    · rintro s₂ result s₃ hr - rfl
      have hl : Locks t s₂ { s₂ with log := s₂.log ++ [.polled attempt] } :=
        ⟨(h.rely hr).locked, .refl t s₂⟩
      cases result with
      | panicked =>
        refine safe_writeActive hl fun s hl => ?_
        refine safe_storePoisoned hl fun s hl _ => ?_
        exact safe_unlock hl fun _ _ => trivial
      | ready | pending => exact safe_unlock hl fun _ _ => trivial

theorem safe_ignored {p : Submission α} (h : submissionLogic.Safe t Q p s) :
    submissionLogic.Safe t (fun _ _ => True) (do let _ ← p) s := by
  refine h.bind ?_
  exact fun _ _ _ => trivial

/-- Every call is safe wherever it is made. -/
theorem safe_body (c : SubmissionCall) :
    submissionLogic.Safe t (fun _ _ => True) c.body s := by
  cases c with
  | requestRevocation => exact (safe_requestRevocation (.refl t s)).mono fun _ _ _ => trivial
  | acquireExclusive | dropLease | dropAttempt | dropControllers =>
    exact safe_act (fun _ _ _ => trivial) fun _ _ _ _ _ _ => trivial
  | activate => exact safe_ignored safe_activate
  | authorizeIf => exact safe_authorizeIf
  | revalidate => exact safe_ignored safe_revalidate
  | pollFirstTransport => exact safe_ignored safe_pollFirstTransport

/-- `lock_active` alone, when it returns the held lock. -/
theorem solo_lockActive (h : submissionWorld.Solo t lockActive s true s') :
    s' = { s with lockedBy := some t } := by
  unfold lockActive at h
  obtain ⟨poisoned, s₁, ⟨-, -, rfl⟩, h⟩ := World.solo_act.1 h
  cases poisoned with
  | true => simp [Prog.bind] at h
  | false =>
    obtain ⟨poisoned, s₂, ⟨-, rfl⟩, h⟩ := World.solo_act.1 h
    cases poisoned with
    | true => simp [Prog.bind] at h
    | false => exact (World.solo_ret.1 h).2

/-- The checks alone, when they find the attempt valid. -/
theorem solo_lockValid {attempt : SubmissionAttemptAuthority} {binding : ℕ}
    {authority : AuthenticatedProtocolAuthority}
    (h : submissionWorld.Solo t (lockValid attempt binding authority) s true s') :
    s.revocationEpoch = attempt.revocationEpoch ∧
      s.active = some ⟨attempt.revocationEpoch, attempt.protocolAuthority⟩ := by
  unfold lockValid at h
  split_ifs at h with hb
  · simp at h
  obtain ⟨upgraded, s₁, ⟨-, rfl⟩, h⟩ := World.solo_act.1 h
  cases upgraded with
  | false => simp [Prog.bind] at h
  | true =>
    simp only [Prog.bind, if_true] at h
    obtain ⟨ok, s₂, hlock, h⟩ := World.solo_bind.1 h
    cases ok with
    | false => simp at h
    | true =>
      obtain rfl := solo_lockActive hlock
      obtain ⟨poisoned, s₃, ⟨-, rfl⟩, h⟩ := World.solo_act.1 h
      cases poisoned with
      | true => simp [Prog.bind] at h
      | false =>
        obtain ⟨epoch, s₄, ⟨rfl, rfl⟩, h⟩ := World.solo_act.1 h
        dsimp only [Prog.bind] at h
        split_ifs at h with he
        · simp at h
        obtain ⟨active, s₅, ⟨rfl, rfl⟩, h⟩ := World.solo_act.1 h
        dsimp only [Prog.bind] at h
        split_ifs at h with ha
        · simp at h
        exact ⟨not_not.1 he, not_not.1 ha⟩

/-- A revalidation alone, when it returns `true`. -/
theorem solo_revalidate {attempt : SubmissionAttemptAuthority} {binding : ℕ}
    {authority : AuthenticatedProtocolAuthority}
    (h : submissionWorld.Solo t (revalidate attempt binding authority) s true s') :
    s.revocationEpoch = attempt.revocationEpoch ∧
      s.active = some ⟨attempt.revocationEpoch, attempt.protocolAuthority⟩ := by
  obtain ⟨ok, s₁, hvalid, h⟩ := World.solo_bind.1 h
  cases ok with
  | false => simp at h
  | true => exact solo_lockValid hvalid

end Submission

/-! ## Revocation is final -/

theorem SubmissionReachable.inv {epoch : ℕ}
    {c : World.Config SubmissionAct SubmissionAct.Answer SubmissionControllerState ℕ}
    (h : SubmissionReachable epoch c) : c.shared.Inv := by
  have h₀ : SubmissionControllerState.Inv { revocationEpoch := epoch } := by
    refine ⟨.nil, nofun, ?_, ?_, nofun, nofun, nofun⟩
    · rintro a ⟨before, found, after, h, -⟩; simp at h
    · rintro ⟨found, -, h⟩; cases h
  exact (World.Logic.reachable (L := submissionLogic) h₀ (fun c _ _ _ => Submission.safe_body c)
    h).1

/-- After a completed revocation an attempt minted before it is never found valid again, and its
    transport never gets its first poll; after one that found the last epoch the controller is
    poisoned, and nothing but revocations and drops happens.  All attempts that revalidate are of
    the epoch and the authority of the active entry, and an activation succeeds only when every
    attempt minted before it was dropped. -/
theorem revocation_final {epoch : ℕ}
    {c : World.Config SubmissionAct SubmissionAct.Answer SubmissionControllerState ℕ}
    (h : SubmissionReachable epoch c) :
    (∀ before found after, c.shared.log = before ++ .revoked found :: after →
      (∀ a, .minted a ∈ before → .validated a ∉ after ∧ .polled a ∉ after) ∧
      (u64Max ≤ found → c.shared.poisoned = true ∧
        ∀ e ∈ after, (∃ found, e = .revoked found) ∨ ∃ id, e = .dropped id)) ∧
    (∀ t attempt binding authority s', submissionWorld.Solo t
        (Submission.revalidate attempt binding authority) c.shared true s' →
      c.shared.active = some ⟨attempt.revocationEpoch, attempt.protocolAuthority⟩ ∧
        c.shared.revocationEpoch = attempt.revocationEpoch) ∧
    (∀ before active after, c.shared.log = before ++ .activated active :: after →
      ∀ a, .minted a ∈ before → .dropped a.id ∈ before) := by
  have hi := SubmissionReachable.inv h
  have hlegal : ∀ {before found after e}, c.shared.log = before ++ .revoked found :: after →
      e ∈ after → ∃ mid, Legal (before ++ .revoked found :: mid) e := by
    intro before found after e hlog he
    obtain ⟨mid, rest, rfl⟩ := List.append_of_mem he
    have hhist := hi.history
    rw [hlog, ← List.cons_append, ← List.append_assoc] at hhist
    exact ⟨mid, hhist.legal⟩
  refine ⟨fun before found after hlog => ⟨fun a ha => ⟨fun he => ?_, fun he => ?_⟩, fun hmax =>
    ⟨?_, fun e he => ?_⟩⟩, fun t a binding authority s' hs => ?_,
    fun before active after hlog => ?_⟩
  · obtain ⟨mid, hl⟩ := hlegal hlog he
    exact hl.1 ⟨before, found, mid, rfl, ha⟩
  · obtain ⟨mid, hl⟩ := hlegal hlog he
    exact hl.1 ⟨before, found, mid, rfl, ha⟩
  · exact hi.exhausted ⟨found, hmax, hlog ▸ List.mem_append_right _ List.mem_cons_self⟩
  · obtain ⟨mid, hl⟩ := hlegal hlog he
    have hx : Exhausted (before ++ .revoked found :: mid) :=
      ⟨found, hmax, List.mem_append_right _ List.mem_cons_self⟩
    cases e with
    | revoked found => exact .inl ⟨found, rfl⟩
    | dropped id => exact .inr ⟨id, rfl⟩
    | minted => exact absurd hx hl
    | activated => exact absurd hx hl.1
    | validated | polled => exact absurd hx hl.2
  · exact (Submission.solo_revalidate hs).symm
  · have hhist := hi.history
    rw [hlog] at hhist
    exact hhist.legal.2

/-! ## A revoked attempt -/

/-- An activation of `sampleProtocolAuthority`, under a lease. -/
theorem solo_activate (revocationEpoch nextAttempt : ℕ) (log : List SubmissionEvent) :
    submissionWorld.Solo 0 (SubmissionCall.body (.activate revocationEpoch sampleProtocolAuthority))
      { revocationEpoch, nextAttempt, log, leased := true } ()
      { revocationEpoch, nextAttempt, leased := true
        active := some ⟨revocationEpoch, sampleProtocolAuthority⟩
        log := log ++ [.activated ⟨revocationEpoch, sampleProtocolAuthority⟩] } := by
  simp [SubmissionCall.body, Submission.activate, Submission.lockActive, submissionWorld, does]

/-- The active entry of the first epoch, with the events so far. -/
def sampleActive (log : List SubmissionEvent) : SubmissionControllerState where
  active := some ⟨0, sampleProtocolAuthority⟩
  log := log

/-- The same with `sampleAttempt` alive. -/
def sampleMinted (log : List SubmissionEvent) : SubmissionControllerState where
  active := some ⟨0, sampleProtocolAuthority⟩
  fenceReaders := {.attempt 0}
  nextAttempt := 1
  log := log

theorem solo_authorizeIf (log : List SubmissionEvent) :
    submissionWorld.Solo 0 (SubmissionCall.body (.authorizeIf 0 sampleProtocolAuthority))
      (sampleActive log) () (sampleMinted (log ++ [.minted sampleAttempt])) := by
  refine .act (r := ()) ⟨rfl, rfl⟩ (.act (r := some true) rfl ?_)
  simp [Submission.lockActive, submissionWorld, does, Prog.bind, sampleAttempt, sampleActive,
    sampleMinted]

theorem solo_revalidated (log : List SubmissionEvent) :
    submissionWorld.Solo 0
      (SubmissionCall.body (.revalidate sampleAttempt 0 sampleProtocolAuthority))
      (sampleMinted log) () (sampleMinted (log ++ [.validated sampleAttempt])) := by
  simp [SubmissionCall.body, Submission.revalidate, Submission.lockValid, Submission.lockActive,
    submissionWorld, does, sampleAttempt, sampleMinted]

theorem solo_requestRevocation (log : List SubmissionEvent) :
    submissionWorld.Solo 0 (SubmissionCall.body .requestRevocation) (sampleMinted log) ()
      { revocationEpoch := 1, nextAttempt := 1, fenceReaders := {.attempt 0}
        log := log ++ [.revoked 0] } := by
  simp [SubmissionCall.body, Submission.requestRevocation, Submission.publishRevocation,
    submissionWorld, does, sampleMinted, checkedAdd, u64Max]

/-- The attempt was found valid, revoked and dropped. -/
def revokedLog : List SubmissionEvent :=
  [.activated ⟨0, sampleProtocolAuthority⟩, .minted sampleAttempt, .validated sampleAttempt,
    .revoked 0, .dropped 0]

/-- An attempt is minted and found valid, then revoked and dropped; an equal authority is
    activated again. -/
theorem revocation_final_reactivated :
    ∃ (c : World.Config SubmissionAct SubmissionAct.Answer SubmissionControllerState ℕ)
      (before after : List SubmissionEvent), SubmissionReachable 0 c ∧
      c.shared.log = before ++ .revoked 0 :: after ∧ .validated sampleAttempt ∈ before ∧
      c.shared.active = some ⟨1, sampleProtocolAuthority⟩ ∧
      .validated sampleAttempt ∉ after ∧ .polled sampleAttempt ∉ after := by
  have h₁ : SubmissionReachable 0 ⟨{ leased := true }, fun _ => .ret ()⟩ := by
    refine World.Reachable.solo (t := 0) .acquireExclusive .refl ?_
    simp [SubmissionCall.body, Submission.acquireExclusive, submissionWorld, does]
  have h₂ := h₁.solo _ (solo_activate 0 0 [])
  have h₃ : SubmissionReachable 0
      ⟨sampleActive [.activated ⟨0, sampleProtocolAuthority⟩], fun _ => .ret ()⟩ := by
    refine h₂.solo (t := 0) .dropLease ?_
    simp [SubmissionCall.body, submissionWorld, does, sampleActive]
  have h₄ := h₃.solo _ (solo_authorizeIf _)
  have h₅ := h₄.solo _ (solo_revalidated _)
  have h₆ := h₅.solo _ (solo_requestRevocation _)
  have h₇ : SubmissionReachable 0
      ⟨{ revocationEpoch := 1, nextAttempt := 1, log := revokedLog }, fun _ => .ret ()⟩ := by
    refine h₆.solo (t := 0) (.dropAttempt 0) (World.solo_perform.2 ⟨?_, ?_⟩)
    · simp
    · simp [revokedLog, sampleAttempt]
  have h₈ : SubmissionReachable 0
      ⟨{ revocationEpoch := 1, nextAttempt := 1, log := revokedLog, leased := true },
        fun _ => .ret ()⟩ := by
    refine h₇.solo (t := 0) .acquireExclusive (World.solo_perform.2 ⟨rfl, rfl, rfl⟩)
  have h₉ := h₈.solo _ (solo_activate 1 1 revokedLog)
  have hfinal := ((revocation_final h₉).1 [.activated ⟨0, sampleProtocolAuthority⟩,
    .minted sampleAttempt, .validated sampleAttempt] 0 [.dropped 0,
    .activated ⟨1, sampleProtocolAuthority⟩] rfl).1 sampleAttempt (by simp)
  exact ⟨_, [.activated ⟨0, sampleProtocolAuthority⟩, .minted sampleAttempt,
    .validated sampleAttempt], _, h₉, rfl, by simp, rfl, hfinal⟩

end Rspm
