/-
  Monitors: partial automata that read a log, and refuse what may not happen.

  A log that a monitor reads to its end obeys the monitor at each of its events
  (`reads_split`).  What the states after an event all refuse does not happen
  after it (`reads_refuses`).
-/
import Mathlib

universe u v

/-- A partial automaton over the events `ι`. -/
structure Monitor (ω : Type u) (ι : Type v) where
  next : ω → ι → Option ω

namespace Monitor

variable {ω : Type u} {ι : Type v} {M : Monitor ω ι} {w w' : ω}

/-- The state after a log, `none` when it was refused. -/
def reads (M : Monitor ω ι) (w : ω) : List ι → Option ω
  | [] => some w
  | e :: log => (M.next w e).bind (M.reads · log)

@[simp] theorem reads_nil : M.reads w [] = some w := rfl

@[simp] theorem reads_cons (e : ι) (log : List ι) :
    M.reads w (e :: log) = (M.next w e).bind (M.reads · log) := rfl

theorem reads_append (log log' : List ι) :
    M.reads w (log ++ log') = (M.reads w log).bind (M.reads · log') := by
  induction log generalizing w with
  | nil => simp
  | cons e log ih =>
    rw [List.cons_append, reads_cons, reads_cons, Option.bind_assoc]
    congr 1
    funext v
    exact ih

theorem reads_snoc (e : ι) (log : List ι) :
    M.reads w (log ++ [e]) = (M.reads w log).bind (M.next · e) := by
  rw [reads_append]
  congr 1
  funext v
  simp

/-- A log cut at one of its events. -/
theorem reads_split {e : ι} {before after : List ι}
    (h : M.reads w (before ++ e :: after) = some w') :
    ∃ v v', M.reads w before = some v ∧ M.next v e = some v' ∧ M.reads v' after = some w' := by
  rw [reads_append] at h
  obtain ⟨v, hv, h⟩ := Option.bind_eq_some_iff.1 h
  rw [reads_cons] at h
  obtain ⟨v', hv', h⟩ := Option.bind_eq_some_iff.1 h
  exact ⟨v, v', hv, hv', h⟩

/-- What the events of a log keep. -/
theorem reads_keeps {P : ω → Prop} {E : ι → Prop}
    (hP : ∀ v e v', P v → E e → M.next v e = some v' → P v') {log : List ι} (hw : P w)
    (h : M.reads w log = some w') (hE : ∀ e ∈ log, E e) : P w' := by
  induction log generalizing w with
  | nil =>
    rw [reads_nil] at h
    exact Option.some.inj h ▸ hw
  | cons e log ih =>
    rw [reads_cons] at h
    obtain ⟨v, hv, h⟩ := Option.bind_eq_some_iff.1 h
    have hvP : P v := hP w e v hw (hE e List.mem_cons_self) hv
    exact ih hvP h fun e he => hE e (List.mem_cons_of_mem _ he)

/-- Read backwards, a predicate of the state was set by its last `m`, and each event since is a
    `k`. -/
theorem reads_since {P : ω → Prop} {m k : ι → Prop} (hw : ¬ P w)
    (hP : ∀ v e v', M.next v e = some v' → P v' → m e ∨ P v ∧ k e) {log : List ι} :
    ∀ {w'}, M.reads w log = some w' → P w' →
      ∃ before e since, log = before ++ e :: since ∧ m e ∧ ∀ e' ∈ since, k e' := by
  induction log using List.reverseRecOn with
  | nil =>
    intro w' h hw'
    rw [reads_nil] at h
    exact absurd (Option.some.inj h ▸ hw') hw
  | append_singleton log e ih =>
    intro w' h hw'
    rw [reads_snoc] at h
    obtain ⟨v, hv, hnext⟩ := Option.bind_eq_some_iff.1 h
    rcases hP v e w' hnext hw' with he | ⟨hvP, he⟩
    · exact ⟨log, e, [], rfl, he, nofun⟩
    · obtain ⟨before, e', since, rfl, hmark, hsince⟩ := ih hv hvP
      refine ⟨before, e', since ++ [e], by simp, hmark, fun e'' he'' => ?_⟩
      rcases List.mem_append.1 he'' with he'' | he''
      · exact hsince e'' he''
      · exact List.mem_singleton.1 he'' ▸ he

/-- What every state of a closed set refuses does not happen from there. -/
theorem reads_refuses {P : ω → Prop} {E bad : ι → Prop}
    (hP : ∀ v e v', P v → E e → M.next v e = some v' → ¬ bad e ∧ P v') {log : List ι} (hw : P w)
    (h : M.reads w log = some w') (hE : ∀ e ∈ log, E e) : ∀ e ∈ log, ¬ bad e := by
  induction log generalizing w with
  | nil => simp
  | cons e log ih =>
    rw [reads_cons] at h
    obtain ⟨v, hv, h⟩ := Option.bind_eq_some_iff.1 h
    obtain ⟨hbad, hvP⟩ := hP w e v hw (hE e List.mem_cons_self) hv
    intro e' he'
    rcases List.mem_cons.1 he' with rfl | he'
    · exact hbad
    · exact ih hvP h (fun e he => hE e (List.mem_cons_of_mem _ he)) e' he'

/-- A log that was split and now ends with `e`: the split is at `e`, or at an earlier event. -/
theorem split_snoc {log before after : List ι} {e e' : ι} (h : log ++ [e] = before ++ e' :: after) :
    (before = log ∧ e' = e) ∨ ∃ after', log = before ++ e' :: after' := by
  rcases List.eq_nil_or_concat after with rfl | ⟨after', c, rfl⟩
  · obtain ⟨hl, he⟩ := List.append_inj' h rfl
    exact .inl ⟨hl.symm, (List.singleton_inj.1 he).symm⟩
  · right
    rw [List.concat_eq_append, ← List.cons_append, ← List.append_assoc] at h
    exact ⟨after', (List.append_inj' h rfl).1⟩

end Monitor
