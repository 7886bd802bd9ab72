/-
  Programs over a shared state, and the tasks that run them.

  A program is an action followed by a program for each of its answers.  Any
  number of tasks run programs over one shared state, one action at a time, in
  any order; a task may also crash.

  `Safe` is the rely-guarantee reading of a program: whatever the other tasks
  do within `rely`, each of its actions keeps the invariant and stays within
  what the other tasks rely on.  Programs that are safe whenever they may start
  keep the invariant in every reachable configuration (`Logic.reachable`).
-/
import Mathlib

/-- A program over the actions `ε` with the answers `ρ`. -/
inductive Prog (ε : Type) (ρ : ε → Type) (α : Type) : Type
  | ret (a : α)
  | act (e : ε) (k : ρ e → Prog ε ρ α)

namespace Prog

variable {ε : Type} {ρ : ε → Type} {α β γ : Type}

def bind : Prog ε ρ α → (α → Prog ε ρ β) → Prog ε ρ β
  | ret a, f => f a
  | act e k, f => act e fun r => (k r).bind f

instance : Monad (Prog ε ρ) where
  pure := ret
  bind := bind

/-- One action. -/
def perform (e : ε) : Prog ε ρ (ρ e) := act e ret

@[simp] theorem pure_eq (a : α) : (pure a : Prog ε ρ α) = ret a := rfl

@[simp] theorem ret_bind (a : α) (f : α → Prog ε ρ β) : (ret a >>= f) = f a := rfl

@[simp] theorem act_bind (e : ε) (k : ρ e → Prog ε ρ α) (f : α → Prog ε ρ β) :
    (act e k >>= f) = act e fun r => k r >>= f := rfl

@[simp] theorem perform_bind (e : ε) (f : ρ e → Prog ε ρ β) :
    (perform e >>= f) = act e f := rfl

end Prog

/-- What the actions of a task may do to the shared state, and what its crash does. -/
structure World (ε : Type) (ρ : ε → Type) (σ τ : Type) where
  does : τ → (e : ε) → σ → ρ e → σ → Prop
  crash : τ → σ → σ → Prop

namespace World

variable {ε : Type} {ρ : ε → Type} {σ τ κ α β : Type} (W : World ε ρ σ τ)

/-- The program run by a task whose actions nothing interrupts. -/
inductive Solo (t : τ) : Prog ε ρ α → σ → α → σ → Prop
  | ret (a : α) (s : σ) : Solo t (.ret a) s a s
  | act {e : ε} {k : ρ e → Prog ε ρ α} {s s₁ s' : σ} {r : ρ e} {a : α}
      (hd : W.does t e s r s₁) (h : Solo t (k r) s₁ a s') : Solo t (.act e k) s a s'

/-- The shared state, and what is left of the program of each task. -/
structure Config (ε : Type) (ρ : ε → Type) (σ τ : Type) where
  shared : σ
  task : τ → Prog ε ρ Unit

variable {W} {t : τ} {a : α} {s s' : σ} in
@[simp] theorem solo_ret {b : α} : W.Solo t (.ret b) s a s' ↔ a = b ∧ s' = s := by
  constructor
  · rintro ⟨⟩; exact ⟨rfl, rfl⟩
  · rintro ⟨rfl, rfl⟩; exact .ret _ _

variable {W} {t : τ} {a : α} {s s' : σ} in
@[simp] theorem solo_act {e : ε} {k : ρ e → Prog ε ρ α} :
    W.Solo t (.act e k) s a s' ↔ ∃ r s₁, W.does t e s r s₁ ∧ W.Solo t (k r) s₁ a s' := by
  constructor
  · rintro ⟨⟩; exact ⟨_, _, ‹_›, ‹_›⟩
  · rintro ⟨r, s₁, hd, h⟩; exact .act hd h

variable {W} {t : τ} {s s' : σ} in
@[simp] theorem solo_perform {e : ε} {a : ρ e} :
    W.Solo t (.perform e) s a s' ↔ W.does t e s a s' := by
  refine solo_act.trans ?_
  constructor
  · rintro ⟨r, s₁, hd, h⟩
    obtain ⟨rfl, rfl⟩ := solo_ret.1 h
    exact hd
  · exact fun hd => ⟨a, s', hd, .ret a s'⟩

variable {W} in
/-- Programs in sequence, run alone. -/
theorem solo_bind {t : τ} {f : α → Prog ε ρ β} {b : β} {s' : σ} {p : Prog ε ρ α} :
    ∀ {s : σ}, W.Solo t (p >>= f) s b s' ↔ ∃ a s₁, W.Solo t p s a s₁ ∧ W.Solo t (f a) s₁ b s' := by
  induction p with
  | ret a =>
    intro s
    rw [Prog.ret_bind]
    constructor
    · exact fun h => ⟨a, s, .ret a s, h⟩
    · rintro ⟨a, s₁, ⟨⟩, h⟩; exact h
  | act e k ih =>
    intro s
    rw [Prog.act_bind, solo_act]
    constructor
    · rintro ⟨r, s₁, hd, h⟩
      obtain ⟨a, s₂, h1, h2⟩ := (ih r).1 h
      exact ⟨a, s₂, .act hd h1, h2⟩
    · rintro ⟨a, s₂, h1, h2⟩
      obtain ⟨r, s₁, hd, h⟩ := solo_act.1 h1
      exact ⟨r, s₁, hd, (ih r).2 ⟨a, s₂, h, h2⟩⟩

/-- One program under way: its next action, or a step of `others`. -/
inductive Along (t : τ) (others : σ → σ → Prop) : Prog ε ρ α × σ → Prog ε ρ α × σ → Prop
  | own {e : ε} {k : ρ e → Prog ε ρ α} {s s' : σ} {r : ρ e} (hd : W.does t e s r s') :
      Along t others (.act e k, s) (k r, s')
  | other {p : Prog ε ρ α} {s s' : σ} (h : others s s') : Along t others (p, s) (p, s')

/-- A program as far as it came among `others`. -/
def Run (t : τ) (others : σ → σ → Prop) : Prog ε ρ α × σ → Prog ε ρ α × σ → Prop :=
  Relation.ReflTransGen (W.Along t others)

variable {W} in
/-- A program that runs alone is a run among any others. -/
theorem Solo.run {t : τ} {others : σ → σ → Prop} {p : Prog ε ρ α} {s s' : σ} {a : α}
    (h : W.Solo t p s a s') : W.Run t others (p, s) (.ret a, s') := by
  induction h with
  | ret a s => exact .refl
  | act hd _ ih => exact .head (.own hd) ih

variable {W} in
/-- The run of the first of two programs in sequence. -/
theorem Run.bind {t : τ} {others : σ → σ → Prop} {f : α → Prog ε ρ β} {p q : Prog ε ρ α} {s s' : σ}
    (h : W.Run t others (p, s) (q, s')) : W.Run t others (p >>= f, s) (q >>= f, s') := by
  generalize hc : (p, s) = c at h
  generalize hc' : (q, s') = c' at h
  induction h generalizing q s' with
  | refl =>
    subst hc
    obtain ⟨rfl, rfl⟩ := Prod.mk.inj hc'
    exact .refl
  | tail _ hstep ih =>
    subst hc'
    cases hstep with
    | own hd => exact .tail (ih rfl) (.own hd)
    | other h => exact .tail (ih rfl) (.other h)

variable {W} in
/-- What the actions of the program and the others keep. -/
theorem Run.invariant {t : τ} {others : σ → σ → Prop} {P : σ → Prop}
    (hown : ∀ e s r s', P s → W.does t e s r s' → P s') (hothers : ∀ s s', P s → others s s' → P s')
    {p q : Prog ε ρ α} {s s' : σ} (h : W.Run t others (p, s) (q, s')) (hs : P s) : P s' := by
  generalize hc : (p, s) = c at h
  generalize hc' : (q, s') = c' at h
  induction h generalizing q s' with
  | refl =>
    subst hc
    obtain ⟨rfl, rfl⟩ := Prod.mk.inj hc'
    exact hs
  | tail _ hstep ih =>
    subst hc'
    cases hstep with
    | own hd => exact hown _ _ _ _ (ih rfl) hd
    | other h => exact hothers _ _ (ih rfl) h

/-- The program comes from `s` to `s'` among the others, and goes on with the action `next` if one
    is named. -/
def Comes (t : τ) (others : σ → σ → Prop) (p : Prog ε ρ α) (s : σ) (next : Option ε) (s' : σ) :
    Prop :=
  ∃ q, W.Run t others (p, s) (q, s') ∧ ∀ e ∈ next, ∃ k, q = .act e k

namespace Comes

variable {W} {t : τ} {others : σ → σ → Prop} {s s₁ s' : σ} {next : Option ε}

theorem refl (p : Prog ε ρ α) : W.Comes t others p s none s := ⟨p, .refl, by simp⟩

theorem here {e : ε} {k : ρ e → Prog ε ρ α} : W.Comes t others (.act e k) s (some e) s := by
  refine ⟨_, .refl, fun e' he => ?_⟩
  obtain rfl := Option.some.inj he
  exact ⟨k, rfl⟩

theorem own {e : ε} {r : ρ e} {k : ρ e → Prog ε ρ α} (hd : W.does t e s r s₁)
    (h : W.Comes t others (k r) s₁ next s') : W.Comes t others (.act e k) s next s' := by
  obtain ⟨q, h, hnext⟩ := h
  exact ⟨q, .head (.own hd) h, hnext⟩

theorem other {p : Prog ε ρ α} (ho : others s s₁) (h : W.Comes t others p s₁ next s') :
    W.Comes t others p s next s' := by
  obtain ⟨q, h, hnext⟩ := h
  exact ⟨q, .head (.other ho) h, hnext⟩

theorem bind {p : Prog ε ρ α} {f : α → Prog ε ρ β} (h : W.Comes t others p s next s') :
    W.Comes t others (p >>= f) s next s' := by
  obtain ⟨q, h, hnext⟩ := h
  refine ⟨q >>= f, h.bind, fun e he => ?_⟩
  obtain ⟨k, rfl⟩ := hnext e he
  exact ⟨fun r => k r >>= f, rfl⟩

end Comes

variable [DecidableEq τ]

/-- An idle task makes a call, a task performs its next action, or a task crashes. -/
inductive Step (body : κ → Prog ε ρ Unit) : Config ε ρ σ τ → Config ε ρ σ τ → Prop
  | call {s : σ} {task : τ → Prog ε ρ Unit} {t : τ} (c : κ) (h : task t = .ret ()) :
      Step body ⟨s, task⟩ ⟨s, Function.update task t (body c)⟩
  | act {s s' : σ} {task : τ → Prog ε ρ Unit} {t : τ} {e : ε} {k : ρ e → Prog ε ρ Unit} {r : ρ e}
      (h : task t = .act e k) (hd : W.does t e s r s') :
      Step body ⟨s, task⟩ ⟨s', Function.update task t (k r)⟩
  | crash {s s' : σ} {task : τ → Prog ε ρ Unit} {t : τ} (hc : W.crash t s s') :
      Step body ⟨s, task⟩ ⟨s', Function.update task t (.ret ())⟩

/-- What any number of tasks that make calls reach from `s₀`. -/
def Reachable (body : κ → Prog ε ρ Unit) (s₀ : σ) : Config ε ρ σ τ → Prop :=
  Relation.ReflTransGen (W.Step body) ⟨s₀, fun _ => .ret ()⟩

variable {W} {body : κ → Prog ε ρ Unit} {s₀ : σ}

/-- The run of a program is a run of its task, where the others are what other tasks do. -/
theorem Run.steps {t : τ} {others : σ → σ → Prop} {task : τ → Prog ε ρ Unit}
    (hothers : ∀ s s', others s s' → ∀ task' : τ → Prog ε ρ Unit, (∀ u, u ≠ t → task' u = task u) →
      Relation.ReflTransGen (W.Step body) ⟨s, task'⟩ ⟨s', task'⟩)
    {p q : Prog ε ρ Unit} {s s' : σ} (h : W.Run t others (p, s) (q, s')) (ht : task t = p) :
    Relation.ReflTransGen (W.Step body) ⟨s, task⟩ ⟨s', Function.update task t q⟩ := by
  generalize hc : (p, s) = c at h
  generalize hc' : (q, s') = c' at h
  induction h generalizing q s' with
  | refl =>
    subst hc
    obtain ⟨rfl, rfl⟩ := Prod.mk.inj hc'
    rw [← ht, Function.update_eq_self]
  | tail _ hstep ih =>
    subst hc'
    cases hstep with
    | @own e k s₁ _ r hd =>
      have hact : W.Step body ⟨s₁, Function.update task t (.act e k)⟩
          ⟨s', Function.update (Function.update task t (.act e k)) t (k r)⟩ :=
        .act (Function.update_self ..) hd
      rw [Function.update_idem] at hact
      exact (ih rfl).tail hact
    | other h =>
      exact (ih rfl).trans (hothers _ _ h _ fun u hu => Function.update_of_ne hu _ _)

/-- A program that runs alone is a run of its task. -/
theorem Solo.steps {t : τ} {p : Prog ε ρ Unit} {s s' : σ} {a : Unit} (h : W.Solo t p s a s') :
    ∀ task : τ → Prog ε ρ Unit, task t = p →
      Relation.ReflTransGen (W.Step body) ⟨s, task⟩ ⟨s', Function.update task t (.ret ())⟩ := by
  intro task ht
  have hrun : W.Run t (fun _ _ => False) (p, s) (.ret a, s') := h.run
  exact hrun.steps (fun _ _ h => h.elim) ht

/-- A call that runs alone, when no other task is under way. -/
theorem Reachable.solo {t : τ} {s s' : σ} (c : κ)
    (h : W.Reachable body s₀ ⟨s, fun _ => .ret ()⟩) (hs : W.Solo t (body c) s () s') :
    W.Reachable body s₀ ⟨s', fun _ => .ret ()⟩ := by
  have hcall : W.Step body ⟨s, fun _ => .ret ()⟩
      ⟨s, Function.update (fun _ => .ret ()) t (body c)⟩ := .call c rfl
  have hrun : Relation.ReflTransGen (W.Step body) _ _ :=
    hs.steps (Function.update (fun _ => .ret ()) t (body c)) (Function.update_self ..)
  rw [Function.update_idem, Function.update_eq_self_iff.2 rfl] at hrun
  exact (h.tail hcall).trans hrun

end World

/-! ## Rely and guarantee -/

/-- An invariant of the shared state, and what each task relies on the others for. -/
structure World.Logic {ε : Type} {ρ : ε → Type} {σ τ : Type} (W : World ε ρ σ τ) where
  inv : σ → Prop
  rely : τ → σ → σ → Prop
  refl : ∀ t s, rely t s s
  trans : ∀ {t s s' s''}, rely t s s' → rely t s' s'' → rely t s s''
  crash : ∀ {t s s'}, inv s → W.crash t s s' → inv s' ∧ ∀ u, u ≠ t → rely u s s'

namespace World.Logic

variable {ε : Type} {ρ : ε → Type} {σ τ κ α β : Type} {W : World ε ρ σ τ} (L : W.Logic)

/-- Each action of the program keeps the invariant and what the others rely on; the program
    ends with `Q`. -/
def Safe (t : τ) (Q : α → σ → Prop) : Prog ε ρ α → σ → Prop
  | .ret a, s => Q a s
  | .act e k, s => ∀ s₁, L.rely t s s₁ → L.inv s₁ → ∀ r s₂, W.does t e s₁ r s₂ →
      (L.inv s₂ ∧ ∀ u, u ≠ t → L.rely u s₁ s₂) ∧ Safe t Q (k r) s₂

variable {L} {t : τ} {Q : α → σ → Prop}

/-- Safety outlives what the other tasks do. -/
theorem Safe.rely {p : Prog ε ρ α} {s s' : σ} (h : L.Safe t (fun _ _ => True) p s)
    (hr : L.rely t s s') : L.Safe t (fun _ _ => True) p s' := by
  cases p with
  | ret a => trivial
  | act e k => exact fun s₁ hr₁ => h s₁ (L.trans hr hr₁)

theorem Safe.mono {p : Prog ε ρ α} {Q' : α → σ → Prop} (hQ : ∀ a s, Q a s → Q' a s) :
    ∀ {s : σ}, L.Safe t Q p s → L.Safe t Q' p s := by
  induction p with
  | ret a => exact fun h => hQ a _ h
  | act e k ih =>
    intro s h s₁ hr hi r s₂ hd
    obtain ⟨hkeeps, hrest⟩ := h s₁ hr hi r s₂ hd
    exact ⟨hkeeps, ih r hrest⟩

/-- Programs in sequence. -/
theorem Safe.bind {p : Prog ε ρ α} {f : α → Prog ε ρ β} {Q' : β → σ → Prop}
    (hf : ∀ a s, Q a s → L.Safe t Q' (f a) s) :
    ∀ {s : σ}, L.Safe t Q p s → L.Safe t Q' (p >>= f) s := by
  induction p with
  | ret a => exact fun h => hf a _ h
  | act e k ih =>
    intro s h s₁ hr hi r s₂ hd
    obtain ⟨hkeeps, hrest⟩ := h s₁ hr hi r s₂ hd
    exact ⟨hkeeps, ih r hrest⟩

/-- A program that is safe among `others` keeps the invariant all along, and is safe in what is
    left of it. -/
theorem Safe.run {others : σ → σ → Prop} {p q : Prog ε ρ α} {s s' : σ}
    (hothers : ∀ s s', L.inv s → others s s' → L.inv s' ∧ L.rely t s s')
    (hQ : ∀ a s s', Q a s → L.rely t s s' → Q a s')
    (h : W.Run t others (p, s) (q, s')) (hi : L.inv s) (hp : L.Safe t Q p s) :
    L.inv s' ∧ L.Safe t Q q s' := by
  generalize hc : (p, s) = c at h
  generalize hc' : (q, s') = c' at h
  induction h generalizing q s' with
  | refl =>
    subst hc
    obtain ⟨rfl, rfl⟩ := Prod.mk.inj hc'
    exact ⟨hi, hp⟩
  | tail _ hstep ih =>
    subst hc'
    cases hstep with
    | @own e k s₁ _ r hd =>
      obtain ⟨hi₁, hsafe⟩ := ih rfl
      obtain ⟨⟨hi', -⟩, hrest⟩ := hsafe s₁ (L.refl t s₁) hi₁ r s' hd
      exact ⟨hi', hrest⟩
    | @other _ s₁ _ h =>
      obtain ⟨hi₁, hsafe⟩ := ih rfl
      obtain ⟨hi', hr⟩ := hothers s₁ s' hi₁ h
      refine ⟨hi', ?_⟩
      cases q with
      | ret a => exact hQ a s₁ s' hsafe hr
      | act e k => exact fun s₂ hr₂ => hsafe s₂ (L.trans hr hr₂)

/-- One task goes on with a safe program, the others see a step they rely on. -/
theorem safe_update [DecidableEq τ] {task : τ → Prog ε ρ Unit} {p : Prog ε ρ Unit} {s s' : σ}
    (h : ∀ u, L.Safe u (fun _ _ => True) (task u) s) (hp : L.Safe t (fun _ _ => True) p s')
    (hr : ∀ u, u ≠ t → L.rely u s s') (u : τ) :
    L.Safe u (fun _ _ => True) (Function.update task t p u) s' := by
  by_cases hu : u = t
  · subst hu
    rw [Function.update_self]
    exact hp
  · rw [Function.update_of_ne hu]
    exact (h u).rely (hr u hu)

/-- Calls that are safe wherever the invariant holds keep it, in every configuration that any
    number of tasks reach. -/
theorem reachable [DecidableEq τ] {body : κ → Prog ε ρ Unit} {s₀ : σ} (h₀ : L.inv s₀)
    (hb : ∀ c t s, L.inv s → L.Safe t (fun _ _ => True) (body c) s) {c : World.Config ε ρ σ τ}
    (h : W.Reachable body s₀ c) :
    L.inv c.shared ∧ ∀ t, L.Safe t (fun _ _ => True) (c.task t) c.shared := by
  induction h with
  | refl => exact ⟨h₀, fun _ => trivial⟩
  | tail _ hstep ih =>
    obtain ⟨hi, hsafe⟩ := ih
    cases hstep with
    | @call s task t c ht =>
      exact ⟨hi, safe_update hsafe (hb c t s hi) fun u _ => L.refl u s⟩
    | @act s s' task t e k r ht hd =>
      have hact := hsafe t
      dsimp only at hact
      rw [ht] at hact
      obtain ⟨⟨hi', hr⟩, hrest⟩ := hact s (L.refl t s) hi r s' hd
      exact ⟨hi', safe_update hsafe hrest hr⟩
    | @crash s s' task t hc =>
      obtain ⟨hi', hr⟩ := L.crash hi hc
      exact ⟨hi', safe_update hsafe trivial hr⟩

end World.Logic
