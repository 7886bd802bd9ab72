/-
  Programs whose actions are programs of a finer world.

  `expand` puts a program of the finer actions in the place of each action.  A
  finer world refines a coarser one if the last step of such a program does what
  the action does, and the steps before it do nothing that the coarser world
  sees (`Refines`); what tasks reach in the finer world, they reach in the
  coarser one (`Refines.reachable`).

  A program that follows a monitor is safe in the finer world if the program of
  each allowed action is (`Safe.expand`).
-/
import Rspm.Lib.Follow

namespace Prog

variable {ε ε' : Type} {ρ : ε → Type} {ρ' : ε' → Type} {α ω ω' : Type}

/-- The program with a program in the place of each of its actions. -/
def expand (f : ∀ e, Prog ε' ρ' (ρ e)) : Prog ε ρ α → Prog ε' ρ' α
  | .ret a => .ret a
  | .act e k => f e >>= fun r => (k r).expand f

end Prog

namespace Monitor

variable {ω ω' ι : Type}

/-- Two monitors at once. -/
def both (M : Monitor ω ι) (N : Monitor ω' ι) : Monitor (ω × ω') ι where
  next w e := (M.next w.1 e).bind fun w₁ => (N.next w.2 e).map fun w₂ => (w₁, w₂)

theorem both_next {M : Monitor ω ι} {N : Monitor ω' ι} {w w' : ω × ω'} {e : ι} :
    (M.both N).next w e = some w' ↔ M.next w.1 e = some w'.1 ∧ N.next w.2 e = some w'.2 := by
  obtain ⟨w₁', w₂'⟩ := w'
  simp [both, Option.bind_eq_some_iff]

end Monitor

namespace Prog.Follows

variable {ε : Type} {ρ : ε → Type} {α ω ω' : Type} {M : Monitor ω (Σ e, ρ e)}
  {N : Monitor ω' (Σ e, ρ e)} {Q : α → ω → Prop} {R : α → ω' → Prop}

theorem both {p : Prog ε ρ α} : ∀ {w : ω} {v : ω'}, p.Follows M Q w → p.Follows N R v →
    p.Follows (M.both N) (fun a w => Q a w.1 ∧ R a w.2) (w, v) := by
  induction p with
  | ret a => exact fun hM hN => ⟨hM, hN⟩
  | act e k ih =>
    intro w v hM hN r
    obtain ⟨w', hw, hM⟩ := hM r
    obtain ⟨v', hv, hN⟩ := hN r
    exact ⟨(w', v'), Monitor.both_next.2 ⟨hw, hv⟩, ih r hM hN⟩

end Prog.Follows

namespace World

variable {ε ε' : Type} {ρ : ε → Type} {ρ' : ε' → Type} {σ σ' τ κ α : Type}

/-! ## Refinement -/

section

variable (V : World ε' ρ' σ' τ) (W : World ε ρ σ τ) (see : σ' → σ)

/-- The last step of the program does the action `e`; the steps before are not seen. -/
def Completes (t : τ) (e : ε) : Prog ε' ρ' (ρ e) → Prop
  | .ret _ => False
  | .act a k => ∀ s r s', V.does t a s r s' →
      (∃ x, k r = .ret x ∧ W.does t e (see s) x (see s')) ∨
      see s' = see s ∧ Completes t e (k r)

structure Refines (f : ∀ e, Prog ε' ρ' (ρ e)) : Prop where
  completes : ∀ t e, V.Completes W see t e (f e)
  crash : ∀ {t s s'}, V.crash t s s' → W.crash t (see s) (see s')

/-- What is left of a program in the finer world: the action that is under way, and the rest. -/
def Under (f : ∀ e, Prog ε' ρ' (ρ e)) (t : τ) (p : Prog ε' ρ' α) : Prog ε ρ α → Prop
  | .ret a => p = .ret a
  | .act e k => ∃ rest, V.Completes W see t e rest ∧ p = rest >>= fun r => (k r).expand f

end

namespace Refines

variable {V : World ε' ρ' σ' τ} {W : World ε ρ σ τ} {see : σ' → σ}
  {f : ∀ e, Prog ε' ρ' (ρ e)} {t : τ}

theorem under_expand (h : V.Refines W see f) (p : Prog ε ρ α) :
    V.Under W see f t (p.expand f) p := by
  cases p with
  | ret a => rfl
  | act e k => exact ⟨f e, h.completes t e, rfl⟩

/-- A program that has ended in the finer world has ended. -/
theorem under_ret {a : α} {p : Prog ε ρ α} (h : V.Under W see f t (.ret a) p) : p = .ret a := by
  cases p with
  | ret b =>
    cases h
    rfl
  | act e k =>
    obtain ⟨rest, hrest, heq⟩ := h
    cases rest with
    | ret x => exact hrest.elim
    | act a k' => cases heq

/-- A step of a program does its action, or is not seen. -/
theorem under_act (h : V.Refines W see f) {a : ε'} {k' : ρ' a → Prog ε' ρ' α} {p : Prog ε ρ α}
    (hp : V.Under W see f t (.act a k') p) {s s' : σ'} {r : ρ' a} (hd : V.does t a s r s') :
    (∃ e k x, p = .act e k ∧ W.does t e (see s) x (see s') ∧ V.Under W see f t (k' r) (k x)) ∨
    see s' = see s ∧ V.Under W see f t (k' r) p := by
  cases p with
  | ret b => cases hp
  | act e k =>
    obtain ⟨rest, hrest, heq⟩ := hp
    cases rest with
    | ret x => exact hrest.elim
    | act b k₀ =>
      cases heq
      rcases hrest s r s' hd with ⟨x, hx, hdoes⟩ | ⟨hsee, hrest⟩
      · refine .inl ⟨e, k, x, rfl, hdoes, ?_⟩
        dsimp only
        rw [hx]
        exact h.under_expand (k x)
      · exact .inr ⟨hsee, k₀ r, hrest, rfl⟩

variable [DecidableEq τ] {body : κ → Prog ε ρ Unit} {s₀ : σ'}

/-- One task goes on in both worlds. -/
theorem under_update {task' : τ → Prog ε' ρ' Unit} {task : τ → Prog ε ρ Unit}
    (h : ∀ u, V.Under W see f u (task' u) (task u)) {p' : Prog ε' ρ' Unit} {p : Prog ε ρ Unit}
    (hp : V.Under W see f t p' p) (u : τ) :
    V.Under W see f u (Function.update task' t p' u) (Function.update task t p u) := by
  by_cases hu : u = t
  · subst hu
    rw [Function.update_self, Function.update_self]
    exact hp
  · rw [Function.update_of_ne hu, Function.update_of_ne hu]
    exact h u

/-- What tasks reach in the finer world, they reach in the coarser one. -/
theorem reachable (h : V.Refines W see f) {c' : Config ε' ρ' σ' τ}
    (hr : V.Reachable (fun c => (body c).expand f) s₀ c') :
    ∃ c, W.Reachable body (see s₀) c ∧ c.shared = see c'.shared ∧
      ∀ t, V.Under W see f t (c'.task t) (c.task t) := by
  induction hr with
  | refl => exact ⟨⟨see s₀, fun _ => .ret ()⟩, .refl, rfl, fun _ => rfl⟩
  | tail _ hstep ih =>
    obtain ⟨⟨s, task⟩, hc, rfl, htask⟩ := ih
    cases hstep with
    | @call s' task' t call ht =>
      have hidle := htask t
      dsimp only at hidle
      rw [ht] at hidle
      exact ⟨_, hc.tail (.call call (under_ret hidle)), rfl, under_update htask (h.under_expand _)⟩
    | @act s' s₁ task' t a k' r ht hd =>
      have hunder := htask t
      dsimp only at hunder
      rw [ht] at hunder
      rcases h.under_act hunder hd with ⟨e, k, x, hp, hdoes, hrest⟩ | ⟨hsee, hrest⟩
      · exact ⟨_, hc.tail (.act hp hdoes), rfl, under_update htask hrest⟩
      · refine ⟨_, hc, hsee.symm, ?_⟩
        have hboth := under_update htask hrest
        rw [Function.update_eq_self] at hboth
        exact hboth
    | @crash s' s₁ task' t hcrash =>
      exact ⟨_, hc.tail (.crash (h.crash hcrash)), rfl, under_update htask rfl⟩

end Refines

/-! ## Safety -/

/-- A program that follows a monitor, where the program of each allowed action is safe and keeps
    what belongs to the state of the monitor. -/
theorem Logic.Safe.expand {V : World ε' ρ' σ' τ} {L : V.Logic} {t : τ} {ω : Type}
    {M : Monitor ω (Σ e, ρ e)} {f : ∀ e, Prog ε' ρ' (ρ e)} {H : ω → σ' → Prop}
    (hact : ∀ w e s, (∀ r, ∃ w', M.next w ⟨e, r⟩ = some w') → H w s →
      L.Safe t (fun r s' => ∀ w', M.next w ⟨e, r⟩ = some w' → H w' s') (f e) s)
    {Q : α → ω → Prop} {p : Prog ε ρ α} :
    ∀ {w : ω} {s : σ'}, p.Follows M Q w → H w s →
      L.Safe t (fun a s' => ∃ w', Q a w' ∧ H w' s') (p.expand f) s := by
  induction p with
  | ret a => exact fun hp h => ⟨_, hp, h⟩
  | act e k ih =>
    intro w s hp h
    have hallowed : ∀ r, ∃ w', M.next w ⟨e, r⟩ = some w' := fun r => (hp r).imp fun _ => And.left
    refine Logic.Safe.bind (fun r s' hkept => ?_) (hact w e s hallowed h)
    obtain ⟨w', hnext, hrest⟩ := hp r
    exact ih r hrest (hkept w' hnext)

end World
