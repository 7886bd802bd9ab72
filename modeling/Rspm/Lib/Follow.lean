/-
  Programs that follow a monitor.

  A program follows a monitor if the monitor allows each of its actions,
  whatever the action answers.  Where a state shows how far the monitor has
  come with each task (`Tracks`), the tasks of a reachable configuration follow
  it from there (`Tracks.reachable`); what the allowed steps preserve is then
  an invariant (`Tracks.invariant`).  A loop follows a monitor if each of its
  turns does (`looping_follows`).
-/
import Rspm.Lib.Monitor
import Rspm.Lib.Prog

namespace Prog

variable {ε ε' : Type} {ρ : ε → Type} {ρ' : ε' → Type} {α β ω ω' : Type}

/-- `M` allows the actions of the program from `w` on, and `Q` holds where it ends. -/
def Follows (M : Monitor ω (Σ e, ρ e)) (Q : α → ω → Prop) : Prog ε ρ α → ω → Prop
  | .ret a, w => Q a w
  | .act e k, w => ∀ r, ∃ w', M.next w ⟨e, r⟩ = some w' ∧ Follows M Q (k r) w'

/-- The same program over other actions. -/
def lift (f : ε → ε') (g : ∀ e, ρ' (f e) → ρ e) : Prog ε ρ α → Prog ε' ρ' α
  | .ret a => .ret a
  | .act e k => .act (f e) fun r => (k (g e r)).lift f g

/-- All the actions of the program, whatever they answer. -/
def All (P : ε → Prop) : Prog ε ρ α → Prop
  | .ret _ => True
  | .act e k => P e ∧ ∀ r, (k r).All P

theorem All.bind {P : ε → Prop} {p : Prog ε ρ α} {f : α → Prog ε ρ β} (hp : p.All P)
    (hf : ∀ a, (f a).All P) : (p >>= f).All P := by
  induction p with
  | ret a => exact hf a
  | act e k ih => exact ⟨hp.1, fun r => ih r (hp.2 r)⟩

/-- Actions that leave the monitor where it is. -/
theorem All.follows {P : ε → Prop} {M : Monitor ω (Σ e, ρ e)} {w : ω} {p : Prog ε ρ α}
    (hM : ∀ e r, P e → M.next w ⟨e, r⟩ = some w) (hp : p.All P) :
    p.Follows M (fun _ w' => w' = w) w := by
  induction p with
  | ret a => rfl
  | act e k ih => exact fun r => ⟨w, hM e r hp.1, ih r (hp.2 r)⟩

namespace Follows

variable {M : Monitor ω (Σ e, ρ e)} {M' : Monitor ω' (Σ e, ρ' e)} {Q : α → ω → Prop}

theorem mono {Q' : α → ω → Prop} (hQ : ∀ a w, Q a w → Q' a w) {p : Prog ε ρ α} :
    ∀ {w : ω}, p.Follows M Q w → p.Follows M Q' w := by
  induction p with
  | ret a => exact fun h => hQ a _ h
  | act e k ih =>
    intro w h r
    obtain ⟨w', hnext, hrest⟩ := h r
    exact ⟨w', hnext, ih r hrest⟩

theorem bind {f : α → Prog ε ρ β} {Q' : β → ω → Prop} {p : Prog ε ρ α}
    (hf : ∀ a w, Q a w → (f a).Follows M Q' w) :
    ∀ {w : ω}, p.Follows M Q w → (p >>= f).Follows M Q' w := by
  induction p with
  | ret a => exact fun h => hf a _ h
  | act e k ih =>
    intro w h r
    obtain ⟨w', hnext, hrest⟩ := h r
    exact ⟨w', hnext, ih r hrest⟩

/-- A monitor that allows at least as much. -/
theorem lift {f : ε → ε'} {g : ∀ e, ρ' (f e) → ρ e} (emb : ω → ω')
    (hM : ∀ w e r w', M.next w ⟨e, g e r⟩ = some w' → M'.next (emb w) ⟨f e, r⟩ = some (emb w'))
    {p : Prog ε ρ α} : ∀ {w : ω}, p.Follows M Q w →
      (p.lift f g).Follows M' (fun a w' => ∃ w, w' = emb w ∧ Q a w) (emb w) := by
  induction p with
  | ret a => exact fun h => ⟨_, rfl, h⟩
  | act e k ih =>
    intro w h r
    obtain ⟨w', hnext, hrest⟩ := h (g e r)
    exact ⟨emb w', hM w e r w' hnext, ih _ hrest⟩

end Follows

end Prog

namespace World

variable {ε : Type} {ρ : ε → Type} {σ τ κ α ω : Type} {W : World ε ρ σ τ}
  {M : Monitor ω (Σ e, ρ e)}

/-- One program among others, where the state shows how far the monitor has come with it. -/
theorem follows_run {t : τ} {others : σ → σ → Prop} (view : σ → Option ω) {Q : α → ω → Prop}
    (hown : ∀ e s r s', W.does t e s r s' → view s' = (view s).bind (M.next · ⟨e, r⟩))
    (hothers : ∀ s s', others s s' → view s' = view s) {p q : Prog ε ρ α} {s s' : σ} {w : ω}
    (h : W.Run t others (p, s) (q, s')) (hw : view s = some w) (hp : p.Follows M Q w) :
    ∃ w', view s' = some w' ∧ q.Follows M Q w' := by
  generalize hc : (p, s) = c at h
  generalize hc' : (q, s') = c' at h
  induction h generalizing q s' with
  | refl =>
    subst hc
    obtain ⟨rfl, rfl⟩ := Prod.mk.inj hc'
    exact ⟨w, hw, hp⟩
  | tail _ hstep ih =>
    subst hc'
    cases hstep with
    | @own e k s₁ _ r hd =>
      obtain ⟨w₁, hw₁, hfollows⟩ := ih rfl
      obtain ⟨w', hnext, hrest⟩ := hfollows r
      refine ⟨w', ?_, hrest⟩
      rw [hown e s₁ r s' hd, hw₁]
      exact hnext
    | @other _ s₁ _ h =>
      obtain ⟨w₁, hw₁, hfollows⟩ := ih rfl
      exact ⟨w₁, (hothers s₁ s' h).trans hw₁, hfollows⟩

/-- A loop under way: the program of one turn, or the turn from where the last one ended. -/
inductive Looping (W : World ε ρ σ τ) (t : τ) (others : σ → σ → Prop)
    (body : κ → Prog ε ρ (Option κ)) :
    Prog ε ρ (Option κ) × σ → Prog ε ρ (Option κ) × σ → Prop
  | along {c c' : Prog ε ρ (Option κ) × σ} (h : W.Along t others c c') :
      Looping W t others body c c'
  | turn {k : κ} {s : σ} : Looping W t others body (.ret (some k), s) (body k, s)

/-- Turns that follow a monitor keep what its allowed actions and the others keep.  `Leads` says
    where the monitor stands before a turn, and where the loop ends. -/
theorem looping_leads {t : τ} {others : σ → σ → Prop} {body : κ → Prog ε ρ (Option κ)}
    {I : ω → σ → Prop} {Leads : Option κ → ω → Prop}
    (hbody : ∀ k w, Leads (some k) w → (body k).Follows M Leads w)
    (hown : ∀ w e s r s' w', I w s → W.does t e s r s' → M.next w ⟨e, r⟩ = some w' → I w' s')
    (hothers : ∀ w s s', I w s → others s s' → I w s') {k₀ : κ} {s₀ s : σ} {w₀ : ω}
    {p : Prog ε ρ (Option κ)} (hi : I w₀ s₀) (h₀ : Leads (some k₀) w₀)
    (h : Relation.ReflTransGen (W.Looping t others body) (.ret (some k₀), s₀) (p, s)) :
    ∃ w, I w s ∧ p.Follows M Leads w := by
  generalize hc : (p, s) = c at h
  induction h generalizing p s with
  | refl =>
    obtain ⟨rfl, rfl⟩ := Prod.mk.inj hc
    exact ⟨w₀, hi, h₀⟩
  | tail _ hstep ih =>
    subst hc
    cases hstep with
    | along halong =>
      cases halong with
      | @own e k s₁ _ r hd =>
        obtain ⟨w, hw, hfollows⟩ := ih rfl
        obtain ⟨w', hnext, hrest⟩ := hfollows r
        exact ⟨w', hown w e s₁ r s w' hw hd hnext, hrest⟩
      | @other _ s₁ _ ho =>
        obtain ⟨w, hw, hfollows⟩ := ih rfl
        exact ⟨w, hothers w s₁ s hw ho, hfollows⟩
    | @turn k =>
      obtain ⟨w, hw, hfollows⟩ := ih rfl
      exact ⟨w, hw, hbody k w hfollows⟩

/-- The same, where nothing is said of the end of the loop. -/
theorem looping_follows {t : τ} {others : σ → σ → Prop} {body : κ → Prog ε ρ (Option κ)}
    {I : ω → σ → Prop} {At : κ → ω → Prop}
    (hbody : ∀ k w, At k w →
      (body k).Follows M (fun next w' => ∀ k', next = some k' → At k' w') w)
    (hown : ∀ w e s r s' w', I w s → W.does t e s r s' → M.next w ⟨e, r⟩ = some w' → I w' s')
    (hothers : ∀ w s s', I w s → others s s' → I w s') {k₀ : κ} {s₀ s : σ} {w₀ : ω}
    {p : Prog ε ρ (Option κ)} (hi : I w₀ s₀) (h₀ : At k₀ w₀)
    (h : Relation.ReflTransGen (W.Looping t others body) (.ret (some k₀), s₀) (p, s)) :
    ∃ w, I w s ∧ p.Follows M (fun next w' => ∀ k', next = some k' → At k' w') w := by
  refine looping_leads (fun k w hk => hbody k w (hk k rfl)) hown hothers hi ?_ h
  intro k' hk'
  obtain rfl := Option.some.inj hk'
  exact h₀

/-- `view t s` is how far the monitor has come with the task `t`; a crash puts it back. -/
structure Tracks (W : World ε ρ σ τ) (M : Monitor ω (Σ e, ρ e)) (w₀ : ω)
    (view : τ → σ → Option ω) : Prop where
  does : ∀ {t e s r s'}, W.does t e s r s' →
    view t s' = (view t s).bind (M.next · ⟨e, r⟩) ∧ ∀ u, u ≠ t → view u s' = view u s
  crash : ∀ {t s s' w}, view t s = some w → W.crash t s s' →
    view t s' = some w₀ ∧ ∀ u, u ≠ t → view u s' = view u s

namespace Tracks

variable [DecidableEq τ] {w₀ : ω} {view : τ → σ → Option ω} {body : κ → Prog ε ρ Unit} {s₀ : σ}

/-- In a configuration every task follows the monitor, and ends where it began. -/
def Followed (M : Monitor ω (Σ e, ρ e)) (w₀ : ω) (view : τ → σ → Option ω)
    (c : Config ε ρ σ τ) : Prop :=
  ∀ t, ∃ w, view t c.shared = some w ∧ (c.task t).Follows M (fun _ w => w = w₀) w

/-- One task goes on, the others do not see it. -/
theorem Followed.update {s s' : σ} {task : τ → Prog ε ρ Unit} (h : Followed M w₀ view ⟨s, task⟩)
    {t : τ} {p : Prog ε ρ Unit} {w : ω} (hw : view t s' = some w)
    (hp : p.Follows M (fun _ w => w = w₀) w) (hothers : ∀ u, u ≠ t → view u s' = view u s) :
    Followed M w₀ view ⟨s', Function.update task t p⟩ := by
  intro u
  dsimp only
  by_cases hu : u = t
  · subst hu
    rw [Function.update_self]
    exact ⟨w, hw, hp⟩
  · rw [Function.update_of_ne hu]
    obtain ⟨w', hw', hfollows⟩ := h u
    exact ⟨w', (hothers u hu).trans hw', hfollows⟩

theorem step (hT : W.Tracks M w₀ view) (hb : ∀ c, (body c).Follows M (fun _ w => w = w₀) w₀)
    {c c' : Config ε ρ σ τ} (h : Followed M w₀ view c) (hs : W.Step body c c') :
    Followed M w₀ view c' := by
  cases hs with
  | @call s task t k ht =>
    obtain ⟨w, hw, hfollows⟩ := h t
    dsimp only at hfollows
    rw [ht] at hfollows
    obtain rfl : w = w₀ := hfollows
    exact h.update hw (hb k) fun _ _ => rfl
  | @act s s' task t e k r ht hd =>
    obtain ⟨hown, hothers⟩ := hT.does hd
    obtain ⟨w, hw, hfollows⟩ := h t
    dsimp only at hfollows hw
    rw [ht] at hfollows
    obtain ⟨w', hnext, hrest⟩ := hfollows r
    refine h.update ?_ hrest hothers
    rw [hown, hw]
    exact hnext
  | @crash s s' task t hc =>
    obtain ⟨w, hw, -⟩ := h t
    obtain ⟨hown, hothers⟩ := hT.crash hw hc
    exact h.update hown rfl hothers

theorem reachable (hT : W.Tracks M w₀ view) (h₀ : ∀ t, view t s₀ = some w₀)
    (hb : ∀ c, (body c).Follows M (fun _ w => w = w₀) w₀) {c : Config ε ρ σ τ}
    (h : W.Reachable body s₀ c) : Followed M w₀ view c := by
  induction h with
  | refl => exact fun t => ⟨w₀, h₀ t, rfl⟩
  | tail _ hs ih => exact hT.step hb ih hs

/-- What the allowed actions and the crashes preserve. -/
structure Preserves (W : World ε ρ σ τ) (M : Monitor ω (Σ e, ρ e)) (view : τ → σ → Option ω)
    (I : σ → Prop) : Prop where
  act : ∀ {t e s r s' w w'}, I s → view t s = some w → M.next w ⟨e, r⟩ = some w' →
    W.does t e s r s' → I s'
  crash : ∀ {t s s'}, I s → W.crash t s s' → I s'

omit [DecidableEq τ] in
/-- An action of a followed configuration is one that the monitor allows. -/
theorem allowed {c : Config ε ρ σ τ} (h : Followed M w₀ view c) {t : τ} {e : ε}
    {k : ρ e → Prog ε ρ Unit} (ht : c.task t = .act e k) (r : ρ e) :
    ∃ w w', view t c.shared = some w ∧ M.next w ⟨e, r⟩ = some w' := by
  obtain ⟨w, hw, hfollows⟩ := h t
  rw [ht] at hfollows
  obtain ⟨w', hnext, -⟩ := hfollows r
  exact ⟨w, w', hw, hnext⟩

theorem Preserves.step {I : σ → Prop} (hI : Preserves W M view I) {c c' : Config ε ρ σ τ}
    (h : Followed M w₀ view c) (hi : I c.shared) (hs : W.Step body c c') : I c'.shared := by
  cases hs with
  | call => exact hi
  | @act s s' task t e k r ht hd =>
    obtain ⟨w, w', hw, hnext⟩ := allowed h ht r
    exact hI.act hi hw hnext hd
  | crash hc => exact hI.crash hi hc

theorem invariant {I : σ → Prop} (hT : W.Tracks M w₀ view) (hI : Preserves W M view I)
    (h₀ : ∀ t, view t s₀ = some w₀) (hi : I s₀)
    (hb : ∀ c, (body c).Follows M (fun _ w => w = w₀) w₀) {c : Config ε ρ σ τ}
    (h : W.Reachable body s₀ c) : I c.shared := by
  induction h with
  | refl => exact hi
  | tail hr hs ih => exact hI.step (hT.reachable h₀ hb hr) ih hs

end Tracks

end World
