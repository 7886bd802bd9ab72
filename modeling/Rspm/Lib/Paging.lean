/-
  Loops over the pages of a list.

  A pager fetches the page at an offset and adds it to what it holds; then it
  ends, fails, or goes on at the next offset, which is one page further and
  within a bound.  So it ends, and the offsets are evenly spaced (`run_offsets`);
  what holds of a run is shown turn by turn (`run_induction`).
-/
import Mathlib

namespace Paging

variable {ε σ : Type}

/-- A turn of the loop, and where it goes on. -/
structure Pager (ε σ : Type) where
  limit : ℕ
  maxOffset : ℕ
  turn : ℕ → σ → Except ε (σ × Option ℕ)
  limit_pos : 0 < limit
  next : ∀ {offset s s' next}, turn offset s = .ok (s', some next) →
    next = offset + limit ∧ next ≤ maxOffset

namespace Pager

variable (p : Pager ε σ)

/-- The offsets that are asked for, and the result. -/
def run (offset : ℕ) (s : σ) : List ℕ × Except ε σ :=
  match _h : p.turn offset s with
  | .error e => ([offset], .error e)
  | .ok (s', none) => ([offset], .ok s')
  | .ok (s', some next) =>
    let rest := run next s'
    (offset :: rest.1, rest.2)
termination_by p.maxOffset - offset
decreasing_by
  have hnext := p.next _h
  have := p.limit_pos
  omega

variable {p} {offset next : ℕ} {s s' : σ}

theorem run_of_error {e : ε} (h : p.turn offset s = .error e) :
    p.run offset s = ([offset], .error e) := by
  rw [run]
  split <;> simp_all

theorem run_of_last (h : p.turn offset s = .ok (s', none)) :
    p.run offset s = ([offset], .ok s') := by
  rw [run]
  split <;> simp_all

theorem run_of_next (h : p.turn offset s = .ok (s', some next)) :
    p.run offset s = (offset :: (p.run next s').1, (p.run next s').2) := by
  rw [run]
  split <;> simp_all

/-- What holds of a run: one case for each way a turn ends. -/
theorem run_induction {motive : ℕ → σ → List ℕ × Except ε σ → Prop}
    (error : ∀ offset s e, p.turn offset s = .error e → motive offset s ([offset], .error e))
    (last : ∀ offset s s', p.turn offset s = .ok (s', none) → motive offset s ([offset], .ok s'))
    (next : ∀ offset s s' next requests result, p.turn offset s = .ok (s', some next) →
      motive next s' (requests, result) → motive offset s (offset :: requests, result))
    (offset : ℕ) (s : σ) : motive offset s (p.run offset s) := by
  induction offset, s using run.induct (p := p) with
  | case1 offset s e h =>
    rw [run_of_error h]
    exact error offset s e h
  | case2 offset s s' h =>
    rw [run_of_last h]
    exact last offset s s' h
  | case3 offset s s' n h ih =>
    rw [run_of_next h]
    exact next offset s s' n _ _ h ih

/-- The offsets are a page apart, and all but the first within the bound. -/
theorem run_offsets (offset : ℕ) (s : σ) : ∃ n,
    (p.run offset s).1 = (List.range (n + 1)).map (fun i => offset + p.limit * i) ∧
      (n = 0 ∨ offset + p.limit * n ≤ p.maxOffset) := by
  induction offset, s using run_induction (p := p) with
  | error offset s e _ => exact ⟨0, by simp, .inl rfl⟩
  | last offset s s' _ => exact ⟨0, by simp, .inl rfl⟩
  | next offset s s' next requests result h ih =>
    obtain ⟨n, hrequests, hn⟩ := ih
    obtain ⟨rfl, hle⟩ := p.next h
    refine ⟨n + 1, ?_, .inr ?_⟩
    · rw [List.range_succ_eq_map, List.map_cons, List.map_map, Nat.mul_zero, Nat.add_zero]
      change requests = _ at hrequests
      rw [hrequests]
      refine congrArg _ (List.map_congr_left fun i _ => ?_)
      simp only [Function.comp_apply, Nat.succ_eq_add_one]
      ring
    · rw [show offset + p.limit * (n + 1) = offset + p.limit + p.limit * n by ring]
      rcases hn with rfl | hn
      · simpa using hle
      · exact hn

end Pager

end Paging
