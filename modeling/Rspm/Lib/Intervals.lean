/-
  The maximal intervals of a finite set of naturals.

  A maximal interval is known by where it starts, so there are as many of them
  as there are elements without a predecessor in the set (`ncard_maximalIntervals`).
-/
import Mathlib

namespace Intervals

/-- `[a, b]` lies in `s` and cannot be made longer. -/
structure IsMaximalInterval (s : Finset ℕ) (a b : ℕ) : Prop where
  le : a ≤ b
  subset : Finset.Icc a b ⊆ s
  left : ∀ m ∈ s, m + 1 ≠ a
  right : b + 1 ∉ s

def maximalIntervals (s : Finset ℕ) : Set (ℕ × ℕ) := {p | IsMaximalInterval s p.1 p.2}

/-- The elements without a predecessor. -/
def starts (s : Finset ℕ) : Finset ℕ := s.filter fun n => ∀ m ∈ s, m + 1 ≠ n

theorem mem_starts {s : Finset ℕ} {n : ℕ} : n ∈ starts s ↔ n ∈ s ∧ ∀ m ∈ s, m + 1 ≠ n :=
  Finset.mem_filter

theorem IsMaximalInterval.start_mem {s : Finset ℕ} {a b : ℕ} (h : IsMaximalInterval s a b) :
    a ∈ starts s :=
  mem_starts.2 ⟨h.subset (Finset.left_mem_Icc.2 h.le), h.left⟩

/-- Two maximal intervals with one start have one end. -/
theorem IsMaximalInterval.right_le {s : Finset ℕ} {a b c : ℕ} (h : IsMaximalInterval s a b)
    (h' : IsMaximalInterval s a c) : b ≤ c := by
  by_contra hlt
  have hle := h'.le
  exact h'.right (h.subset (Finset.mem_Icc.2 ⟨by omega, by omega⟩))

/-- From a start the set goes on without a gap up to a last element. -/
theorem exists_isMaximalInterval {s : Finset ℕ} {a : ℕ} (h : a ∈ starts s) :
    ∃ b, IsMaximalInterval s a b := by
  obtain ⟨ha, hleft⟩ := mem_starts.1 h
  have hstop : ∃ n, a + n ∉ s := by
    refine ⟨s.sup id + 1, fun hm => ?_⟩
    have hle : a + (s.sup id + 1) ≤ s.sup id := Finset.le_sup (f := id) hm
    omega
  classical
  have hpos : Nat.find hstop ≠ 0 := by
    intro hz
    have hspec := Nat.find_spec hstop
    rw [hz, Nat.add_zero] at hspec
    exact hspec ha
  refine ⟨a + (Nat.find hstop - 1), by omega, fun m hm => ?_, hleft, ?_⟩
  · rw [Finset.mem_Icc] at hm
    have hmin := Nat.find_min hstop (m := m - a) (by omega)
    rw [not_not] at hmin
    rwa [show a + (m - a) = m by omega] at hmin
  · have hspec := Nat.find_spec hstop
    rwa [show a + (Nat.find hstop - 1) + 1 = a + Nat.find hstop by omega]

theorem ncard_maximalIntervals (s : Finset ℕ) : (maximalIntervals s).ncard = (starts s).card := by
  have hinj : Set.InjOn Prod.fst (maximalIntervals s) := by
    rintro ⟨a, b⟩ h ⟨a', c⟩ h' he
    obtain rfl : a = a' := he
    have hend : b = c :=
      le_antisymm (IsMaximalInterval.right_le h h') (IsMaximalInterval.right_le h' h)
    rw [hend]
  have himage : Prod.fst '' maximalIntervals s = ↑(starts s) := by
    ext a
    constructor
    · rintro ⟨p, hp, rfl⟩
      exact IsMaximalInterval.start_mem hp
    · intro ha
      obtain ⟨b, hb⟩ := exists_isMaximalInterval ha
      exact ⟨(a, b), hb, rfl⟩
  rw [← Set.ncard_coe_finset, ← himage, hinj.ncard_image]

end Intervals
