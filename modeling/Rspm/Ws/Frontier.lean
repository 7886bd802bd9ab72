/-
  The two loops that advance the durable frontier.

  `advanceDurable_spec`: an acknowledgement takes the frontier over the longest
  acknowledged stretch and removes it from the ledger.
  `catchUpFrontier_spec`: a catch-up covers every sequence it passes by the
  acknowledgements and the dropped ranges, and adds nothing to either.
-/
import Rspm.Ws.Recovery

namespace Rspm

namespace StateCell

theorem nextDurableSequence_cases (current : ℕ) :
    current < u64Max ∧ nextDurableSequence current = .ok (current + 1) ∨
      u64Max ≤ current ∧ nextDurableSequence current = .error .durableSequence := by
  unfold nextDurableSequence
  cases h : checkedAdd current 1 with
  | none => right; rw [checkedAdd_eq_none] at h; exact ⟨by omega, rfl⟩
  | some next =>
    left; rw [checkedAdd_eq_some] at h; obtain ⟨h1, rfl⟩ := h; exact ⟨by omega, rfl⟩

theorem nextDurableSequence_of_lt {current : ℕ} (h : current < u64Max) :
    nextDurableSequence current = .ok (current + 1) := by
  rcases nextDurableSequence_cases current with ⟨-, h'⟩ | ⟨h', -⟩
  · exact h'
  · omega

/-- The frontier never moves back, whatever the bounds. -/
theorem le_advanceDurable (transportSequence : ℕ) :
    ∀ (fuel durableSequence : ℕ) (outOfOrder : Finset ℕ),
      durableSequence ≤ (advanceDurable transportSequence fuel durableSequence outOfOrder).1 := by
  intro fuel
  induction fuel with
  | zero => intro _ _; exact le_rfl
  | succ fuel ih =>
    intro durableSequence outOfOrder
    unfold advanceDurable
    split_ifs with hlt
    · rcases nextDurableSequence_cases durableSequence with ⟨-, h⟩ | ⟨-, h⟩ <;> rw [h]
      · dsimp only
        split_ifs
        · exact (Nat.le_succ _).trans (ih _ _)
        · exact le_rfl
    · exact le_rfl

/-- With fuel for the whole distance and no counter overflow, the loop ends at the first
    sequence that is not acknowledged, or at the transport sequence. -/
theorem advanceDurable_spec {transportSequence : ℕ} (hT : transportSequence ≤ u64Max) :
    ∀ (fuel durableSequence : ℕ) (outOfOrder : Finset ℕ),
      durableSequence ≤ transportSequence → transportSequence - durableSequence ≤ fuel →
      ∃ n, advanceDurable transportSequence fuel durableSequence outOfOrder =
          (n, outOfOrder \ Finset.Ioc durableSequence n, false) ∧
        durableSequence ≤ n ∧ n ≤ transportSequence ∧
        Finset.Ioc durableSequence n ⊆ outOfOrder ∧
        (n = transportSequence ∨ n + 1 ∉ outOfOrder) := by
  intro fuel
  induction fuel with
  | zero =>
    intro d o hd hf
    have : d = transportSequence := by omega
    exact ⟨d, by simp [advanceDurable], le_rfl, hd, by simp, .inl this⟩
  | succ fuel ih =>
    intro d o hd hf
    unfold advanceDurable
    by_cases hlt : d < transportSequence
    · rw [if_pos hlt, nextDurableSequence_of_lt (by omega)]
      dsimp only
      by_cases hm : d + 1 ∈ o
      · rw [if_pos hm]
        obtain ⟨n, hn, hdn, hnT, hsub, hstop⟩ := ih (d + 1) (o.erase (d + 1)) hlt (by omega)
        refine ⟨n, ?_, by omega, hnT, ?_, ?_⟩
        · rw [hn]
          congr 2
          ext s
          simp only [Finset.mem_sdiff, Finset.mem_erase, Finset.mem_Ioc]
          by_cases hs : s ∈ o
          · simp only [hs, and_true, true_and]; omega
          · simp only [hs, and_false, false_and]
        · intro s hs
          rw [Finset.mem_Ioc] at hs
          by_cases he : s = d + 1
          · rwa [he]
          · exact Finset.mem_of_mem_erase (hsub (Finset.mem_Ioc.2 ⟨by omega, hs.2⟩))
        · rcases hstop with h | h
          · exact .inl h
          · refine .inr fun hin => h (Finset.mem_erase.2 ⟨by omega, hin⟩)
      · rw [if_neg hm]
        exact ⟨d, by simp, le_rfl, hd, by simp, .inr hm⟩
    · rw [if_neg hlt]
      exact ⟨d, by simp, le_rfl, hd, by simp, .inl (by omega)⟩

end StateCell

/-- The sequence lies in one of the ranges. -/
def Covered (ranges : List (ℕ × ℕ)) (sequence : ℕ) : Prop :=
  ∃ range ∈ ranges, range.1 ≤ sequence ∧ sequence ≤ range.2

theorem catchUpFrontier_spec {transportWatermark : ℕ} :
    ∀ (fuel : ℕ) {durableSequence n : ℕ} {acknowledged nextDurable : Finset ℕ}
      {dropped nextDropped : List (ℕ × ℕ)},
      catchUpFrontier transportWatermark fuel durableSequence acknowledged dropped =
        some (n, nextDurable, nextDropped) →
      durableSequence ≤ n ∧
        (∀ s, durableSequence < s → s ≤ n → s ∈ acknowledged ∨ Covered dropped s) ∧
        nextDurable ⊆ acknowledged ∧ nextDropped <:+ dropped := by
  intro fuel
  induction fuel with
  | zero =>
    intro d n o o' r r' h
    cases h
    exact ⟨le_rfl, fun s h1 h2 => by omega, subset_rfl, List.suffix_rfl⟩
  | succ fuel ih =>
    intro d n o o' r r' h
    unfold catchUpFrontier at h
    by_cases hge : d ≥ transportWatermark
    · rw [if_pos hge] at h
      cases h
      exact ⟨le_rfl, fun s h1 h2 => by omega, subset_rfl, List.suffix_rfl⟩
    rw [if_neg hge] at h
    rcases StateCell.nextDurableSequence_cases d with ⟨-, hn⟩ | ⟨-, hn⟩ <;> rw [hn] at h
    swap
    · cases h
    dsimp only at h
    by_cases hm : d + 1 ∈ o
    · rw [if_pos hm] at h
      obtain ⟨hle, hcov, hsub, hsuf⟩ := ih h
      refine ⟨by omega, fun s h1 h2 => ?_, hsub.trans (Finset.erase_subset _ _), hsuf⟩
      by_cases he : s = d + 1
      · exact .inl (he ▸ hm)
      · exact (hcov s (by omega) h2).imp_left Finset.mem_of_mem_erase
    rw [if_neg hm] at h
    rcases r with - | ⟨⟨first, last⟩, rest⟩
    · cases h
      exact ⟨le_rfl, fun s h1 h2 => by omega, subset_rfl, List.suffix_rfl⟩
    have hrest : ∀ {s}, Covered rest s → Covered ((first, last) :: rest) s :=
      fun ⟨range, hr, hb⟩ => ⟨range, List.mem_cons_of_mem _ hr, hb⟩
    dsimp only at h
    split_ifs at h with hlt hle
    · cases h
      exact ⟨le_rfl, fun s h1 h2 => by omega, subset_rfl, List.suffix_rfl⟩
    · obtain ⟨hn, hcov, hsub, hsuf⟩ := ih h
      refine ⟨by omega, fun s h1 h2 => ?_, hsub, hsuf.trans (List.suffix_cons _ _)⟩
      by_cases hs : s ≤ min last transportWatermark
      · exact .inr ⟨_, List.mem_cons_self, by dsimp only; omega, by dsimp only; omega⟩
      · exact (hcov s (by omega) h2).imp_right hrest
    · obtain ⟨hn, hcov, hsub, hsuf⟩ := ih h
      exact ⟨hn, fun s h1 h2 => (hcov s h1 h2).imp_right hrest, hsub,
        hsuf.trans (List.suffix_cons _ _)⟩

/-- Once the frontier is at the watermark the loop does nothing. -/
theorem catchUpFrontier_of_le {transportWatermark fuel durableSequence : ℕ}
    (h : transportWatermark ≤ durableSequence) (acknowledged : Finset ℕ)
    (dropped : List (ℕ × ℕ)) :
    catchUpFrontier transportWatermark fuel durableSequence acknowledged dropped =
      some (durableSequence, acknowledged, dropped) := by
  cases fuel with
  | zero => rfl
  | succ fuel => simp [catchUpFrontier, h]

/-- A watermark below `u64::MAX` keeps the loop from an exhausted counter. -/
theorem catchUpFrontier_ne_none {transportWatermark : ℕ} (hW : transportWatermark ≤ u64Max) :
    ∀ {fuel durableSequence : ℕ} {acknowledged : Finset ℕ} {dropped : List (ℕ × ℕ)},
      catchUpFrontier transportWatermark fuel durableSequence acknowledged dropped ≠ none := by
  intro fuel
  induction fuel with
  | zero => intro d o r h; cases h
  | succ fuel ih =>
    intro d o r
    unfold catchUpFrontier
    by_cases hge : d ≥ transportWatermark
    · rw [if_pos hge]; exact Option.some_ne_none _
    rw [if_neg hge, StateCell.nextDurableSequence_of_lt (by omega)]
    dsimp only
    by_cases hm : d + 1 ∈ o
    · rw [if_pos hm]; exact ih
    rw [if_neg hm]
    rcases r with - | ⟨⟨first, last⟩, rest⟩
    · exact Option.some_ne_none _
    dsimp only
    split_ifs
    · exact Option.some_ne_none _
    · exact ih
    · exact ih

/-- More fuel than `frontierFuel` changes nothing: the bound is never what ends the loop. -/
theorem catchUpFrontier_fuel {transportWatermark : ℕ} :
    ∀ (fuel : ℕ) (durableSequence : ℕ) (acknowledged : Finset ℕ) (dropped : List (ℕ × ℕ)),
      transportWatermark - durableSequence + dropped.length ≤ fuel →
      catchUpFrontier transportWatermark fuel durableSequence acknowledged dropped =
        catchUpFrontier transportWatermark (fuel + 1) durableSequence acknowledged dropped := by
  intro fuel
  induction fuel with
  | zero =>
    intro d o r hf
    rw [catchUpFrontier_of_le (by omega), catchUpFrontier_of_le (by omega)]
  | succ fuel ih =>
    intro d o r hf
    rw [catchUpFrontier]
    conv_rhs => rw [catchUpFrontier]
    by_cases hge : d ≥ transportWatermark
    · rw [if_pos hge, if_pos hge]
    rw [if_neg hge, if_neg hge]
    rcases StateCell.nextDurableSequence_cases d with ⟨-, hn⟩ | ⟨-, hn⟩ <;> rw [hn]
    dsimp only
    by_cases hm : d + 1 ∈ o
    · rw [if_pos hm, if_pos hm]; exact ih _ _ _ (by omega)
    rw [if_neg hm, if_neg hm]
    rcases r with - | ⟨⟨first, last⟩, rest⟩
    · rfl
    rw [List.length_cons] at hf
    dsimp only
    split_ifs with hlt hle
    · rfl
    · exact ih _ _ _ (by omega)
    · exact ih _ _ _ (by omega)

end Rspm
