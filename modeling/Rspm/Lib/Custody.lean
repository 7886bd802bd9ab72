/-
  Linear custody: resources that stand in the lists of their owners.

  A live resource stands once in the list of one owner, and a resource that is
  not live stands nowhere (`Linear`).  This is kept when resources are made by
  one owner (`make`), passed from one owner to another (`pass`), and spent
  (`spend`).  A step of a system does one of these (`CustodyStep`), and a
  resource that an owner has after it came from the owner that may pass it.
-/
import Mathlib

namespace Rspm

variable {ο κ : Type} [DecidableEq κ] {own own' : ο → List κ} {live live' : κ → Prop} {a b o o' : ο}
  {k : κ} {l : List κ}

structure Linear (own : ο → List κ) (live : κ → Prop) : Prop where
  once : ∀ k, live k → ∃ o, (own o).count k = 1 ∧ ∀ o', o' ≠ o → (own o').count k = 0
  spent : ∀ k, ¬ live k → ∀ o, (own o).count k = 0

namespace Linear

theorem live_of_mem (h : Linear own live) (hk : k ∈ own o) : live k := by
  by_contra hn
  exact List.count_eq_zero.1 (h.spent k hn o) hk

theorem unique (h : Linear own live) (hk : k ∈ own o) (hk' : k ∈ own o') : o = o' := by
  obtain ⟨o₀, -, hothers⟩ := h.once k (h.live_of_mem hk)
  have heq : ∀ x, k ∈ own x → x = o₀ := by
    intro x hx
    by_contra hne
    exact List.count_eq_zero.1 (hothers x hne) hx
  rw [heq o hk, heq o' hk']

theorem exists_owner (h : Linear own live) (hk : live k) : ∃! o, k ∈ own o := by
  obtain ⟨o, hcount, -⟩ := h.once k hk
  have hm : k ∈ own o := List.count_pos_iff.1 (by omega)
  exact ⟨o, hm, fun o' hm' => h.unique hm' hm⟩

theorem nodup (h : Linear own live) (o : ο) : (own o).Nodup := by
  rw [List.nodup_iff_count_le_one]
  intro k
  by_cases hk : live k
  · obtain ⟨o₀, hcount, hothers⟩ := h.once k hk
    by_cases heq : o = o₀
    · rw [heq, hcount]
    · rw [hothers o heq]
      exact Nat.zero_le 1
  · rw [h.spent k hk o]
    exact Nat.zero_le 1

theorem congr (h : Linear own live) (hown : ∀ o, (own' o).Perm (own o))
    (hlive : ∀ k, live' k ↔ live k) : Linear own' live' := by
  constructor
  · intro k hk
    simpa only [(hown _).count_eq] using h.once k ((hlive k).1 hk)
  · intro k hk o
    rw [(hown o).count_eq]
    exact h.spent k (fun hl => hk ((hlive k).2 hl)) o

/-- `b` makes the resources `l`. -/
theorem make (h : Linear own live) (hl : l.Nodup) (hnew : ∀ k ∈ l, ¬ live k)
    (hb : (own' b).Perm (l ++ own b)) (hothers : ∀ o, o ≠ b → (own' o).Perm (own o))
    (hlive : ∀ k, live' k ↔ live k ∨ k ∈ l) : Linear own' live' := by
  have hcount : ∀ k, (own' b).count k = l.count k + (own b).count k := fun k => by
    rw [hb.count_eq, List.count_append]
  constructor
  · intro k hk
    by_cases hm : k ∈ l
    · refine ⟨b, ?_, fun o' ho' => ?_⟩
      · rw [hcount, List.count_eq_one_of_mem hl hm, h.spent k (hnew k hm) b]
      · rw [(hothers o' ho').count_eq, h.spent k (hnew k hm) o']
    · have hzero := List.count_eq_zero.2 hm
      have hsame : ∀ o, (own' o).count k = (own o).count k := by
        intro o
        by_cases ho : o = b
        · rw [ho, hcount, hzero, Nat.zero_add]
        · exact (hothers o ho).count_eq k
      simpa only [hsame] using h.once k (((hlive k).1 hk).resolve_right hm)
  · intro k hk o
    rw [hlive, not_or] at hk
    by_cases ho : o = b
    · rw [ho, hcount, List.count_eq_zero.2 hk.2, h.spent k hk.1 b]
    · rw [(hothers o ho).count_eq, h.spent k hk.1 o]

/-- `a` passes the resources `l` to `b`. -/
theorem pass (h : Linear own live) (hab : a ≠ b) (ha : (own a).Perm (l ++ own' a))
    (hb : (own' b).Perm (l ++ own b)) (hothers : ∀ o, o ≠ a → o ≠ b → (own' o).Perm (own o))
    (hlive : ∀ k, live' k ↔ live k) : Linear own' live' := by
  have hca : ∀ k, (own a).count k = l.count k + (own' a).count k := fun k => by
    rw [ha.count_eq, List.count_append]
  have hcb : ∀ k, (own' b).count k = l.count k + (own b).count k := fun k => by
    rw [hb.count_eq, List.count_append]
  have hzero : ∀ k, (∀ o, o ≠ a → (own o).count k = 0) → ∀ o, o ≠ a → o ≠ b →
      (own' o).count k = 0 := fun k hk o hoa hob => by
    rw [(hothers o hoa hob).count_eq, hk o hoa]
  constructor
  · intro k hk
    obtain ⟨o, hone, hrest⟩ := h.once k ((hlive k).1 hk)
    have hka := hca k
    have hkb := hcb k
    by_cases hoa : o = a
    · subst hoa
      have hb0 := hrest b hab.symm
      by_cases hm : l.count k = 0
      · refine ⟨o, by omega, fun o' ho' => ?_⟩
        by_cases hob : o' = b
        · rw [hob]
          omega
        · exact hzero k hrest o' ho' hob
      · refine ⟨b, by omega, fun o' ho' => ?_⟩
        by_cases hoa : o' = o
        · rw [hoa]
          omega
        · exact hzero k hrest o' hoa ho'
    · have ha0 := hrest a (Ne.symm hoa)
      have hsame : ∀ o', (own' o').count k = (own o').count k := by
        intro o'
        by_cases hoa' : o' = a
        · rw [hoa']
          omega
        · by_cases hob : o' = b
          · rw [hob]
            omega
          · exact (hothers o' hoa' hob).count_eq k
      simp only [hsame]
      exact ⟨o, hone, hrest⟩
  · intro k hk o
    have hspent := h.spent k fun hl => hk ((hlive k).2 hl)
    have hka := hca k
    have hkb := hcb k
    rw [hspent a] at hka
    by_cases hoa : o = a
    · rw [hoa]
      omega
    · by_cases hob : o = b
      · rw [hob, hkb, hspent b]
        omega
      · exact hzero k (fun o _ => hspent o) o hoa hob

/-- `a` spends the resources `l`. -/
theorem spend (h : Linear own live) (ha : (own a).Perm (l ++ own' a))
    (hothers : ∀ o, o ≠ a → (own' o).Perm (own o)) (hlive : ∀ k, live' k ↔ live k ∧ k ∉ l) :
    Linear own' live' := by
  have hca : ∀ k, (own a).count k = l.count k + (own' a).count k := fun k => by
    rw [ha.count_eq, List.count_append]
  constructor
  · intro k hk
    obtain ⟨hl, hm⟩ := (hlive k).1 hk
    have hsame : ∀ o, (own' o).count k = (own o).count k := by
      intro o
      by_cases ho : o = a
      · rw [ho, hca, List.count_eq_zero.2 hm, Nat.zero_add]
      · exact (hothers o ho).count_eq k
    simpa only [hsame] using h.once k hl
  · intro k hk o
    rw [hlive, not_and_or, not_not] at hk
    have hka := hca k
    by_cases hl : live k
    · have hm := hk.resolve_left (not_not.2 hl)
      have hka' : k ∈ own a := ha.mem_iff.2 (List.mem_append_left _ hm)
      have hpos := List.count_pos_iff.2 hm
      obtain ⟨o₀, hone, hrest⟩ := h.once k hl
      have hoa : o₀ = a := by
        by_contra hne
        exact List.count_eq_zero.1 (hrest a (Ne.symm hne)) hka'
      subst hoa
      by_cases ho : o = o₀
      · rw [ho]
        omega
      · rw [(hothers o ho).count_eq, hrest o ho]
    · have hspent := h.spent k hl
      rw [hspent a] at hka
      by_cases ho : o = a
      · rw [ho]
        omega
      · rw [(hothers o ho).count_eq, hspent o]

end Linear

/-- One step of custody.  `passes a b` says that `a` may pass resources to `b`. -/
inductive CustodyStep (passes : ο → ο → Prop) (own own' : ο → List κ) (live live' : κ → Prop) :
    Prop where
  | keep (hown : ∀ o, (own' o).Perm (own o)) (hlive : ∀ k, live' k ↔ live k)
  | make {b : ο} {l : List κ} (hl : l.Nodup) (hnew : ∀ k ∈ l, ¬ live k)
    (hb : (own' b).Perm (l ++ own b)) (hothers : ∀ o, o ≠ b → (own' o).Perm (own o))
    (hlive : ∀ k, live' k ↔ live k ∨ k ∈ l)
  | pass {a b : ο} {l : List κ} (hpasses : passes a b) (hab : a ≠ b)
    (ha : (own a).Perm (l ++ own' a)) (hb : (own' b).Perm (l ++ own b))
    (hothers : ∀ o, o ≠ a → o ≠ b → (own' o).Perm (own o)) (hlive : ∀ k, live' k ↔ live k)
  | spend {a : ο} {l : List κ} (ha : (own a).Perm (l ++ own' a))
    (hothers : ∀ o, o ≠ a → (own' o).Perm (own o)) (hlive : ∀ k, live' k ↔ live k ∧ k ∉ l)

variable {passes : ο → ο → Prop}

theorem Linear.step (h : Linear own live) (hs : CustodyStep passes own own' live live') :
    Linear own' live' := by
  cases hs with
  | keep hown hlive => exact h.congr hown hlive
  | make hl hnew hb hothers hlive => exact h.make hl hnew hb hothers hlive
  | pass hpasses hab ha hb hothers hlive => exact h.pass hab ha hb hothers hlive
  | spend ha hothers hlive => exact h.spend ha hothers hlive

omit [DecidableEq κ] in
/-- A resource that is owned was owned by the same owner, or is new, or was passed. -/
theorem CustodyStep.origin (hs : CustodyStep passes own own' live live') (hk : k ∈ own' o) :
    k ∈ own o ∨ ¬ live k ∨ ∃ a, passes a o ∧ k ∈ own a := by
  cases hs with
  | keep hown => exact .inl ((hown o).mem_iff.1 hk)
  | @make b l hl hnew hb hothers =>
    by_cases ho : o = b
    · subst ho
      rcases List.mem_append.1 (hb.mem_iff.1 hk) with hm | hm
      · exact .inr (.inl (hnew k hm))
      · exact .inl hm
    · exact .inl ((hothers o ho).mem_iff.1 hk)
  | @pass a b l hpasses hab ha hb hothers =>
    by_cases hb' : o = b
    · subst hb'
      rcases List.mem_append.1 (hb.mem_iff.1 hk) with hm | hm
      · exact .inr (.inr ⟨a, hpasses, ha.mem_iff.2 (List.mem_append_left _ hm)⟩)
      · exact .inl hm
    · by_cases ha' : o = a
      · subst ha'
        exact .inl (ha.mem_iff.2 (List.mem_append_right _ hk))
      · exact .inl ((hothers o ha' hb').mem_iff.1 hk)
  | @spend a l ha hothers =>
    by_cases ho : o = a
    · subst ho
      exact .inl (ha.mem_iff.2 (List.mem_append_right _ hk))
    · exact .inl ((hothers o ho).mem_iff.1 hk)

end Rspm
