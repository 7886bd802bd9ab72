/-
  The schedule of the backoff.

  `backoffFor` doubles the base with every attempt, up to the maximum, in
  arithmetic that saturates twice: at the factor, and at the product.  Only the
  first can be seen, and only where the greatest factor does not reach the
  maximum (`backoff_exact_iff`).
-/
import Rspm.Clob.Retry

namespace Rspm

namespace RetryPolicy

variable {policy : RetryPolicy} {attempt later : ℕ}

/-- The documented delay: the base, doubled with every attempt, up to the maximum. -/
def exactBackoff (policy : RetryPolicy) (attempt : ℕ) : ℕ :=
  min (policy.baseBackoff * 2 ^ (attempt - 1)) policy.maxBackoff

/-- The saturated product is above the maximum. -/
theorem backoffFor_eq (hmax : policy.maxBackoff ≤ Duration.maximum) :
    policy.backoffFor attempt none =
      min (policy.baseBackoff * min (2 ^ (attempt - 1)) u32Max) policy.maxBackoff := by
  change min (min (policy.baseBackoff * min (2 ^ (attempt - 1)) u32Max) Duration.maximum)
    policy.maxBackoff = _
  rw [min_assoc, min_eq_right hmax]

theorem backoffFor_mono (hmax : policy.maxBackoff ≤ Duration.maximum) (h : attempt ≤ later) :
    policy.backoffFor attempt none ≤ policy.backoffFor later none := by
  rw [backoffFor_eq hmax, backoffFor_eq hmax]
  have hpow : 2 ^ (attempt - 1) ≤ 2 ^ (later - 1) :=
    Nat.pow_le_pow_right (by decide) (Nat.sub_le_sub_right h 1)
  gcongr

/-- From the 33rd attempt on the factor is saturated. -/
theorem saturates_iff : u32Max < 2 ^ (attempt - 1) ↔ 32 < attempt := by
  constructor
  · intro h
    by_contra hle
    have hpow : 2 ^ (attempt - 1) ≤ 2 ^ 31 := Nat.pow_le_pow_right (by decide) (by omega)
    unfold u32Max at h
    omega
  · intro h
    have hpow : 2 ^ 32 ≤ 2 ^ (attempt - 1) := Nat.pow_le_pow_right (by decide) (by omega)
    unfold u32Max
    omega

/-- The delay is the documented one, unless the factor is saturated and its product with the base
    stays below the maximum. -/
theorem backoffFor_eq_exact_iff (hmax : policy.maxBackoff ≤ Duration.maximum) :
    policy.backoffFor attempt none = policy.exactBackoff attempt ↔
      attempt ≤ 32 ∨ policy.baseBackoff = 0 ∨
        policy.maxBackoff ≤ policy.baseBackoff * u32Max := by
  rw [backoffFor_eq hmax]
  unfold exactBackoff
  by_cases hattempt : attempt ≤ 32
  · have hfactor : 2 ^ (attempt - 1) ≤ u32Max := by
      rw [← not_lt, saturates_iff]
      exact not_lt.2 hattempt
    rw [min_eq_left hfactor]
    exact iff_of_true rfl (.inl hattempt)
  · have hfactor : u32Max < 2 ^ (attempt - 1) := saturates_iff.2 (not_le.1 hattempt)
    rw [min_eq_right hfactor.le]
    constructor
    · intro h
      refine .inr ?_
      by_contra hnot
      rw [not_or, not_le] at hnot
      obtain ⟨hbase, hlt⟩ := hnot
      have hgrows : policy.baseBackoff * u32Max < policy.baseBackoff * 2 ^ (attempt - 1) :=
        Nat.mul_lt_mul_of_pos_left hfactor (Nat.pos_of_ne_zero hbase)
      have hless : policy.baseBackoff * u32Max <
          min (policy.baseBackoff * 2 ^ (attempt - 1)) policy.maxBackoff := lt_min hgrows hlt
      rw [min_eq_left hlt.le] at h
      exact hless.ne h
    · rintro (h | hbase | hle)
      · exact absurd h hattempt
      · rw [hbase, Nat.zero_mul, Nat.zero_mul]
      · have hle' : policy.maxBackoff ≤ policy.baseBackoff * 2 ^ (attempt - 1) :=
          hle.trans (Nat.mul_le_mul_left _ hfactor.le)
        rw [min_eq_right hle, min_eq_right hle']

/-- The backoff follows its documented schedule at an attempt: it has the exact delay, no later
    delay is shorter, and it is the maximum once the doubled base reaches that. -/
def FollowsSchedule (policy : RetryPolicy) (attempt : ℕ) : Prop :=
  policy.backoffFor attempt none = policy.exactBackoff attempt ∧
  (∀ later, attempt ≤ later → policy.backoffFor attempt none ≤ policy.backoffFor later none) ∧
  (0 < policy.baseBackoff → policy.maxBackoff ≤ policy.baseBackoff * 2 ^ (attempt - 1) →
    policy.backoffFor attempt none = policy.maxBackoff)

/-- The backoff follows its schedule unless the factor is saturated, the base is positive and its
    product with the greatest factor stays below the maximum. -/
theorem backoff_exact_iff (hmax : policy.maxBackoff ≤ Duration.maximum) (attempt : ℕ) :
    policy.FollowsSchedule attempt ↔
      attempt ≤ 32 ∨ policy.baseBackoff = 0 ∨
        policy.maxBackoff ≤ policy.baseBackoff * u32Max := by
  rw [← backoffFor_eq_exact_iff hmax]
  constructor
  · exact And.left
  · intro hexact
    refine ⟨hexact, fun later h => backoffFor_mono hmax h, ?_⟩
    intro _ hreaches
    rw [hexact, exactBackoff, min_eq_right hreaches]

/-- The default policy follows its schedule at attempts with a saturated factor. -/
theorem backoff_exact_iff_default : default.FollowsSchedule 40 := by
  have hmax : default.maxBackoff ≤ Duration.maximum := by decide
  exact (backoff_exact_iff hmax 40).2 (.inr (.inr (by decide)))

/-- With a base of one nanosecond and a maximum of five seconds, the 34th delay is short of the
    maximum. -/
theorem backoff_not_exact :
    (⟨64, 1, .fromSecs 5⟩ : RetryPolicy).maxBackoff ≤ Duration.maximum ∧
      (⟨64, 1, .fromSecs 5⟩ : RetryPolicy).backoffFor 34 none = 4294967295 ∧
      (⟨64, 1, .fromSecs 5⟩ : RetryPolicy).exactBackoff 34 = Duration.fromSecs 5 := by
  decide

end RetryPolicy

end Rspm
