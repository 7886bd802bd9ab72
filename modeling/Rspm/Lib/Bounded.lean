/-
  Exact products within a bound.
-/
import Mathlib

namespace Bounded

/-- What can be represented: one, and with a number those between it and zero. -/
structure Bound (R : Type) [Zero R] [One R] [LE R] where
  Within : R → Prop
  one : Within 1
  lower : ∀ {a b}, 0 ≤ a → a ≤ b → Within b → Within a

variable {R : Type} [Semiring R] [PartialOrder R] (bound : Bound R)

/-- The smaller powers of a number that is not below one are within the bound if a power is. -/
theorem Bound.pow_le [IsOrderedRing R] {x : R} {i e : ℕ} (hx : 1 ≤ x) (hi : i ≤ e)
    (h : bound.Within (x ^ e)) : bound.Within (x ^ i) :=
  bound.lower (pow_nonneg (zero_le_one.trans hx) i) (pow_le_pow_right₀ hx hi) h

/-- A number within the bound. -/
abbrev Value := { a : R // bound.Within a }

/-- The product, if it is within the bound. -/
def checkedMul [DecidablePred bound.Within] (a b : Value bound) : Option (Value bound) :=
  if h : bound.Within (a.val * b.val) then some ⟨a.val * b.val, h⟩ else none

variable {bound} [DecidablePred bound.Within] {a b c : Value bound}

theorem checkedMul_eq_some (h : checkedMul bound a b = some c) : c.val = a.val * b.val := by
  unfold checkedMul at h
  split_ifs at h
  obtain rfl := Option.some.inj h
  rfl

theorem checkedMul_of_within (h : bound.Within (a.val * b.val)) :
    checkedMul bound a b = some ⟨a.val * b.val, h⟩ :=
  dif_pos h

end Bounded
