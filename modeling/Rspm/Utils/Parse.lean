/-
  Token ids as text.

  Orders, books and subscriptions read a token id with `parse_token_id` of
  `utils`, the fee schedules with that of `fee_metadata`.  The second takes the
  canonical texts only; `token_ids_agree_iff` says on which texts the first does
  the same.
-/
import Rspm.Utils.Canonical
import Rspm.Clob.FeeMetadata

namespace Rspm

open Digits FeeMetadata

/-! ## The parser -/

inductive ParseTokenIdError where
  /-- unable to parse token_id -/
  | unparsable (s : String)
  /-- unable to parse token_id: token IDs are nonzero -/
  | zero (s : String)
deriving DecidableEq

/-- `utils::parse_token_id`. -/
def parseTokenId (fromStrRadix : String → Option U256) (s : String) :
    Except ParseTokenIdError U256 :=
  match fromStrRadix s with
  | none => .error (.unparsable s)
  | some v => if v = 0 then .error (.zero s) else .ok v

/-- The digits of a text without its separators. -/
def separated (s : String) : List Char := s.toList.filter (· ≠ '_')

/-- What `U256::from_str_radix` makes of a text at 10: the number of its digits, from the left,
    without the separators. -/
def FoldsDigits (fromStrRadix : String → Option U256) : Prop :=
  ∀ s : String, fromStrRadix s =
    if (separated s).all Char.isDigit ∧ value (separated s) < 2 ^ 256 then
      some (BitVec.ofNat 256 (value (separated s)))
    else none

/-- Without its separators the text has digits only, and they denote a token id. -/
def DenotesToken (s : String) : Prop :=
  (∀ c ∈ separated s, c.isDigit) ∧ 0 < value (separated s) ∧ value (separated s) < 2 ^ 256

/-! ## What is accepted -/

section

variable {fromStrRadix : String → Option U256} {s : String} {v : U256}

theorem toNat_pos_iff : 0 < v.toNat ↔ v ≠ 0 := by
  rw [Nat.pos_iff_ne_zero, ne_eq, ne_eq, not_congr]
  exact BitVec.toNat_inj (y := 0#256)

theorem fromStrRadix_eq_some (hradix : FoldsDigits fromStrRadix) :
    fromStrRadix s = some v ↔
      (∀ c ∈ separated s, c.isDigit) ∧ value (separated s) = v.toNat := by
  rw [hradix, ← List.all_eq_true]
  split_ifs with h
  · rw [Option.some.injEq, ← BitVec.toNat_inj, BitVec.toNat_ofNat, Nat.mod_eq_of_lt h.2]
    exact ⟨fun he => ⟨h.1, he⟩, And.right⟩
  · constructor
    · intro he
      cases he
    · rintro ⟨hdigits, hvalue⟩
      exact absurd ⟨hdigits, hvalue ▸ v.isLt⟩ h

/-- The parser of `utils` takes every text that denotes a token id. -/
theorem parseTokenId_eq_ok (hradix : FoldsDigits fromStrRadix) :
    parseTokenId fromStrRadix s = .ok v ↔
      (∀ c ∈ separated s, c.isDigit) ∧ value (separated s) = v.toNat ∧ v ≠ 0 := by
  rw [← and_assoc, ← fromStrRadix_eq_some hradix]
  unfold parseTokenId
  cases fromStrRadix s with
  | none => simp
  | some w =>
    by_cases hw : w = 0
    · simp only [hw, if_true]
      constructor
      · intro h
        cases h
      · rintro ⟨h, hv⟩
        exact absurd (Option.some.inj h).symm hv
    · simp only [hw, if_false, Except.ok.injEq, Option.some.injEq]
      constructor
      · rintro rfl
        exact ⟨rfl, hw⟩
      · exact And.left

/-- A rendering has no separators. -/
theorem separated_repr (n : ℕ) : separated n.repr = Nat.toDigits 10 n := by
  unfold separated
  rw [Nat.toList_repr, List.filter_eq_self]
  intro c hc
  rw [decide_eq_true_eq]
  rintro rfl
  exact Nat.underscore_not_in_toDigits hc

/-- The parser of `fee_metadata` takes the renderings of the token ids. -/
theorem feeMetadata_parseTokenId_eq_ok {readers : Readers}
    (hradix : FoldsDigits readers.fromStrRadix) :
    FeeMetadata.parseTokenId readers s = .ok v ↔ s = v.toNat.repr ∧ v ≠ 0 := by
  unfold FeeMetadata.parseTokenId
  by_cases hs : canonicalUnsignedIntegerText s = true
  · obtain ⟨n, rfl⟩ := canonicalUnsignedIntegerText_iff.1 hs
    have hzero : n.repr = "0" ↔ n = 0 := repr_inj (m := 0)
    rw [repr_inj, ← toNat_pos_iff]
    by_cases hn : n = 0
    · rw [if_pos (by rw [decide_eq_true (hzero.2 hn), Bool.or_true])]
      constructor
      · intro h
        cases h
      · rintro ⟨rfl, hpos⟩
        exact absurd hn hpos.ne'
    · rw [if_neg (by simp [hs, hzero, hn]), orError_eq_ok, fromStrRadix_eq_some hradix,
        separated_repr, value_toDigits]
      constructor
      · rintro ⟨-, rfl⟩
        exact ⟨rfl, Nat.pos_of_ne_zero hn⟩
      · rintro ⟨rfl, -⟩
        exact ⟨isDigit_toDigits, rfl⟩
  · rw [if_pos (by simp [hs])]
    constructor
    · intro h
      cases h
    · rintro ⟨rfl, -⟩
      exact absurd (canonicalUnsignedIntegerText_iff.2 ⟨_, rfl⟩) hs

end

/-- The two parsers agree on a text, and take it as the rendering of a token id only, if and only
    if it is canonical or denotes no token id. -/
theorem token_ids_agree_iff {readers : Readers} (hradix : FoldsDigits readers.fromStrRadix)
    (s : String) :
    (∀ v, (parseTokenId readers.fromStrRadix s = .ok v ↔
        FeeMetadata.parseTokenId readers s = .ok v) ∧
      (parseTokenId readers.fromStrRadix s = .ok v ↔ s = v.toNat.repr ∧ v ≠ 0)) ↔
      canonicalUnsignedIntegerText s = true ∨ ¬ DenotesToken s := by
  simp only [feeMetadata_parseTokenId_eq_ok hradix, parseTokenId_eq_ok hradix]
  constructor
  · intro h
    by_contra hnot
    rw [not_or, not_not] at hnot
    obtain ⟨hs, hdigits, hpos, hlt⟩ := hnot
    have hv : (BitVec.ofNat 256 (value (separated s))).toNat = value (separated s) := by
      rw [BitVec.toNat_ofNat, Nat.mod_eq_of_lt hlt]
    obtain ⟨he, -⟩ := (h (BitVec.ofNat 256 (value (separated s)))).2.1 ⟨hdigits, hv.symm, by
      rw [ne_eq, ← BitVec.toNat_inj, hv]
      exact hpos.ne'⟩
    exact hs (canonicalUnsignedIntegerText_iff.2 ⟨_, he⟩)
  · rintro (hs | hnot) v
    · obtain ⟨n, rfl⟩ := canonicalUnsignedIntegerText_iff.1 hs
      rw [separated_repr, value_toDigits, and_self]
      constructor
      · rintro ⟨-, rfl, hne⟩
        exact ⟨rfl, hne⟩
      · rintro ⟨he, hne⟩
        exact ⟨isDigit_toDigits, repr_inj.1 he, hne⟩
    · rw [and_self]
      refine iff_of_false ?_ ?_
      · rintro ⟨hdigits, hvalue, hne⟩
        exact hnot ⟨hdigits, hvalue ▸ toNat_pos_iff.2 hne, hvalue ▸ v.isLt⟩
      · rintro ⟨rfl, hne⟩
        refine hnot ⟨?_, ?_, ?_⟩
        · rw [separated_repr]
          exact isDigit_toDigits
        · rw [separated_repr, value_toDigits]
          exact toNat_pos_iff.2 hne
        · rw [separated_repr, value_toDigits]
          exact v.isLt

/-- `U256::from_str_radix` at 10. -/
def foldDigits (s : String) : Option U256 :=
  if (separated s).all Char.isDigit ∧ value (separated s) < 2 ^ 256 then
    some (BitVec.ofNat 256 (value (separated s)))
  else none

def tokenReaders : Readers where
  marketByToken _ := none
  clobMarket _ := none
  jsonString _ := none
  fromStrRadix := foldDigits
  fromStrExact _ := none

theorem foldsDigits_tokenReaders : FoldsDigits tokenReaders.fromStrRadix := fun _ => rfl

theorem token_ids_agree_iff_seven :
    (parseTokenId tokenReaders.fromStrRadix "7" = .ok 7 ↔
        FeeMetadata.parseTokenId tokenReaders "7" = .ok 7) ∧
      (parseTokenId tokenReaders.fromStrRadix "7" = .ok 7 ↔ "7" = (7 : U256).toNat.repr ∧
        (7 : U256) ≠ 0) :=
  (token_ids_agree_iff foldsDigits_tokenReaders "7").2 (.inl (by decide)) 7

/-- A text with zeros on the left names a token for the orders only. -/
theorem token_ids_not_agree :
    FoldsDigits tokenReaders.fromStrRadix ∧
      parseTokenId tokenReaders.fromStrRadix "007" = .ok 7 ∧
      FeeMetadata.parseTokenId tokenReaders "007" = .error .invalidToken ∧
      "007" ≠ (7 : U256).toNat.repr :=
  ⟨foldsDigits_tokenReaders, rfl, rfl, by decide⟩

end Rspm
