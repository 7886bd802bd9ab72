/-
  The two serde implementations of `CanonicalU256`.

  `Serialize` is derived, and writes the wrapped integer as its package does, in
  hexadecimal; `Deserialize` and `FromStr` are written by hand, and read canonical
  decimals.  `never_round_trips`: what one writes the other refuses.
-/
import Rspm.Utils.Canonical
import Rspm.Auth.Balance

namespace Rspm

open Serde

namespace CanonicalU256

/-- `from_str`, with the text of its error `U256ParseError`. -/
def fromStr (u256 : String → Option U256) (s : String) : Except String U256 :=
  if !canonicalUnsignedIntegerText s then .error s
  else
    match u256 s with
    | some value => .ok value
    | none => .error s

/-- The derived `Serialize`, which is transparent. -/
def serialize (serializeU256 : U256 → Json) (x : U256) : Json := serializeU256 x

/-- How the wrapped integer is written: a minimal hexadecimal quantity. -/
def SerializesHex (serializeU256 : U256 → Json) : Prop :=
  ∀ x, serializeU256 x = .string ("0x" ++ String.ofList (Nat.toDigits 16 x.toNat))

variable {sdk : Balance.Sdk} {serializeU256 : U256 → Json}

/-- `Deserialize` takes the texts that `FromStr` takes. -/
theorem deserialize_string (text : String) :
    Balance.canonicalU256 sdk (.string text) = (fromStr sdk.u256 text).toOption := by
  have heq : Balance.canonicalU256 sdk (.string text) =
      if !canonicalUnsignedIntegerText text then none else sdk.u256 text := rfl
  rw [heq, fromStr]
  split_ifs
  · rfl
  · cases sdk.u256 text <;> rfl

theorem canonicalU256_string {text : String} {x : U256}
    (h : Balance.canonicalU256 sdk (.string text) = some x) :
    canonicalUnsignedIntegerText text = true := by
  rw [deserialize_string, fromStr] at h
  split_ifs at h with hc
  · cases h
  · simpa using hc

/-- A hexadecimal quantity is no canonical decimal. -/
theorem hex_not_canonical (digits : List Char) :
    canonicalUnsignedIntegerText ("0x" ++ String.ofList digits) = false := by
  rw [← Bool.not_eq_true, canonicalUnsignedIntegerText, canonicalUnsignedInteger_iff]
  rintro ⟨-, hdigits, -⟩
  have hx := hdigits 'x' (by simp)
  simp at hx

/-- What is serialized is not deserialized, and a text that is deserialized is not what its number
    is serialized to. -/
theorem never_round_trips (hhex : SerializesHex serializeU256) :
    (∀ x, Balance.canonicalU256 sdk (serialize serializeU256 x) = none) ∧
    ∀ text x, Balance.canonicalU256 sdk (.string text) = some x →
      serialize serializeU256 x ≠ .string text := by
  have hwritten : ∀ x, serialize serializeU256 x =
      .string ("0x" ++ String.ofList (Nat.toDigits 16 x.toNat)) := hhex
  refine ⟨?_, ?_⟩
  · intro x
    rw [hwritten, deserialize_string, fromStr, hex_not_canonical]
    rfl
  · intro text x h hsame
    have hcanonical := canonicalU256_string h
    rw [hwritten] at hsame
    obtain rfl := Json.string.inj hsame
    rw [hex_not_canonical] at hcanonical
    cases hcanonical

def serializeHex (x : U256) : Json :=
  .string ("0x" ++ String.ofList (Nat.toDigits 16 x.toNat))

theorem never_round_trips_seven :
    Balance.canonicalU256 Balance.sampleSdk (serialize serializeHex 7) = none ∧
      serialize serializeHex 7 ≠ .string "7" := by
  obtain ⟨hrefused, hchanged⟩ := @never_round_trips Balance.sampleSdk serializeHex
    fun _ => rfl
  exact ⟨hrefused 7, hchanged "7" 7 rfl⟩

/-- `7` is written as `0x7`, which is refused, and read from `7`. -/
theorem not_round_trip :
    serialize serializeHex 7 = .string "0x7" ∧
      Balance.canonicalU256 Balance.sampleSdk (.string "0x7") = none ∧
      Balance.canonicalU256 Balance.sampleSdk (.string "7") = some 7 :=
  ⟨rfl, rfl, rfl⟩

end CanonicalU256

end Rspm
