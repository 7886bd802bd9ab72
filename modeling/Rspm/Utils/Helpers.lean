/-
  Canonical numbers as text, and the bodies of responses.
-/
import Mathlib

namespace Rspm

/-! ## Text -/

/-- `canonical_unsigned_integer_text`, on the characters of the text. -/
def canonicalUnsignedInteger (value : List Char) : Bool :=
  !value.isEmpty && value.all Char.isDigit && (value.length = 1 || value.head? ≠ some '0')

def canonicalUnsignedIntegerText (value : String) : Bool := canonicalUnsignedInteger value.toList

/-- `canonical_nonnegative_decimal_text`, on what `split('.')` yields. -/
def canonicalNonnegativeDecimalText (value : String) : Bool :=
  match value.toList.splitOn '.' with
  | [whole] => canonicalUnsignedInteger whole
  | [whole, fraction] =>
    canonicalUnsignedInteger whole && (!fraction.isEmpty && fraction.all Char.isDigit)
  | _ => false

example : canonicalNonnegativeDecimalText "9007199254740993.123456" = true := by decide
example : canonicalNonnegativeDecimalText "1.2.3" = false := by decide

/-! ## Responses -/

/-- What the server answers.  A chunk that is `none` could not be read. -/
structure Response where
  success : Bool
  contentLength : Option ℕ
  chunks : List (Option (List UInt8))

namespace Response

/-- The loop over the chunks, with what has been read. -/
def readChunks (maxResponseBytes : ℕ) :
    List UInt8 → List (Option (List UInt8)) → Option (List UInt8)
  | body, [] => some body
  | _, none :: _ => none
  | body, some chunk :: chunks =>
    if body.length + chunk.length > maxResponseBytes then none
    else readChunks maxResponseBytes (body ++ chunk) chunks

/-- The body of a response, read up to a bound. -/
def readBody (maxResponseBytes : ℕ) (response : Response) : Option (List UInt8) :=
  if !response.success || response.contentLength.any (· > maxResponseBytes) then none
  else readChunks maxResponseBytes [] response.chunks

theorem readChunks_eq_some {maxResponseBytes : ℕ} {chunks : List (Option (List UInt8))} :
    ∀ {body read : List UInt8}, body.length ≤ maxResponseBytes →
      (readChunks maxResponseBytes body chunks = some read ↔
        ∃ parts : List (List UInt8), chunks = parts.map some ∧ read = body ++ parts.flatten ∧
          read.length ≤ maxResponseBytes) := by
  induction chunks with
  | nil =>
    intro body read hbody
    rw [readChunks]
    constructor
    · intro h
      obtain rfl := Option.some.inj h
      exact ⟨[], by simp, by simp, hbody⟩
    · rintro ⟨parts, hparts, rfl, -⟩
      obtain rfl := List.map_eq_nil_iff.1 hparts.symm
      simp
  | cons chunk chunks ih =>
    intro body read hbody
    cases chunk with
    | none =>
      rw [readChunks]
      constructor
      · intro h
        cases h
      · rintro ⟨parts, hparts, -⟩
        cases parts <;> simp at hparts
    | some chunk =>
      rw [readChunks]
      split_ifs with hfits
      · constructor
        · intro h
          cases h
        · rintro ⟨parts, hparts, rfl, hlength⟩
          cases parts with
          | nil => simp at hparts
          | cons part parts =>
            obtain ⟨hpart, -⟩ := List.cons.inj hparts
            obtain rfl := Option.some.inj hpart
            simp only [List.flatten_cons, List.length_append] at hlength
            omega
      · rw [ih (by rw [List.length_append]; omega)]
        constructor
        · rintro ⟨parts, rfl, rfl, hlength⟩
          exact ⟨chunk :: parts, by simp, by simp, hlength⟩
        · rintro ⟨parts, hparts, rfl, hlength⟩
          cases parts with
          | nil => simp at hparts
          | cons part parts =>
            obtain ⟨hpart, rfl⟩ := List.cons.inj hparts
            obtain rfl := Option.some.inj hpart
            exact ⟨parts, rfl, by simp, hlength⟩

/-- A body is read if the request succeeds and every chunk arrives, and the declared and the
    actual length are within the bound. -/
theorem readBody_eq_some {maxResponseBytes : ℕ} {response : Response} {body : List UInt8} :
    response.readBody maxResponseBytes = some body ↔
      response.success = true ∧ (∀ length ∈ response.contentLength, length ≤ maxResponseBytes) ∧
      (∃ parts : List (List UInt8), response.chunks = parts.map some ∧ body = parts.flatten) ∧
      body.length ≤ maxResponseBytes := by
  unfold readBody
  have hdeclared : response.contentLength.any (· > maxResponseBytes) = false ↔
      ∀ length ∈ response.contentLength, length ≤ maxResponseBytes := by
    cases response.contentLength <;> simp
  by_cases h : response.success = true ∧ response.contentLength.any (· > maxResponseBytes) = false
  · rw [if_neg (by simp [h.1, h.2]), readChunks_eq_some (Nat.zero_le _)]
    constructor
    · rintro ⟨parts, hchunks, hbody, hlength⟩
      exact ⟨h.1, hdeclared.1 h.2, ⟨parts, hchunks, by simpa using hbody⟩, hlength⟩
    · rintro ⟨-, -, ⟨parts, hchunks, rfl⟩, hlength⟩
      exact ⟨parts, hchunks, by simp, hlength⟩
  · rw [if_pos]
    · constructor
      · intro h
        cases h
      · rintro ⟨hsuccess, hlength, -⟩
        exact absurd ⟨hsuccess, hdeclared.2 hlength⟩ h
    · rw [not_and, Bool.not_eq_false] at h
      cases hs : response.success with
      | false => simp
      | true => simp [h hs]

end Response

end Rspm
