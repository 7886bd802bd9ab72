/-
  The format `application/x-www-form-urlencoded`: pairs of byte strings as text.

  How the bytes of a name or of a value are written is a parameter: as characters
  that are no separators, and that read as the bytes (`IsEncoding`).  `append`
  writes one more pair.  What was written reads as the pairs, in their order
  (`parse_serialize`).  `byteSerialize` is such a way of writing.
-/
import Rspm.Lib.Hex

namespace FormUrlEncoded

/-! ## Reading -/

/-- The value of a digit, of either case. -/
def hexValue (c : Char) : Option ℕ :=
  if c.isDigit then some (c.toNat - '0'.toNat)
  else if 'a' ≤ c ∧ c ≤ 'f' then some (c.toNat - 'a'.toNat + 10)
  else if 'A' ≤ c ∧ c ≤ 'F' then some (c.toNat - 'A'.toNat + 10)
  else none

/-- The bytes of a name or of a value; a `%` without two digits stands for itself. -/
def decode : List Char → List UInt8
  | [] => []
  | '%' :: high :: low :: rest =>
    match hexValue high, hexValue low with
    | some h, some l => UInt8.ofNat (16 * h + l) :: decode rest
    | _, _ => '%'.toUInt8 :: decode (high :: low :: rest)
  | '+' :: rest => 32 :: decode rest
  | c :: rest => c.toUInt8 :: decode rest

def parsePair (part : List Char) : List UInt8 × List UInt8 :=
  (decode (part.takeWhile (· ≠ '=')), decode ((part.dropWhile (· ≠ '=')).drop 1))

def parse (text : List Char) : List (List UInt8 × List UInt8) :=
  ((text.splitOn '&').filter fun part => !part.isEmpty).map parsePair

/-! ## Writing -/

/-- The characters that stand for themselves. -/
def unreserved (c : Char) : Bool := c.isAlphanum || c = '*' || c = '-' || c = '.' || c = '_'

/-- A way to write bytes: unreserved characters, plus signs and escapes that read as the bytes. -/
structure IsEncoding (encode : List UInt8 → List Char) : Prop where
  decode_encode : ∀ bytes, decode (encode bytes) = bytes
  chars : ∀ bytes, ∀ c ∈ encode bytes, unreserved c = true ∨ c = '+' ∨ c = '%'

section

variable (encode : List UInt8 → List Char)

def pairText (pair : List UInt8 × List UInt8) : List Char :=
  encode pair.1 ++ '=' :: encode pair.2

/-- `append_pair`. -/
def append (text : List Char) (pair : List UInt8 × List UInt8) : List Char :=
  (if text.isEmpty then text else text ++ ['&']) ++ pairText encode pair

def serialize (pairs : List (List UInt8 × List UInt8)) : List Char := pairs.foldl (append encode) []

end

/-! ## What is written is read back -/

theorem unreserved_ne {c : Char} (h : unreserved c = true) :
    c ≠ '%' ∧ c ≠ '+' ∧ c ≠ '&' ∧ c ≠ '=' := by
  refine ⟨?_, ?_, ?_, ?_⟩ <;>
  · rintro rfl
    revert h
    decide

/-- The characters of a text: the unreserved ones, escapes and separators. -/
def textChar (c : Char) : Bool := unreserved c || c = '+' || c = '%' || c = '&' || c = '='

section

variable {encode : List UInt8 → List Char} (hencode : IsEncoding encode)
include hencode

/-- What is written has no separators. -/
theorem IsEncoding.notMem (bytes : List UInt8) : '&' ∉ encode bytes ∧ '=' ∉ encode bytes := by
  constructor
  · intro h
    exact absurd (hencode.chars bytes _ h) (by decide)
  · intro h
    exact absurd (hencode.chars bytes _ h) (by decide)

theorem IsEncoding.textChar {bytes : List UInt8} : ∀ c ∈ encode bytes, textChar c = true := by
  intro c hc
  rw [FormUrlEncoded.textChar]
  rcases hencode.chars bytes c hc with h | rfl | rfl
  · rw [h]
    rfl
  · rfl
  · rfl

theorem parsePair_pairText (pair : List UInt8 × List UInt8) :
    parsePair (pairText encode pair) = pair := by
  have hname : ∀ c ∈ encode pair.1, decide (c ≠ '=') = true := by
    intro c hc
    rw [decide_eq_true_eq]
    rintro rfl
    exact (hencode.notMem pair.1).2 hc
  have htake : (pairText encode pair).takeWhile (· ≠ '=') = encode pair.1 := by
    rw [pairText, List.takeWhile_append_of_pos hname]
    simp
  have hdrop : (pairText encode pair).dropWhile (· ≠ '=') = '=' :: encode pair.2 := by
    rw [pairText, List.dropWhile_append_of_pos hname]
    simp
  rw [parsePair, htake, hdrop, List.drop_one, List.tail_cons, hencode.decode_encode,
    hencode.decode_encode]

omit hencode in
theorem pairText_ne_nil (pair : List UInt8 × List UInt8) : pairText encode pair ≠ [] := by
  simp [pairText]

omit hencode in
/-- The pairs, joined. -/
theorem foldl_append_pair (pairs : List (List UInt8 × List UInt8)) {text : List Char}
    (htext : text ≠ []) : pairs.foldl (append encode) text =
      text ++ pairs.flatMap fun pair => '&' :: pairText encode pair := by
  induction pairs generalizing text with
  | nil => simp
  | cons pair pairs ih =>
    have happend : append encode text pair = text ++ '&' :: pairText encode pair := by
      simp [append, htext]
    rw [List.foldl_cons, ih (by simp [happend]), happend, List.flatMap_cons, List.append_assoc]

omit hencode in
theorem serialize_eq_intercalate (pairs : List (List UInt8 × List UInt8)) :
    serialize encode pairs = ['&'].intercalate (pairs.map (pairText encode)) := by
  cases pairs with
  | nil => rfl
  | cons pair pairs =>
    have hfirst : append encode [] pair = pairText encode pair := by simp [append]
    rw [serialize, List.foldl_cons, hfirst, foldl_append_pair _ (pairText_ne_nil pair),
      List.map_cons]
    induction pairs generalizing pair with
    | nil => simp
    | cons next pairs ih =>
      rw [List.flatMap_cons, List.map_cons, List.intercalate_cons_cons,
        ← ih next (by simp [append])]
      simp

theorem textChar_serialize {pairs : List (List UInt8 × List UInt8)} :
    ∀ c ∈ serialize encode pairs, textChar c = true := by
  have happend : ∀ (text : List Char) (pair : List UInt8 × List UInt8),
      (∀ c ∈ text, textChar c = true) → ∀ c ∈ append encode text pair, textChar c = true := by
    intro text pair htext c hc
    rcases List.mem_append.1 hc with hc | hc
    · split_ifs at hc
      · exact htext c hc
      · rcases List.mem_append.1 hc with hc | hc
        · exact htext c hc
        · rw [List.mem_singleton.1 hc]
          rfl
    · rcases List.mem_append.1 hc with hc | hc
      · exact hencode.textChar c hc
      · rcases List.mem_cons.1 hc with rfl | hc
        · rfl
        · exact hencode.textChar c hc
  induction pairs using List.reverseRecOn with
  | nil => exact fun c hc => by cases hc
  | append_singleton pairs pair ih =>
    rw [serialize, List.foldl_append]
    exact happend _ pair ih

theorem parse_serialize (pairs : List (List UInt8 × List UInt8)) :
    parse (serialize encode pairs) = pairs := by
  by_cases hempty : pairs = []
  · subst hempty
    rfl
  · have hseparate : ∀ text ∈ pairs.map (pairText encode), '&' ∉ text := by
      intro text htext
      obtain ⟨pair, -, rfl⟩ := List.mem_map.1 htext
      simp [pairText, (hencode.notMem pair.1).1, (hencode.notMem pair.2).1]
    have hsplit : (serialize encode pairs).splitOn '&' = pairs.map (pairText encode) := by
      rw [serialize_eq_intercalate]
      exact List.splitOn_intercalate '&' hseparate (by simpa using hempty)
    have hfilter : (pairs.map (pairText encode)).filter (fun part => !part.isEmpty) =
        pairs.map (pairText encode) := by
      rw [List.filter_eq_self]
      intro text htext
      obtain ⟨pair, -, rfl⟩ := List.mem_map.1 htext
      simp [pairText]
    rw [parse, hsplit, hfilter, List.map_map]
    conv_rhs => rw [← List.map_id pairs]
    exact List.map_congr_left fun pair _ => parsePair_pairText hencode pair

end

/-! ## Byte by byte -/

def upperDigit (n : ℕ) : Char := (Hex.digit n).toUpper

/-- `byte_serialize`, of one byte. -/
def encodeByte (b : UInt8) : List Char :=
  if unreserved (Char.ofUInt8 b) then [Char.ofUInt8 b]
  else if b = 32 then ['+']
  else ['%', upperDigit (b.toNat / 16), upperDigit (b.toNat % 16)]

def byteSerialize (bytes : List UInt8) : List Char := bytes.flatMap encodeByte

theorem hexValue_upperDigit : ∀ n < 16, hexValue (upperDigit n) = some n := by
  decide

theorem unreserved_upperDigit : ∀ n < 16, unreserved (upperDigit n) = true := by
  decide

theorem ofUInt8_toUInt8 (b : UInt8) : (Char.ofUInt8 b).toUInt8 = b := by
  simp [Char.ofUInt8, Char.toUInt8]

/-- A character that is neither a percent sign nor a plus sign stands for itself. -/
theorem decode_cons {c : Char} (hpercent : c ≠ '%') (hplus : c ≠ '+') (rest : List Char) :
    decode (c :: rest) = c.toUInt8 :: decode rest := by
  rw [decode]
  · rintro high low rest rfl
    exact absurd rfl hpercent
  · exact hplus

theorem decode_escape {h l : ℕ} (hh : h < 16) (hl : l < 16) (rest : List Char) :
    decode ('%' :: upperDigit h :: upperDigit l :: rest) =
      UInt8.ofNat (16 * h + l) :: decode rest := by
  rw [decode, hexValue_upperDigit h hh, hexValue_upperDigit l hl]

theorem decode_encodeByte (b : UInt8) (rest : List Char) :
    decode (encodeByte b ++ rest) = b :: decode rest := by
  unfold encodeByte
  split_ifs with hself hspace
  · obtain ⟨hpercent, hplus, -, -⟩ := unreserved_ne hself
    rw [List.singleton_append, decode_cons hpercent hplus, ofUInt8_toUInt8]
  · rw [hspace]
    rfl
  · have hlt := b.toNat_lt
    have hhigh : b.toNat / 16 < 16 := by omega
    have hdigits : 16 * (b.toNat / 16) + b.toNat % 16 = b.toNat := Nat.div_add_mod ..
    simp only [List.cons_append, List.nil_append]
    rw [decode_escape hhigh (Nat.mod_lt _ (by decide)), hdigits, UInt8.ofNat_toNat]

theorem isEncoding_byteSerialize : IsEncoding byteSerialize where
  decode_encode bytes := by
    induction bytes with
    | nil => rfl
    | cons b bytes ih =>
      rw [byteSerialize, List.flatMap_cons, decode_encodeByte]
      exact congrArg (b :: ·) ih
  chars bytes c hc := by
    obtain ⟨b, -, hc⟩ := List.mem_flatMap.1 hc
    unfold encodeByte at hc
    split_ifs at hc with hself
    · rw [List.mem_singleton.1 hc]
      exact .inl hself
    · exact .inr (.inl (List.mem_singleton.1 hc))
    · have hlt := b.toNat_lt
      rcases List.mem_cons.1 hc with rfl | hc
      · exact .inr (.inr rfl)
      · rcases List.mem_cons.1 hc with rfl | hc
        · exact .inl (unreserved_upperDigit _ (by omega))
        · rw [List.mem_singleton.1 hc]
          exact .inl (unreserved_upperDigit _ (Nat.mod_lt _ (by decide)))

end FormUrlEncoded
