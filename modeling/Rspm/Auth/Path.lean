/-
  Paths of rejected responses.

  A path comes from the JSON reader, so the venue has a say in its text.
  `authenticatedResponsePathIsSafe` is the recogniser on the text, with every
  slice that it takes; `responsePath_grammar` says what it accepts: `?`, or
  fields of the endpoint with decimal indexes, joined by dots.
-/
import Rspm.Lib.Decoding
import Rspm.Auth.Decode

namespace Rspm

open Decoding

/-- The class that an endpoint has in diagnostics. -/
def AuthenticatedEndpoint.asStr : AuthenticatedEndpoint → String
  | .protocolVersion => "clob.protocol_version"
  | .trades => "clob.authenticated_trades"
  | .order => "clob.authenticated_order"
  | .balanceAllowance => "clob.authenticated_balance_allowance"
  | .positions => "data.position_inventory"

namespace ResponsePath

/-! ## The recogniser -/

/-- The loop over the indexes of a segment; `none` where the slice `[1..]` would be out of
    range.  Every turn takes three characters at least, so their number is fuel enough. -/
def indexesAreSafe : ℕ → List Char → Option Bool
  | _, [] => some true
  | 0, _ :: _ => none
  | fuel + 1, c :: index =>
    if c ≠ '[' then some false
    else if ']' ∉ index then some false
    else
      let digits := index.takeWhile (· ≠ ']')
      let remaining := index.dropWhile (· ≠ ']')
      if digits.isEmpty || !digits.all Char.isDigit then some false
      else
        match remaining with
        | [] => none
        | _ :: indexes => indexesAreSafe fuel indexes

def segmentIsSafe (endpoint : AuthenticatedEndpoint) (segment : List Char) : Option Bool :=
  let field := segment.takeWhile (· ≠ '[')
  let indexes := segment.dropWhile (· ≠ '[')
  if !endpoint.fields.contains (String.ofList field) then some false
  else indexesAreSafe indexes.length indexes

def authenticatedResponsePathIsSafe (endpoint : AuthenticatedEndpoint) (path : String) :
    Option Bool :=
  if path = "?" then some true
  else (path.toList.splitOn '.').allM (segmentIsSafe endpoint)

/-! ## Errors -/

inductive RequestFailureClass where
  | transport | unauthorized | forbidden | rateLimited | clientError | serverError
  | oversizedResponse | unclassified
deriving DecidableEq

inductive AuthenticatedEndpointErrorKind where
  | responseSchemaDecode (endpointClass responsePath : String) (responseDigest : Option String)
  | requestFailed (endpointClass : String) (failureClass : RequestFailureClass)
deriving DecidableEq

namespace AuthenticatedEndpointErrorKind

/-- The validated path that an error retains. -/
def responsePath : AuthenticatedEndpointErrorKind → Option String
  | responseSchemaDecode _ responsePath _ => some responsePath
  | requestFailed .. => none

/-- Only the digest of a rejected response is attached. -/
def withResponseDigest (digest : String) :
    AuthenticatedEndpointErrorKind → AuthenticatedEndpointErrorKind
  | responseSchemaDecode endpointClass responsePath _ =>
    responseSchemaDecode endpointClass responsePath (some digest)
  | requestFailed endpointClass failureClass => requestFailed endpointClass failureClass

end AuthenticatedEndpointErrorKind

/-- An unsafe path degrades to a redacted request failure. -/
def responseSchemaDecode (endpoint : AuthenticatedEndpoint) (path : String) :
    Option AuthenticatedEndpointErrorKind := do
  let safe ← authenticatedResponsePathIsSafe endpoint path
  return if !safe then .requestFailed endpoint.asStr .unclassified
    else .responseSchemaDecode endpoint.asStr path none

/-! ## The grammar -/

/-- `[d]`. -/
def bracketed (digits : List Char) : List Char := '[' :: digits ++ [']']

def IsDigits (digits : List Char) : Prop := digits ≠ [] ∧ ∀ c ∈ digits, c.isDigit

/-- A field of the endpoint, and indexes. -/
def SafeSegment (endpoint : AuthenticatedEndpoint) (segment : List Char) : Prop :=
  ∃ field ∈ endpoint.fields, ∃ indexes : List (List Char),
    segment = field.toList ++ indexes.flatMap bracketed ∧ ∀ digits ∈ indexes, IsDigits digits

/-- `?`, or segments joined by dots. -/
def SafePath (endpoint : AuthenticatedEndpoint) (path : String) : Prop :=
  path = "?" ∨ ∃ segments : List (List Char), segments ≠ [] ∧
    path.toList = ['.'].intercalate segments ∧ ∀ segment ∈ segments, SafeSegment endpoint segment

/-- A field of the endpoint, a digit, a dot or a bracket. -/
def SafeToken (endpoint : AuthenticatedEndpoint) (token : List Char) : Prop :=
  (∃ field ∈ endpoint.fields, token = field.toList) ∨
    ∃ c, token = [c] ∧ (c.isDigit ∨ c = '.' ∨ c = '[' ∨ c = ']')

theorem fields_plain (endpoint : AuthenticatedEndpoint) :
    ∀ field ∈ endpoint.fields, '[' ∉ field.toList ∧ '.' ∉ field.toList := by
  cases endpoint <;> decide

theorem IsDigits.notMem {digits : List Char} (h : IsDigits digits) {c : Char}
    (hc : c.isDigit = false) : c ∉ digits := by
  intro hm
  rw [h.2 c hm] at hc
  cases hc

/-- What stands before a separator is taken, when it does not contain one. -/
theorem span_append {sep : Char} {l r : List Char} (hl : sep ∉ l)
    (hr : r = [] ∨ ∃ r', r = sep :: r') :
    (l ++ r).takeWhile (· ≠ sep) = l ∧ (l ++ r).dropWhile (· ≠ sep) = r := by
  have hall : ∀ a ∈ l, decide (a ≠ sep) = true := by
    intro a ha
    rw [decide_eq_true_eq]
    rintro rfl
    exact hl ha
  rw [List.takeWhile_append_of_pos hall, List.dropWhile_append_of_pos hall]
  rcases hr with rfl | ⟨r', rfl⟩ <;> simp

/-! ## The recogniser and the grammar -/

theorem flatMap_bracketed (indexes : List (List Char)) :
    indexes.flatMap bracketed = [] ∨ ∃ r, indexes.flatMap bracketed = '[' :: r := by
  cases indexes with
  | nil => exact .inl rfl
  | cons digits indexes => exact .inr ⟨_, rfl⟩

/-- The loop ends without a slice out of range, and accepts the lists of indexes. -/
theorem indexesAreSafe_iff :
    ∀ (fuel : ℕ) (indexes : List Char), indexes.length ≤ fuel →
      (indexesAreSafe fuel indexes).isSome ∧
      (indexesAreSafe fuel indexes = some true ↔
        ∃ ds : List (List Char), indexes = ds.flatMap bracketed ∧ ∀ d ∈ ds, IsDigits d) := by
  intro fuel
  induction fuel with
  | zero =>
    intro indexes hlen
    obtain rfl := List.length_eq_zero_iff.1 (Nat.le_zero.1 hlen)
    exact ⟨rfl, fun _ => ⟨[], rfl, by simp⟩, fun _ => rfl⟩
  | succ fuel ih =>
    intro indexes hlen
    cases indexes with
    | nil => exact ⟨rfl, fun _ => ⟨[], rfl, by simp⟩, fun _ => rfl⟩
    | cons c index =>
      rw [List.length_cons] at hlen
      -- a list of indexes that starts with `c` starts with an index
      have hhead : (∃ ds : List (List Char), c :: index = ds.flatMap bracketed ∧
          ∀ d ∈ ds, IsDigits d) → c = '[' ∧ ∃ (d : List Char) (ds : List (List Char)),
            index = d ++ ']' :: ds.flatMap bracketed ∧ IsDigits d ∧ ∀ d ∈ ds, IsDigits d := by
        rintro ⟨ds, he, hds⟩
        cases ds with
        | nil => cases he
        | cons d ds =>
          rw [List.flatMap_cons, bracketed, List.cons_append, List.cons_append] at he
          obtain ⟨rfl, rfl⟩ := List.cons.inj he
          rw [List.forall_mem_cons] at hds
          exact ⟨rfl, d, ds, by simp, hds.1, hds.2⟩
      unfold indexesAreSafe
      by_cases hc : c = '['
      · rw [if_neg (not_not.2 hc)]
        by_cases hm : ']' ∈ index
        · rw [if_neg (not_not.2 hm)]
          obtain ⟨digits, rest, rfl, hnot⟩ := List.eq_append_cons_of_mem hm
          obtain ⟨htake, hdrop⟩ := span_append (r := ']' :: rest) hnot (.inr ⟨rest, rfl⟩)
          rw [htake, hdrop]
          dsimp only
          rw [List.length_append, List.length_cons] at hlen
          obtain ⟨hsome, hiff⟩ := ih rest (by omega)
          by_cases hd : IsDigits digits
          · have hgood : (digits.isEmpty || !digits.all Char.isDigit) = false := by
              simpa [IsDigits] using hd
            rw [hgood, if_neg Bool.false_ne_true]
            refine ⟨hsome, hiff.trans ⟨?_, fun h => ?_⟩⟩
            · rintro ⟨ds, rfl, hds⟩
              exact ⟨digits :: ds, by simp [bracketed, hc], List.forall_mem_cons.2 ⟨hd, hds⟩⟩
            · obtain ⟨-, d, ds, he, hd', hds⟩ := hhead h
              have hrest := (span_append (r := ']' :: ds.flatMap bracketed)
                (hd'.notMem (by decide)) (.inr ⟨_, rfl⟩)).2
              rw [← he, hdrop] at hrest
              exact ⟨ds, (List.cons.inj hrest).2, hds⟩
          · have hbad : (digits.isEmpty || !digits.all Char.isDigit) = true := by
              by_contra hne
              exact hd (by simpa [IsDigits] using hne)
            rw [hbad, if_pos rfl]
            refine ⟨rfl, fun h => (by cases h), fun h => absurd ?_ hd⟩
            obtain ⟨-, d, ds, he, hd', -⟩ := hhead h
            have htake' := (span_append (r := ']' :: ds.flatMap bracketed)
              (hd'.notMem (by decide)) (.inr ⟨_, rfl⟩)).1
            rw [← he, htake] at htake'
            rwa [htake']
        · rw [if_pos hm]
          refine ⟨rfl, fun h => (by cases h), fun h => ?_⟩
          obtain ⟨-, d, ds, rfl, -⟩ := hhead h
          simp at hm
      · rw [if_pos hc]
        exact ⟨rfl, fun h => (by cases h), fun h => absurd (hhead h).1 hc⟩

theorem segmentIsSafe_iff (endpoint : AuthenticatedEndpoint) (segment : List Char) :
    (segmentIsSafe endpoint segment).isSome ∧
      (segmentIsSafe endpoint segment = some true ↔ SafeSegment endpoint segment) := by
  -- the field of a safe segment is what stands before the first bracket
  have hspan : SafeSegment endpoint segment →
      String.ofList (segment.takeWhile (· ≠ '[')) ∈ endpoint.fields ∧
      ∃ ds : List (List Char), segment.dropWhile (· ≠ '[') = ds.flatMap bracketed ∧
        ∀ d ∈ ds, IsDigits d := by
    rintro ⟨field, hfield, ds, rfl, hds⟩
    obtain ⟨htake, hdrop⟩ := span_append (fields_plain endpoint field hfield).1
      (flatMap_bracketed ds)
    rw [htake, hdrop, String.ofList_toList]
    exact ⟨hfield, ds, rfl, hds⟩
  unfold segmentIsSafe
  dsimp only
  obtain ⟨hsome, hiff⟩ := indexesAreSafe_iff _ (segment.dropWhile (· ≠ '[')) le_rfl
  by_cases hf : String.ofList (segment.takeWhile (· ≠ '[')) ∈ endpoint.fields
  · rw [if_neg (by simpa using hf)]
    refine ⟨hsome, hiff.trans ⟨?_, fun h => (hspan h).2⟩⟩
    rintro ⟨ds, he, hds⟩
    refine ⟨_, hf, ds, ?_, hds⟩
    rw [String.toList_ofList, ← he, List.takeWhile_append_dropWhile]
  · rw [if_pos (by simpa using hf)]
    exact ⟨rfl, fun h => (by cases h), fun h => absurd (hspan h).1 hf⟩

/-- A safe segment has no dot. -/
theorem SafeSegment.dot_notMem {endpoint : AuthenticatedEndpoint} {segment : List Char}
    (h : SafeSegment endpoint segment) : '.' ∉ segment := by
  obtain ⟨field, hfield, ds, rfl, hds⟩ := h
  intro hm
  rcases List.mem_append.1 hm with hm | hm
  · exact (fields_plain endpoint field hfield).2 hm
  · obtain ⟨d, hd, hm⟩ := List.mem_flatMap.1 hm
    have hnot := (hds d hd).notMem (c := '.') (by decide)
    simp [bracketed, hnot] at hm

/-- The recogniser takes no slice out of range, and accepts the grammar. -/
theorem authenticatedResponsePathIsSafe_iff (endpoint : AuthenticatedEndpoint) (path : String) :
    (authenticatedResponsePathIsSafe endpoint path).isSome ∧
      (authenticatedResponsePathIsSafe endpoint path = some true ↔ SafePath endpoint path) := by
  unfold authenticatedResponsePathIsSafe SafePath
  by_cases hq : path = "?"
  · rw [if_pos hq]
    exact ⟨rfl, fun _ => .inl hq, fun _ => rfl⟩
  rw [if_neg hq]
  obtain ⟨hsome, hiff⟩ := allM_of_isSome (l := path.toList.splitOn '.')
    fun segment _ => (segmentIsSafe_iff endpoint segment).1
  refine ⟨hsome, hiff.trans ⟨fun h => .inr ?_, ?_⟩⟩
  · exact ⟨path.toList.splitOn '.', List.splitOn_ne_nil '.' path.toList,
      (List.intercalate_splitOn '.').symm,
      fun segment hm => (segmentIsSafe_iff endpoint segment).2.1 (h segment hm)⟩
  · rintro (h | ⟨segments, hne, he, hsafe⟩)
    · exact absurd h hq
    · rw [he, List.splitOn_intercalate '.' (fun segment hm => (hsafe segment hm).dot_notMem) hne]
      exact fun segment hm => (segmentIsSafe_iff endpoint segment).2.2 (hsafe segment hm)

/-! ## What a stored path can contain -/

/-- A text made of fields of the endpoint, digits, dots and brackets. -/
def Tokenized (endpoint : AuthenticatedEndpoint) (text : List Char) : Prop :=
  ∃ tokens : List (List Char), text = tokens.flatten ∧ ∀ token ∈ tokens, SafeToken endpoint token

namespace Tokenized

variable {endpoint : AuthenticatedEndpoint}

theorem nil : Tokenized endpoint [] := ⟨[], rfl, by simp⟩

theorem token {t : List Char} (h : SafeToken endpoint t) : Tokenized endpoint t :=
  ⟨[t], by simp, by simpa using h⟩

theorem append {l r : List Char} (hl : Tokenized endpoint l) (hr : Tokenized endpoint r) :
    Tokenized endpoint (l ++ r) := by
  obtain ⟨ts, rfl, hts⟩ := hl
  obtain ⟨us, rfl, hus⟩ := hr
  refine ⟨ts ++ us, by simp, fun t hm => ?_⟩
  rcases List.mem_append.1 hm with hm | hm
  · exact hts t hm
  · exact hus t hm

theorem flatMap {α : Type} {f : α → List Char} {l : List α}
    (h : ∀ a ∈ l, Tokenized endpoint (f a)) : Tokenized endpoint (l.flatMap f) := by
  induction l with
  | nil => exact nil
  | cons a l ih =>
    rw [List.flatMap_cons]
    rw [List.forall_mem_cons] at h
    exact h.1.append (ih h.2)

theorem bracketed {digits : List Char} (h : IsDigits digits) :
    Tokenized endpoint (bracketed digits) := by
  have hdigits : Tokenized endpoint (digits.flatMap fun c => [c]) :=
    flatMap fun c hc => token (.inr ⟨c, rfl, .inl (h.2 c hc)⟩)
  rw [List.flatMap_singleton'] at hdigits
  have hopen : Tokenized endpoint ['['] := token (.inr ⟨'[', rfl, by simp⟩)
  have hclose : Tokenized endpoint [']'] := token (.inr ⟨']', rfl, by simp⟩)
  exact (hopen.append hdigits).append hclose

theorem segment {s : List Char} (h : SafeSegment endpoint s) : Tokenized endpoint s := by
  obtain ⟨field, hfield, ds, rfl, hds⟩ := h
  exact (token (.inl ⟨field, hfield, rfl⟩)).append (flatMap fun d hd => bracketed (hds d hd))

theorem intercalate {segments : List (List Char)}
    (h : ∀ s ∈ segments, SafeSegment endpoint s) :
    Tokenized endpoint (['.'].intercalate segments) := by
  have hdot : Tokenized endpoint ['.'] := token (.inr ⟨'.', rfl, by simp⟩)
  induction segments with
  | nil => exact nil
  | cons s segments ih =>
    rw [List.forall_mem_cons] at h
    cases segments with
    | nil =>
      rw [List.intercalate_singleton]
      exact segment h.1
    | cons s' segments =>
      rw [List.intercalate_cons_cons]
      exact ((segment h.1).append hdot).append (ih h.2)

end Tokenized

/-- The recogniser never takes a slice out of range and accepts exactly the grammar of the
    endpoint, so that a path that is stored, whatever text it came from, consists of fields of
    the endpoint, digits, dots and brackets. -/
theorem responsePath_grammar (endpoint : AuthenticatedEndpoint) (path : String) :
    (∃ safe, authenticatedResponsePathIsSafe endpoint path = some safe ∧
      (safe = true ↔ SafePath endpoint path)) ∧
    ∃ error, responseSchemaDecode endpoint path = some error ∧
      ∀ stored, error.responsePath = some stored →
        stored = path ∧ SafePath endpoint stored ∧
          (stored = "?" ∨ Tokenized endpoint stored.toList) := by
  obtain ⟨hsome, hiff⟩ := authenticatedResponsePathIsSafe_iff endpoint path
  obtain ⟨safe, hsafe⟩ := Option.isSome_iff_exists.1 hsome
  rw [hsafe, Option.some.injEq] at hiff
  refine ⟨⟨safe, hsafe, hiff⟩, ?_⟩
  unfold responseSchemaDecode
  rw [hsafe]
  refine ⟨_, rfl, fun stored hstored => ?_⟩
  cases safe with
  | false => cases hstored
  | true =>
    obtain rfl : path = stored := Option.some.inj hstored
    have hpath := hiff.1 rfl
    refine ⟨rfl, hpath, hpath.imp_right ?_⟩
    rintro ⟨segments, -, he, hsegments⟩
    rw [he]
    exact Tokenized.intercalate hsegments

end ResponsePath

end Rspm
