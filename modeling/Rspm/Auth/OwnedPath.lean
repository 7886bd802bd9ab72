/-
  Paths to declared fields, and the errors that keep them.

  A page of trades or of orders fails at a path when the JSON reader reports the
  path, or when an element of the page is refused there.  The pages of the two
  endpoints are decoded here with the texts of their paths; the decoder on
  segments (`AuthenticatedTradePage.ofWire`) is refined by the one on texts
  (`responseSchemaDecode_render`).

  `owned_path_kept_iff`: at a declared field, the error keeps exactly its path if
  and only if the allow-list of the endpoint has the field, and is a request
  failure without a class otherwise.  The names that are missing are listed in
  `OwnedPath.Listed`.
-/
import Rspm.Lib.Digits
import Rspm.Auth.Path
import Rspm.Auth.TradePage

namespace Rspm

/-! ## Pages of orders -/

structure Orders.WireOrderPage where
  data : List Orders.WireOrder
  nextCursor : String
  limit : ℕ
  count : ℕ

structure AuthenticatedOrderPage where
  data : List AuthenticatedOrder
  nextCursor : String
  limit : ℕ
  count : ℕ

/-- `decode_json` from the page that the JSON reader returns. -/
def AuthenticatedOrderPage.ofWire (page : Orders.WireOrderPage) :
    Except AuthenticatedEndpointError AuthenticatedOrderPage := do
  validatePage .order page.data.length page.count page.limit page.nextCursor
  let data ← page.data.mapM AuthenticatedOrder.tryFrom
  return { data, nextCursor := page.nextCursor, limit := page.limit, count := page.count }

namespace ResponsePath

/-! ## Decoding, with the texts of the paths -/

/-- `serde_path_to_error::deserialize` of a type: a value, or the path that is reported; and
    whether nothing follows the value (`Deserializer::end`). -/
structure Reader (α : Type) where
  deserialize : List UInt8 → Except String α
  ended : List UInt8 → Bool

/-- `AuthenticatedEndpoint::decode`; `none` where a slice of the recogniser would be out of
    range. -/
def decode {α : Type} (endpoint : AuthenticatedEndpoint) (reader : Reader α)
    (body : List UInt8) : Option (Except AuthenticatedEndpointErrorKind α) :=
  match reader.deserialize body with
  | .error path => (responseSchemaDecode endpoint path).map .error
  | .ok value =>
    if reader.ended body then some (.ok value)
    else (responseSchemaDecode endpoint "?").map .error

/-- The text of a segment. -/
def segmentText (segment : ResponseSegment) : List Char :=
  segment.field.toList ++ segment.indexes.flatMap fun index => bracketed (Nat.toDigits 10 index)

/-- The text of a path. -/
def render (path : List ResponseSegment) : String :=
  String.ofList (['.'].intercalate (path.map segmentText))

/-- An error, with the text of its path. -/
def errorKind : AuthenticatedEndpointError → AuthenticatedEndpointErrorKind
  | .schemaDecode endpoint path => .responseSchemaDecode endpoint.asStr (render path) none
  | .requestFailed endpoint => .requestFailed endpoint.asStr .unclassified

/-- `AuthenticatedTradePage::decode_json`.  `digest` is the hexadecimal SHA-256 of the body. -/
def tradePageDecodeJson (reader : Reader Trades.WireTradePage) (digest : List UInt8 → String)
    (body : List UInt8) : Option (Except AuthenticatedEndpointErrorKind AuthenticatedTradePage) :=
  (decode .trades reader body).map fun page =>
    (page.bind fun page => (AuthenticatedTradePage.ofWire page).mapError errorKind).mapError
      (·.withResponseDigest (digest body))

/-- `AuthenticatedOrderPage::decode_json`. -/
def orderPageDecodeJson (reader : Reader Orders.WireOrderPage) (body : List UInt8) :
    Option (Except AuthenticatedEndpointErrorKind AuthenticatedOrderPage) :=
  (decode .order reader body).map fun page =>
    page.bind fun page => (AuthenticatedOrderPage.ofWire page).mapError errorKind

/-! ## The recogniser on the text of a path -/

/-- An identifier. -/
def PlainField (field : String) : Prop :=
  field ≠ "" ∧ ∀ c ∈ field.toList, c.isAlpha ∨ c = '_'

theorem PlainField.notMem {field : String} (h : PlainField field) {c : Char}
    (hc : c.isAlpha = false) (hne : c ≠ '_') : c ∉ field.toList := by
  intro hm
  rcases h.2 c hm with ha | he
  · rw [hc] at ha
    cases ha
  · exact hne he

theorem isDigits_toDigits (n : ℕ) : IsDigits (Nat.toDigits 10 n) :=
  ⟨Nat.toDigits_ne_nil, Digits.isDigit_toDigits⟩

/-- The indexes of a segment, as the recogniser splits them. -/
theorem segmentText_eq (segment : ResponseSegment) :
    segmentText segment =
      segment.field.toList ++ (segment.indexes.map (Nat.toDigits 10)).flatMap bracketed := by
  rw [segmentText, List.flatMap_map]

theorem safeSegment_segmentText {endpoint : AuthenticatedEndpoint} {segment : ResponseSegment}
    (hplain : PlainField segment.field) :
    SafeSegment endpoint (segmentText segment) ↔ segment.field ∈ endpoint.fields := by
  rw [segmentText_eq]
  constructor
  · rintro ⟨field, hfield, indexes, he, -⟩
    -- the field is what stands before the first bracket, on either side
    have htake := (span_append (hplain.notMem (c := '[') (by decide) (by decide))
      (flatMap_bracketed (segment.indexes.map (Nat.toDigits 10)))).1
    rw [he, (span_append (fields_plain endpoint field hfield).1 (flatMap_bracketed indexes)).1]
      at htake
    rwa [← String.toList_inj.1 htake]
  · intro hfield
    refine ⟨segment.field, hfield, _, rfl, fun digits hd => ?_⟩
    obtain ⟨index, -, rfl⟩ := List.mem_map.1 hd
    exact isDigits_toDigits index

theorem dot_notMem_segmentText {segment : ResponseSegment} (hplain : PlainField segment.field) :
    '.' ∉ segmentText segment := by
  intro hm
  rcases List.mem_append.1 hm with hm | hm
  · exact hplain.notMem (by decide) (by decide) hm
  · obtain ⟨index, -, hm⟩ := List.mem_flatMap.1 hm
    have hnot := (isDigits_toDigits index).notMem (c := '.') (by decide)
    simp [bracketed, hnot] at hm

/-- The segments of a text are those that it was rendered from. -/
theorem splitOn_render {path : List ResponseSegment} (hne : path ≠ [])
    (hplain : ∀ segment ∈ path, PlainField segment.field) :
    (render path).toList.splitOn '.' = path.map segmentText := by
  rw [render, String.toList_ofList]
  refine List.splitOn_intercalate '.' (fun text hm => ?_) (by simpa using hne)
  obtain ⟨segment, hsegment, rfl⟩ := List.mem_map.1 hm
  exact dot_notMem_segmentText (hplain segment hsegment)

theorem render_ne_unknown {path : List ResponseSegment} (hne : path ≠ [])
    (hplain : ∀ segment ∈ path, PlainField segment.field) : render path ≠ "?" := by
  intro h
  have hsplit := splitOn_render hne hplain
  rw [h] at hsplit
  cases path with
  | nil => exact hne rfl
  | cons segment path =>
    obtain ⟨hfield, hchars⟩ := hplain segment List.mem_cons_self
    have hhead : segmentText segment = ['?'] := (List.cons.inj hsplit).1.symm
    cases hc : segment.field.toList with
    | nil => exact hfield (String.toList_inj.1 hc)
    | cons c cs =>
      rw [segmentText, hc] at hhead
      obtain rfl := (List.cons.inj hhead).1
      have hplain := hchars '?' (by rw [hc]; exact List.mem_cons_self)
      revert hplain
      decide

theorem safePath_render {endpoint : AuthenticatedEndpoint} {path : List ResponseSegment}
    (hne : path ≠ []) (hplain : ∀ segment ∈ path, PlainField segment.field) :
    SafePath endpoint (render path) ↔ ∀ segment ∈ path, segment.field ∈ endpoint.fields := by
  constructor
  · rintro (h | ⟨segments, hsegments, he, hsafe⟩)
    · exact absurd h (render_ne_unknown hne hplain)
    · have hsplit := splitOn_render hne hplain
      rw [he, List.splitOn_intercalate '.' (fun segment hm => (hsafe segment hm).dot_notMem)
        hsegments] at hsplit
      intro segment hm
      rw [← safeSegment_segmentText (hplain segment hm)]
      exact hsafe _ (hsplit ▸ List.mem_map_of_mem hm)
  · intro h
    refine .inr ⟨path.map segmentText, by simpa using hne, String.toList_ofList, fun text hm => ?_⟩
    obtain ⟨segment, hsegment, rfl⟩ := List.mem_map.1 hm
    exact (safeSegment_segmentText (hplain segment hsegment)).2 (h segment hsegment)

/-- On the text of a path, the constructor does what it does on the segments. -/
theorem responseSchemaDecode_render {endpoint : AuthenticatedEndpoint}
    {path : List ResponseSegment} (hne : path ≠ [])
    (hplain : ∀ segment ∈ path, PlainField segment.field) :
    responseSchemaDecode endpoint (render path) =
      some (errorKind (Rspm.responseSchemaDecode endpoint path)) := by
  obtain ⟨hsome, hiff⟩ := authenticatedResponsePathIsSafe_iff endpoint (render path)
  obtain ⟨safe, hsafe⟩ := Option.isSome_iff_exists.1 hsome
  rw [hsafe, Option.some.injEq, safePath_render hne hplain] at hiff
  have hsame : Rspm.authenticatedResponsePathIsSafe endpoint path = safe := by
    rw [Bool.eq_iff_iff, hiff]
    simp [Rspm.authenticatedResponsePathIsSafe]
  unfold responseSchemaDecode Rspm.responseSchemaDecode
  rw [hsafe, hsame]
  cases safe <;> rfl

/-! ## Paths to declared fields -/

/-- The declared fields of a trade on the wire, and the alias of the fee. -/
def WireTrade.declared : List String :=
  ["id", "taker_order_id", "market", "asset_id", "side", "size", "fee_rate_bps", "fee_usdc",
    "feeUsdc", "price", "status", "match_time", "last_update", "outcome", "bucket_index", "owner",
    "maker_address", "maker_orders", "transaction_hash", "trader_side", "error_msg"]

/-- The declared fields of a maker leg on the wire, and the alias of the fee. -/
def WireMakerOrder.declared : List String :=
  ["order_id", "owner", "maker_address", "matched_amount", "price", "fee_rate_bps", "fee_usdc",
    "feeUsdc", "asset_id", "outcome", "side"]

/-- The declared fields of an order on the wire. -/
def WireOrder.declared : List String :=
  ["id", "status", "owner", "maker_address", "market", "asset_id", "side", "original_size",
    "size_matched", "price", "created_at", "expiration", "associate_trades", "outcome",
    "order_type"]

/-- A path to a declared field of an element of a page. -/
inductive OwnedPath : AuthenticatedEndpoint → Type
  | trade (tradeIndex : ℕ) (field : String) (declared : field ∈ WireTrade.declared) :
      OwnedPath .trades
  | leg (tradeIndex makerIndex : ℕ) (field : String) (declared : field ∈ WireMakerOrder.declared) :
      OwnedPath .trades
  | order (orderIndex : ℕ) (field : String) (declared : field ∈ WireOrder.declared) :
      OwnedPath .order

namespace OwnedPath

variable {endpoint : AuthenticatedEndpoint}

def field : OwnedPath endpoint → String
  | trade _ field _ | leg _ _ field _ | order _ field _ => field

/-- The text of the path, as it is reported and as the checks of an element write it. -/
def text : OwnedPath endpoint → String
  | trade tradeIndex field _ => s!"data[{tradeIndex}].{field}"
  | leg tradeIndex makerIndex field _ => s!"data[{tradeIndex}].maker_orders[{makerIndex}].{field}"
  | order orderIndex field _ => s!"data[{orderIndex}].{field}"

def segments : OwnedPath endpoint → List ResponseSegment
  | trade tradeIndex field _ => [⟨"data", [tradeIndex]⟩, ⟨field, []⟩]
  | leg tradeIndex makerIndex field _ =>
    [⟨"data", [tradeIndex]⟩, ⟨"maker_orders", [makerIndex]⟩, ⟨field, []⟩]
  | order orderIndex field _ => [⟨"data", [orderIndex]⟩, ⟨field, []⟩]

/-- The declared fields that the allow-list of the endpoint leaves out. -/
def unlisted : AuthenticatedEndpoint → List String
  | .trades => ["fee_usdc", "feeUsdc"]
  | .order => ["owner", "maker_address", "associate_trades", "outcome", "order_type"]
  | _ => []

/-- The field is in the allow-list. -/
def Listed (path : OwnedPath endpoint) : Prop := path.field ∉ unlisted endpoint

instance (path : OwnedPath endpoint) : Decidable path.Listed :=
  inferInstanceAs (Decidable (path.field ∉ unlisted endpoint))

/-- The outcome is the schema failure with exactly this path. -/
def Kept {α : Type} (path : OwnedPath endpoint)
    (outcome : Option (Except AuthenticatedEndpointErrorKind α)) : Prop :=
  ∃ digest, outcome = some (.error (.responseSchemaDecode endpoint.asStr path.text digest))

/-- A page of trades fails at the path: the reader reports it, or the page that was read is
    refused there. -/
inductive FailsAt (reader : Reader Trades.WireTradePage) (body : List UInt8)
    (path : OwnedPath .trades) : Prop
  | decoding (hread : reader.deserialize body = .error path.text)
  | validation {page : Trades.WireTradePage} (hread : reader.deserialize body = .ok page)
      (hended : reader.ended body = true) (hframed : page.Framed)
      (hrefused : page.RefusedAt path.segments)

/-! ## What the constructor makes of them -/

theorem plainField_declared :
    (∀ field ∈ WireTrade.declared, PlainField field) ∧
    (∀ field ∈ WireMakerOrder.declared, PlainField field) ∧
    ∀ field ∈ WireOrder.declared, PlainField field := by
  simp [WireTrade.declared, WireMakerOrder.declared, WireOrder.declared, PlainField]

theorem segments_ne_nil (path : OwnedPath endpoint) : path.segments ≠ [] := by
  cases path <;> exact List.cons_ne_nil _ _

theorem plainField_segments (path : OwnedPath endpoint) :
    ∀ segment ∈ path.segments, PlainField segment.field := by
  have hdata : PlainField "data" := by simp [PlainField]
  have horders : PlainField "maker_orders" := by simp [PlainField]
  obtain ⟨htrade, hleg, horder⟩ := plainField_declared
  cases path with
  | trade tradeIndex field declared => simpa [segments] using ⟨hdata, htrade field declared⟩
  | leg tradeIndex makerIndex field declared =>
    simpa [segments] using ⟨hdata, horders, hleg field declared⟩
  | order orderIndex field declared => simpa [segments] using ⟨hdata, horder field declared⟩

theorem render_segments (path : OwnedPath endpoint) : render path.segments = path.text := by
  have hstring : ∀ s : String, toString s = s := fun _ => rfl
  rw [← String.toList_inj, render, String.toList_ofList]
  cases path <;>
    simp [segments, text, segmentText, bracketed, hstring, List.intercalate_cons_cons,
      List.intercalate_singleton, String.toList_append, Nat.toString_eq_repr, Nat.toList_repr]

/-- Apart from the fields that are left out, the allow-list has every declared field, and what
    leads to it. -/
theorem listed_iff (path : OwnedPath endpoint) :
    path.Listed ↔ ∀ segment ∈ path.segments, segment.field ∈ endpoint.fields := by
  have htrade : ∀ field ∈ WireTrade.declared,
      field ∉ unlisted .trades ↔ field ∈ AuthenticatedEndpoint.trades.fields := by decide
  have hleg : ∀ field ∈ WireMakerOrder.declared,
      field ∉ unlisted .trades ↔ field ∈ AuthenticatedEndpoint.trades.fields := by decide
  have horder : ∀ field ∈ WireOrder.declared,
      field ∉ unlisted .order ↔ field ∈ AuthenticatedEndpoint.order.fields := by decide
  have hdata : "data" ∈ AuthenticatedEndpoint.trades.fields ∧
      "maker_orders" ∈ AuthenticatedEndpoint.trades.fields ∧
      "data" ∈ AuthenticatedEndpoint.order.fields := by decide
  unfold Listed
  cases path with
  | trade tradeIndex f declared => simpa [segments, field, hdata.1] using htrade f declared
  | leg tradeIndex makerIndex f declared =>
    simpa [segments, field, hdata.1, hdata.2.1] using hleg f declared
  | order orderIndex f declared => simpa [segments, field, hdata.2.2] using horder f declared

theorem responseSchemaDecode_text (path : OwnedPath endpoint) :
    responseSchemaDecode endpoint path.text =
      some (errorKind (Rspm.responseSchemaDecode endpoint path.segments)) := by
  rw [← render_segments]
  exact responseSchemaDecode_render path.segments_ne_nil path.plainField_segments

theorem errorKind_of_listed {path : OwnedPath endpoint} (h : path.Listed) :
    errorKind (Rspm.responseSchemaDecode endpoint path.segments) =
      .responseSchemaDecode endpoint.asStr path.text none := by
  have hsafe : Rspm.authenticatedResponsePathIsSafe endpoint path.segments = true := by
    simpa [Rspm.authenticatedResponsePathIsSafe] using path.listed_iff.1 h
  rw [Rspm.responseSchemaDecode, if_pos hsafe, errorKind, render_segments]

theorem errorKind_of_not_listed {path : OwnedPath endpoint} (h : ¬ path.Listed) :
    errorKind (Rspm.responseSchemaDecode endpoint path.segments) =
      .requestFailed endpoint.asStr .unclassified := by
  have hunsafe : ¬ Rspm.authenticatedResponsePathIsSafe endpoint path.segments = true := by
    intro hsafe
    exact h (path.listed_iff.2 (by simpa [Rspm.authenticatedResponsePathIsSafe] using hsafe))
  rw [Rspm.responseSchemaDecode, if_neg hunsafe, errorKind]

end OwnedPath

/-! ## Pages -/

section

variable {body : List UInt8}

theorem decode_of_error {α : Type} {endpoint : AuthenticatedEndpoint} {reader : Reader α}
    {path : OwnedPath endpoint} (h : reader.deserialize body = .error path.text) :
    decode endpoint reader body =
      some (.error (errorKind (Rspm.responseSchemaDecode endpoint path.segments))) := by
  unfold decode
  rw [h]
  dsimp only
  rw [path.responseSchemaDecode_text]
  rfl

theorem decode_of_ok {α : Type} {endpoint : AuthenticatedEndpoint} {reader : Reader α} {value : α}
    (hread : reader.deserialize body = .ok value) (hended : reader.ended body = true) :
    decode endpoint reader body = some (.ok value) := by
  unfold decode
  rw [hread]
  exact if_pos hended

/-- The error of a page of trades is what the constructor makes of the path, with the digest. -/
theorem tradePageDecodeJson_of_failsAt {reader : Reader Trades.WireTradePage}
    {path : OwnedPath .trades} (digest : List UInt8 → String) (h : path.FailsAt reader body) :
    tradePageDecodeJson reader digest body =
      some (.error ((errorKind (Rspm.responseSchemaDecode .trades path.segments)).withResponseDigest
        (digest body))) := by
  unfold tradePageDecodeJson
  cases h with
  | decoding hread =>
    rw [decode_of_error hread]
    rfl
  | validation hread hended hframed hrefused =>
    rw [decode_of_ok hread hended, Option.map_some]
    have hpage := ofWire_of_framed hframed
    rw [trades_eq_error.2 ⟨path.segments, hrefused, rfl⟩] at hpage
    rw [Except.bind, hpage]
    rfl

theorem orderPageDecodeJson_of_error {reader : Reader Orders.WireOrderPage}
    {path : OwnedPath .order} (h : reader.deserialize body = .error path.text) :
    orderPageDecodeJson reader body =
      some (.error (errorKind (Rspm.responseSchemaDecode .order path.segments))) := by
  unfold orderPageDecodeJson
  rw [decode_of_error h]
  rfl

/-- What is kept of a path, when the error is what the constructor makes of it. -/
theorem OwnedPath.kept_iff {α : Type} {endpoint : AuthenticatedEndpoint}
    (path : OwnedPath endpoint) {e : AuthenticatedEndpointErrorKind}
    {outcome : Option (Except AuthenticatedEndpointErrorKind α)}
    (hlisted : path.Listed → ∃ digest,
      e = .responseSchemaDecode endpoint.asStr path.text digest)
    (hunlisted : ¬ path.Listed → e = .requestFailed endpoint.asStr .unclassified)
    (houtcome : outcome = some (.error e)) :
    (path.Kept outcome ↔ path.Listed) ∧
      (outcome = some (.error (.requestFailed endpoint.asStr .unclassified)) ↔ ¬ path.Listed) := by
  subst houtcome
  by_cases h : path.Listed
  · obtain ⟨digest, rfl⟩ := hlisted h
    exact ⟨⟨fun _ => h, fun _ => ⟨digest, rfl⟩⟩, ⟨fun he => (by cases he), fun hn => absurd h hn⟩⟩
  · obtain rfl := hunlisted h
    refine ⟨⟨?_, fun h' => absurd h' h⟩, ⟨fun _ => h, fun _ => rfl⟩⟩
    rintro ⟨digest, he⟩
    cases he

end

/-- Where a page of trades fails, in the reader or in the checks of an element, or where the
    reader fails on a page of orders: at a declared field, the error keeps exactly the path if and
    only if the allow-list has the field, and is a request failure without a class otherwise. -/
theorem owned_path_kept_iff (digest : List UInt8 → String) (body : List UInt8) :
    (∀ (reader : Reader Trades.WireTradePage) (path : OwnedPath .trades),
      path.FailsAt reader body →
      (path.Kept (tradePageDecodeJson reader digest body) ↔ path.Listed) ∧
      (tradePageDecodeJson reader digest body =
        some (.error (.requestFailed AuthenticatedEndpoint.trades.asStr .unclassified)) ↔
          ¬ path.Listed)) ∧
    ∀ (reader : Reader Orders.WireOrderPage) (path : OwnedPath .order),
      reader.deserialize body = .error path.text →
      (path.Kept (orderPageDecodeJson reader body) ↔ path.Listed) ∧
      (orderPageDecodeJson reader body =
        some (.error (.requestFailed AuthenticatedEndpoint.order.asStr .unclassified)) ↔
          ¬ path.Listed) := by
  refine ⟨fun reader path hfails => ?_, fun reader path hfails => ?_⟩
  · refine path.kept_iff (fun h => ⟨some (digest body), ?_⟩) (fun h => ?_)
      (tradePageDecodeJson_of_failsAt digest hfails)
    · rw [OwnedPath.errorKind_of_listed h]
      rfl
    · rw [OwnedPath.errorKind_of_not_listed h]
      rfl
  · exact path.kept_iff (fun h => ⟨none, OwnedPath.errorKind_of_listed h⟩)
      OwnedPath.errorKind_of_not_listed (orderPageDecodeJson_of_error hfails)

/-- A fee that is a number, where a text is expected. -/
def numericFee : List UInt8 := "\x7b\"data\":[\x7b\"fee_usdc\":1\x7d]\x7d".toUTF8.toList

/-- What the reader reports for `numericFee`, and a page without trades for other bodies. -/
def feeReader : Reader Trades.WireTradePage where
  deserialize body := if body = numericFee then .error "data[0].fee_usdc" else .ok ⟨[], "", 100, 0⟩
  ended _ := true

def feePath : OwnedPath .trades := .trade 0 "fee_usdc" (by decide)

theorem feePath_failsAt : feePath.FailsAt feeReader numericFee := .decoding (if_pos rfl)

/-- A status that no order has. -/
def newStatus : List UInt8 :=
  "\x7b\"data\":[\x7b\"status\":\"ORDER_STATUS_NEW\"\x7d]\x7d".toUTF8.toList

/-- What the reader reports for `newStatus`, and a page without orders for other bodies. -/
def statusReader : Reader Orders.WireOrderPage where
  deserialize body := if body = newStatus then .error "data[0].status" else .ok ⟨[], "", 100, 0⟩
  ended _ := true

def statusPath : OwnedPath .order := .order 0 "status" (by decide)

theorem owned_path_kept_iff_sample :
    tradePageDecodeJson feeReader (fun _ => "") numericFee =
      some (.error (.requestFailed "clob.authenticated_trades" .unclassified)) ∧
    statusPath.Kept (orderPageDecodeJson statusReader newStatus) :=
  ⟨(((owned_path_kept_iff (fun _ => "") numericFee).1 feeReader feePath feePath_failsAt).2).2
      (by decide),
    (((owned_path_kept_iff (fun _ => "") newStatus).2 statusReader statusPath
      (if_pos rfl)).1).2 (by decide)⟩

/-- The path of the numeric fee is lost. -/
theorem owned_path_not_kept : feePath.FailsAt feeReader numericFee ∧
    ¬ feePath.Kept (tradePageDecodeJson feeReader (fun _ => "") numericFee) := by
  refine ⟨feePath_failsAt, ?_⟩
  rintro ⟨digest, he⟩
  rw [tradePageDecodeJson_of_failsAt _ feePath_failsAt,
    OwnedPath.errorKind_of_not_listed (by decide)] at he
  cases he

end ResponsePath

end Rspm
