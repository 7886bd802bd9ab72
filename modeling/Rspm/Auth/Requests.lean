/-
  What the owned reads ask the venue for: a path and a query for each of them.

  The filters of an inventory are pairs of a query, in the order of the source.
  `owned_read_determined`: the query reads back as the filters that are set, and
  two reads that ask for the same path and query are the same read.

  The checksum of an address and the escapes of a query come from other packages:
  the one changes the case of letters only, the others read as the bytes.
-/
import Rspm.Auth.Path
import Rspm.Auth.TradePage
import Rspm.Clob.Error
import Rspm.Lib.FormUrlEncoded
import Rspm.Sdk.Signing

namespace Rspm

open ResponsePath FormUrlEncoded

namespace Requests

/-! ## Queries -/

/-- The bytes of a text. -/
def utf8 (text : String) : List UInt8 := text.toByteArray.data.toList

theorem utf8_inj {a b : String} (h : utf8 a = utf8 b) : a = b :=
  String.toByteArray_inj.1 (ByteArray.ext (Array.toList_inj.1 h))

/-- What is written into a query by other packages. -/
structure QueryCrates where
  checksum : Address → String
  byteSerialize : List UInt8 → List Char

/-- `append_query_pair`. -/
def appendQueryPair (crates : QueryCrates) (query : List Char) (name : String)
    (value : Option String) : List Char :=
  match value with
  | some value => append crates.byteSerialize query (utf8 name, utf8 value)
  | none => query

/-- The pair of a filter that is set. -/
def filterPair (filter : String × Option String) : List (List UInt8 × List UInt8) :=
  (filter.2.map fun value => (utf8 filter.1, utf8 value)).toList

/-- The pairs of the filters that are set. -/
def filterPairs (filters : List (String × Option String)) : List (List UInt8 × List UInt8) :=
  filters.flatMap filterPair

/-- Filters one after another. -/
theorem foldl_appendQueryPair (crates : QueryCrates) (filters : List (String × Option String))
    (pairs : List (List UInt8 × List UInt8)) :
    filters.foldl (fun query filter => appendQueryPair crates query filter.1 filter.2)
        (serialize crates.byteSerialize pairs) =
      serialize crates.byteSerialize (pairs ++ filterPairs filters) := by
  induction filters generalizing pairs with
  | nil => simp [filterPairs]
  | cons filter filters ih =>
    have happend : appendQueryPair crates (serialize crates.byteSerialize pairs) filter.1
        filter.2 = serialize crates.byteSerialize (pairs ++ filterPair filter) := by
      rcases filter with ⟨name, _ | value⟩
      · simp [appendQueryPair, filterPair]
      · simp [appendQueryPair, filterPair, serialize, List.foldl_append]
    rw [List.foldl_cons, happend, ih, filterPairs, filterPairs, List.flatMap_cons,
      List.append_assoc]

@[simp] theorem filterPairs_none (name : String) (filters : List (String × Option String)) :
    filterPairs ((name, none) :: filters) = filterPairs filters := rfl

@[simp] theorem filterPairs_some (name value : String) (filters : List (String × Option String)) :
    filterPairs ((name, some value) :: filters) =
      (utf8 name, utf8 value) :: filterPairs filters := rfl

/-- A filter is read off the pairs by its name. -/
theorem lookup_filterPairs {filters : List (String × Option String)}
    (hnames : (filters.map Prod.fst).Nodup) {name : String} {value : Option String}
    (hmem : (name, value) ∈ filters) :
    (filterPairs filters).lookup (utf8 name) = value.map utf8 := by
  -- a name that no filter has is not found
  have hmissing : ∀ {filters : List (String × Option String)} {name : String},
      name ∉ filters.map Prod.fst → (filterPairs filters).lookup (utf8 name) = none := by
    intro filters name hnot
    induction filters with
    | nil => rfl
    | cons filter filters ih =>
      obtain ⟨hne, hrest⟩ := not_or.1 (List.mem_cons.not.1 hnot)
      rcases filter with ⟨name', _ | value'⟩
      · exact ih hrest
      · have hbytes : (utf8 name == utf8 name') = false :=
          beq_eq_false_iff_ne.2 fun h => hne (utf8_inj h)
        rw [filterPairs_some, List.lookup_cons, hbytes]
        exact ih hrest
  induction filters with
  | nil => cases hmem
  | cons filter filters ih =>
    obtain ⟨hnot, hnames'⟩ := List.nodup_cons.1 hnames
    rcases List.mem_cons.1 hmem with rfl | hmem
    · cases value with
      | none =>
        rw [filterPairs_none]
        exact hmissing hnot
      | some value => rw [filterPairs_some, List.lookup_cons_self, Option.map_some]
    · have hne : name ≠ filter.1 := by
        rintro rfl
        exact hnot (List.mem_map.2 ⟨_, hmem, rfl⟩)
      rw [← ih hnames' hmem]
      rcases filter with ⟨name', _ | value'⟩
      · rfl
      · have hbytes : (utf8 name == utf8 name') = false :=
          beq_eq_false_iff_ne.2 fun h => hne (utf8_inj h)
        rw [filterPairs_some, List.lookup_cons, hbytes]

/-- The pairs determine the filters. -/
theorem filter_eq {filters filters' : List (String × Option String)}
    (h : filterPairs filters = filterPairs filters') (hnames : (filters.map Prod.fst).Nodup)
    (hnames' : (filters'.map Prod.fst).Nodup) {name : String} {value value' : Option String}
    (hmem : (name, value) ∈ filters) (hmem' : (name, value') ∈ filters') : value = value' := by
  have hlookup := lookup_filterPairs hnames hmem
  rw [h, lookup_filterPairs hnames' hmem'] at hlookup
  exact Option.map_injective (fun _ _ => utf8_inj) hlookup.symm

/-! ## Texts of the values -/

/-- What `to_checksum` of another package computes: hexadecimal digits, some of them upper case. -/
def IsChecksum (checksum : Address → String) : Prop :=
  ∀ address, (checksum address).toList.map Char.toLower =
    '0' :: 'x' :: Hex.toHex 40 address.toNat

theorem IsChecksum.inj {checksum : Address → String} (h : IsChecksum checksum) {a b : Address}
    (heq : checksum a = checksum b) : a = b := by
  have hplace : (2 : ℕ) ^ 160 = 16 ^ 40 := by norm_num
  have hdigits := (h a).symm.trans ((congrArg (·.toList.map Char.toLower) heq).trans (h b))
  simp only [List.cons.injEq, true_and] at hdigits
  exact BitVec.eq_of_toNat_eq
    (Hex.toHex_inj (a.isLt.trans_eq hplace) (b.isLt.trans_eq hplace) hdigits)

/-- Checksums and escapes are as they are documented. -/
structure QueryCrates.Lawful (crates : QueryCrates) : Prop where
  checksum : IsChecksum crates.checksum
  byteSerialize : IsEncoding crates.byteSerialize

/-- `to_string` of a `U256`. -/
def u256Text (value : U256) : String := toString value.toNat

theorem u256Text_inj {a b : U256} (h : u256Text a = u256Text b) : a = b :=
  BitVec.eq_of_toNat_eq (Nat.repr_injective h)

/-! ## The reads -/

structure AuthenticatedTradesRequest where
  id : Option String
  makerAddress : Option Address
  market : Option B256
  assetId : Option U256
  before : Option ℤ
  after : Option ℤ
deriving DecidableEq

structure AuthenticatedOrdersRequest where
  orderId : Option String
  market : Option B256
  assetId : Option U256
deriving DecidableEq

/-- `request_failed`. -/
def requestFailed (endpoint : AuthenticatedEndpoint) : AuthenticatedEndpointErrorKind :=
  .requestFailed endpoint.asStr .unclassified

section

variable (crates : QueryCrates)

def AuthenticatedTradesRequest.filters (request : AuthenticatedTradesRequest)
    (nextCursor : Option String) : List (String × Option String) := [
  ("id", request.id), ("maker_address", request.makerAddress.map crates.checksum),
  ("market", request.market.map Sdk.hashText), ("asset_id", request.assetId.map u256Text),
  ("before", request.before.map toString), ("after", request.after.map toString),
  ("next_cursor", nextCursor)]

/-- `query`. -/
def AuthenticatedTradesRequest.query (request : AuthenticatedTradesRequest)
    (nextCursor : Option String) : Except AuthenticatedEndpointErrorKind String :=
  if request.before.any (· < 0) || request.after.any (· < 0) ||
      request.id.any (!venueIdentifierIsValid ·) || nextCursor.any (!cursorIsValid ·) then
    .error (requestFailed .trades)
  else
    .ok (String.ofList ((request.filters crates nextCursor).foldl
      (fun query filter => appendQueryPair crates query filter.1 filter.2) []))

def AuthenticatedOrdersRequest.filters (request : AuthenticatedOrdersRequest)
    (nextCursor : Option String) : List (String × Option String) := [
  ("id", request.orderId), ("market", request.market.map Sdk.hashText),
  ("asset_id", request.assetId.map u256Text), ("next_cursor", nextCursor)]

/-- `query`. -/
def AuthenticatedOrdersRequest.query (request : AuthenticatedOrdersRequest)
    (nextCursor : Option String) : Except AuthenticatedEndpointErrorKind String :=
  if request.orderId.any (!venueIdentifierIsValid ·) || nextCursor.any (!cursorIsValid ·) then
    .error (requestFailed .order)
  else
    .ok (String.ofList ((request.filters nextCursor).foldl
      (fun query filter => appendQueryPair crates query filter.1 filter.2) []))

end

/-- `authenticated_order_path`. -/
def authenticatedOrderPath (orderId : String) : Except AuthenticatedEndpointErrorKind String :=
  if venueIdentifierIsValid orderId then .ok ("/data/order/" ++ orderId)
  else .error (requestFailed .order)

/-- `query` of the balance. -/
def balanceQuery (signatureType : Sdk.SignatureType) : String :=
  "asset_type=COLLATERAL&signature_type=" ++ toString signatureType.asU8

/-- The reads of the owned clients. -/
inductive OwnedRead where
  | trades (request : AuthenticatedTradesRequest) (nextCursor : Option String)
  | orders (request : AuthenticatedOrdersRequest) (nextCursor : Option String)
  | order (orderId : String)
  | balanceAllowance
  | updateBalanceAllowance
  | protocolVersion
deriving DecidableEq

namespace OwnedRead

def endpoint : OwnedRead → AuthenticatedEndpoint
  | trades .. => .trades
  | orders .. | order _ => .order
  | balanceAllowance | updateBalanceAllowance => .balanceAllowance
  | protocolVersion => .protocolVersion

/-- The path that is asked for, and the query. -/
def target (crates : QueryCrates) (signatureType : Sdk.SignatureType) :
    OwnedRead → Except AuthenticatedEndpointErrorKind (String × Option String)
  | trades request nextCursor => do
    let query ← request.query crates nextCursor
    return ("/data/trades", some query)
  | orders request nextCursor => do
    let query ← request.query crates nextCursor
    return ("/data/orders", some query)
  | order orderId => do
    let path ← authenticatedOrderPath orderId
    return (path, none)
  | balanceAllowance => .ok ("/balance-allowance", some (balanceQuery signatureType))
  | updateBalanceAllowance => .ok ("/balance-allowance/update", some (balanceQuery signatureType))
  | protocolVersion => .ok ("/version", none)

/-! ## What a target says -/

def path : OwnedRead → String
  | trades .. => "/data/trades"
  | orders .. => "/data/orders"
  | order orderId => "/data/order/" ++ orderId
  | balanceAllowance => "/balance-allowance"
  | updateBalanceAllowance => "/balance-allowance/update"
  | protocolVersion => "/version"

/-- The filters of the query, set or not. -/
def filters (crates : QueryCrates) (signatureType : Sdk.SignatureType) :
    OwnedRead → List (String × Option String)
  | trades request nextCursor => request.filters crates nextCursor
  | orders request nextCursor => request.filters nextCursor
  | order _ | protocolVersion => []
  | balanceAllowance | updateBalanceAllowance =>
    [("asset_type", some "COLLATERAL"), ("signature_type", some (toString signatureType.asU8))]

/-- The texts of a read that the venue may see, and times that are not negative. -/
def Valid : OwnedRead → Prop
  | trades request nextCursor =>
    (∀ t ∈ request.before, 0 ≤ t) ∧ (∀ t ∈ request.after, 0 ≤ t) ∧
      (∀ id ∈ request.id, venueIdentifierIsValid id = true) ∧
      ∀ cursor ∈ nextCursor, cursorIsValid cursor = true
  | orders request nextCursor =>
    (∀ id ∈ request.orderId, venueIdentifierIsValid id = true) ∧
      ∀ cursor ∈ nextCursor, cursorIsValid cursor = true
  | order orderId => venueIdentifierIsValid orderId = true
  | _ => True

variable {crates : QueryCrates} {signatureType : Sdk.SignatureType}

/-- The text of a query that reads as the filters that are set. -/
structure Reads (text : String) (filters : List (String × Option String)) : Prop where
  pairs : FormUrlEncoded.parse text.toList = filterPairs filters
  chars : ∀ c ∈ text.toList, textChar c = true

theorem reads_serialize {encode : List UInt8 → List Char} (hencode : IsEncoding encode)
    (filters : List (String × Option String)) :
    Reads (String.ofList (serialize encode (filterPairs filters))) filters where
  pairs := by rw [String.toList_ofList, parse_serialize hencode]
  chars c hc := by
    rw [String.toList_ofList] at hc
    exact textChar_serialize hencode c hc

/-- The filters that are appended to a query. -/
theorem reads_foldl (hcrates : crates.Lawful) (filters : List (String × Option String)) :
    Reads (String.ofList (filters.foldl (fun query filter =>
      appendQueryPair crates query filter.1 filter.2) [])) filters := by
  rw [show ([] : List Char) = serialize crates.byteSerialize [] from rfl,
    foldl_appendQueryPair, List.nil_append]
  exact reads_serialize hcrates.byteSerialize filters

/-- The query of a balance has no escapes. -/
theorem reads_balanceQuery (signatureType : Sdk.SignatureType) :
    Reads (balanceQuery signatureType) [("asset_type", some "COLLATERAL"),
      ("signature_type", some (toString signatureType.asU8))] := by
  have hquery : balanceQuery signatureType =
      String.ofList (serialize FormUrlEncoded.byteSerialize (filterPairs
        [("asset_type", some "COLLATERAL"),
          ("signature_type", some (toString signatureType.asU8))])) := by
    cases signatureType <;> decide +kernel
  rw [hquery]
  exact reads_serialize isEncoding_byteSerialize _

theorem reads_nil : Reads "" [] := reads_serialize isEncoding_byteSerialize []

theorem not_any_iff {α : Type} {o : Option α} {p : α → Bool} :
    o.any p = false ↔ ∀ a ∈ o, p a = false := by
  cases o <;> simp

theorem tradesQuery_eq_ok {request : AuthenticatedTradesRequest} {nextCursor : Option String}
    {query : String} : request.query crates nextCursor = .ok query ↔
      (trades request nextCursor).Valid ∧
        String.ofList ((request.filters crates nextCursor).foldl
          (fun query filter => appendQueryPair crates query filter.1 filter.2) []) = query := by
  have hvalid : (request.before.any (· < 0) || request.after.any (· < 0) ||
      request.id.any (!venueIdentifierIsValid ·) || nextCursor.any (!cursorIsValid ·)) = false ↔
      (trades request nextCursor).Valid := by
    simp only [Bool.or_eq_false_iff, not_any_iff, decide_eq_false_iff_not, not_lt,
      Bool.not_eq_false', Valid, and_assoc]
  rw [AuthenticatedTradesRequest.query]
  split_ifs with hrefused
  · rw [← hvalid, hrefused]
    simp
  · rw [and_iff_right (hvalid.1 (Bool.not_eq_true _ ▸ hrefused)), Except.ok.injEq]

theorem ordersQuery_eq_ok {request : AuthenticatedOrdersRequest} {nextCursor : Option String}
    {query : String} : request.query crates nextCursor = .ok query ↔
      (orders request nextCursor).Valid ∧
        String.ofList ((request.filters nextCursor).foldl
          (fun query filter => appendQueryPair crates query filter.1 filter.2) []) = query := by
  have hvalid : (request.orderId.any (!venueIdentifierIsValid ·) ||
      nextCursor.any (!cursorIsValid ·)) = false ↔ (orders request nextCursor).Valid := by
    simp only [Bool.or_eq_false_iff, not_any_iff, Bool.not_eq_false', Valid]
  rw [AuthenticatedOrdersRequest.query]
  split_ifs with hrefused
  · rw [← hvalid, hrefused]
    simp
  · rw [and_iff_right (hvalid.1 (Bool.not_eq_true _ ▸ hrefused)), Except.ok.injEq]

/-- A target is of a valid read, and has its path. -/
theorem target_eq_ok {read : OwnedRead} {path : String} {query : Option String}
    (h : read.target crates signatureType = .ok (path, query)) :
    read.Valid ∧ path = read.path := by
  cases read with
  | trades request nextCursor =>
    simp only [target, Sdk.bind_eq_ok, Sdk.pure_eq_ok, tradesQuery_eq_ok, Prod.mk.injEq] at h
    obtain ⟨_, ⟨hvalid, -⟩, rfl, -⟩ := h
    exact ⟨hvalid, rfl⟩
  | orders request nextCursor =>
    simp only [target, Sdk.bind_eq_ok, Sdk.pure_eq_ok, ordersQuery_eq_ok, Prod.mk.injEq] at h
    obtain ⟨_, ⟨hvalid, -⟩, rfl, -⟩ := h
    exact ⟨hvalid, rfl⟩
  | order orderId =>
    simp only [target, Sdk.bind_eq_ok, Sdk.pure_eq_ok, Prod.mk.injEq, authenticatedOrderPath] at h
    obtain ⟨_, hpath, rfl, -⟩ := h
    split_ifs at hpath with hvalid
    cases hpath
    exact ⟨hvalid, rfl⟩
  | balanceAllowance | updateBalanceAllowance | protocolVersion =>
    cases h
    exact ⟨trivial, rfl⟩

/-- Its query reads as the filters. -/
theorem target_reads (hcrates : crates.Lawful) {read : OwnedRead} {path : String}
    {query : Option String} (h : read.target crates signatureType = .ok (path, query)) :
    Reads (query.getD "") (read.filters crates signatureType) := by
  cases read with
  | trades request nextCursor =>
    simp only [target, Sdk.bind_eq_ok, Sdk.pure_eq_ok, tradesQuery_eq_ok, Prod.mk.injEq] at h
    obtain ⟨_, ⟨-, rfl⟩, -, rfl⟩ := h
    exact reads_foldl hcrates _
  | orders request nextCursor =>
    simp only [target, Sdk.bind_eq_ok, Sdk.pure_eq_ok, ordersQuery_eq_ok, Prod.mk.injEq] at h
    obtain ⟨_, ⟨-, rfl⟩, -, rfl⟩ := h
    exact reads_foldl hcrates _
  | order orderId =>
    simp only [target, Sdk.bind_eq_ok, Sdk.pure_eq_ok, Prod.mk.injEq] at h
    obtain ⟨_, -, -, rfl⟩ := h
    exact reads_nil
  | balanceAllowance | updateBalanceAllowance =>
    cases h
    exact reads_balanceQuery signatureType
  | protocolVersion =>
    cases h
    exact reads_nil

/-- A read whose texts are valid has a target. -/
theorem exists_target {read : OwnedRead} (h : read.Valid) :
    ∃ query, read.target crates signatureType = .ok (read.path, query) := by
  cases read with
  | trades request nextCursor =>
    have hquery := (@tradesQuery_eq_ok crates _ _ _).2 ⟨h, rfl⟩
    exact ⟨_, by rw [target, hquery]; rfl⟩
  | orders request nextCursor =>
    have hquery := (@ordersQuery_eq_ok crates _ _ _).2 ⟨h, rfl⟩
    exact ⟨_, by rw [target, hquery]; rfl⟩
  | order orderId =>
    have hpath : authenticatedOrderPath orderId = .ok ("/data/order/" ++ orderId) := if_pos h
    exact ⟨none, by rw [target, hpath]; rfl⟩
  | balanceAllowance | updateBalanceAllowance | protocolVersion => exact ⟨_, rfl⟩

/-- The path of an order is none of the others. -/
theorem orderPath_ne {orderId other : String} (h : other.toList.take 12 ≠ "/data/order/".toList) :
    "/data/order/" ++ orderId ≠ other := by
  rintro rfl
  rw [String.toList_append] at h
  exact h (List.take_left' (by decide))

theorem nodup_filters (read : OwnedRead) :
    ((read.filters crates signatureType).map Prod.fst).Nodup := by
  cases read <;> simp [filters, AuthenticatedTradesRequest.filters,
    AuthenticatedOrdersRequest.filters]

/-- Reads of one path with the same filters are the same. -/
theorem eq_of_filters (hchecksum : IsChecksum crates.checksum) {read read' : OwnedRead}
    (hpath : read.path = read'.path)
    (h : filterPairs (read.filters crates signatureType) =
      filterPairs (read'.filters crates signatureType)) : read = read' := by
  have hfilter : ∀ {name : String} {value value' : Option String},
      (name, value) ∈ read.filters crates signatureType →
      (name, value') ∈ read'.filters crates signatureType → value = value' :=
    filter_eq h (nodup_filters read) (nodup_filters read')
  have hhash : Function.Injective (Option.map Sdk.hashText) :=
    Option.map_injective fun _ _ => Sdk.hashText_inj
  have hu256 : Function.Injective (Option.map u256Text) :=
    Option.map_injective fun _ _ => u256Text_inj
  have hint : Function.Injective (Option.map (toString : ℤ → String)) :=
    Option.map_injective fun _ _ => Int.repr_injective
  cases read <;> cases read'
  all_goals dsimp only [path] at hpath
  all_goals
    first
    | exact absurd hpath (by decide)
    | exact absurd hpath (orderPath_ne (by decide))
    | exact absurd hpath.symm (orderPath_ne (by decide))
    | skip
  case trades.trades request cursor request' cursor' =>
    have hid : request.id = request'.id := hfilter (.head _) (.head _)
    have hmaker := hfilter (.tail _ (.head _)) (.tail _ (.head _))
    have hmarket := hfilter (.tail _ (.tail _ (.head _))) (.tail _ (.tail _ (.head _)))
    have hasset := hfilter (.tail _ (.tail _ (.tail _ (.head _))))
      (.tail _ (.tail _ (.tail _ (.head _))))
    have htime := hfilter (.tail _ (.tail _ (.tail _ (.tail _ (.head _)))))
      (.tail _ (.tail _ (.tail _ (.tail _ (.head _)))))
    have htime' := hfilter (.tail _ (.tail _ (.tail _ (.tail _ (.tail _ (.head _))))))
      (.tail _ (.tail _ (.tail _ (.tail _ (.tail _ (.head _))))))
    have hcursor : cursor = cursor' :=
      hfilter (.tail _ (.tail _ (.tail _ (.tail _ (.tail _ (.tail _ (.head _)))))))
        (.tail _ (.tail _ (.tail _ (.tail _ (.tail _ (.tail _ (.head _)))))))
    have hmaker' := Option.map_injective (fun _ _ => hchecksum.inj) hmaker
    have hrequest : request = request' := by
      obtain ⟨id, maker, market, asset, before, after⟩ := request
      rw [AuthenticatedTradesRequest.mk.injEq]
      exact ⟨hid, hmaker', hhash hmarket, hu256 hasset, hint htime, hint htime'⟩
    rw [hrequest, hcursor]
  case orders.orders request cursor request' cursor' =>
    have hid : request.orderId = request'.orderId := hfilter (.head _) (.head _)
    have hmarket := hfilter (.tail _ (.head _)) (.tail _ (.head _))
    have hasset := hfilter (.tail _ (.tail _ (.head _))) (.tail _ (.tail _ (.head _)))
    have hcursor : cursor = cursor' := hfilter (.tail _ (.tail _ (.tail _ (.head _))))
      (.tail _ (.tail _ (.tail _ (.head _))))
    have hrequest : request = request' := by
      obtain ⟨id, market, asset⟩ := request
      rw [AuthenticatedOrdersRequest.mk.injEq]
      exact ⟨hid, hhash hmarket, hu256 hasset⟩
    rw [hrequest, hcursor]
  case order.order orderId orderId' =>
    have hlist := congrArg String.toList hpath
    rw [String.toList_append, String.toList_append, List.append_cancel_left_eq,
      String.toList_inj] at hlist
    rw [hlist]
  all_goals rfl

end OwnedRead

end Requests

open Requests in
/-- The query of a read reads as its filters, and two reads of one path and query are the same. -/
theorem owned_read_determined {crates : QueryCrates} (hcrates : crates.Lawful)
    (signatureType : Sdk.SignatureType) {read : OwnedRead} {path : String}
    {query : Option String} (h : read.target crates signatureType = .ok (path, query)) :
    FormUrlEncoded.parse (query.getD "").toList =
      filterPairs (read.filters crates signatureType) ∧
    ∀ (read' : OwnedRead) (query' : Option String),
      read'.target crates signatureType = .ok (path, query') →
      query.getD "" = query'.getD "" → read = read' := by
  obtain ⟨-, rfl⟩ := OwnedRead.target_eq_ok h
  have hreads := OwnedRead.target_reads hcrates h
  refine ⟨hreads.pairs, fun read' query' h' heq => ?_⟩
  obtain ⟨-, hpath⟩ := OwnedRead.target_eq_ok h'
  have hreads' := OwnedRead.target_reads hcrates h'
  rw [← heq] at hreads'
  exact OwnedRead.eq_of_filters hcrates.checksum hpath (hreads.pairs.symm.trans hreads'.pairs)

/-! ## A sample read -/

/-- The digits of an address, in lower case. -/
def Requests.lowerHex (address : Address) : String :=
  String.ofList ('0' :: 'x' :: Hex.toHex 40 address.toNat)

theorem Requests.isChecksum_lowerHex : IsChecksum lowerHex := by
  intro address
  have hlower : ∀ c ∈ Hex.toHex 40 address.toNat, c.toLower = c := by
    intro c hc
    have hall : Hex.lowerDigits.all (fun c => decide (c.toLower = c)) = true := by decide
    exact of_decide_eq_true (List.all_eq_true.1 hall c (Hex.mem_lowerDigits_toHex c hc))
  rw [lowerHex, String.toList_ofList, List.map_cons, List.map_cons, List.map_congr_left hlower,
    List.map_id']
  rfl

def Requests.QueryCrates.sample : QueryCrates where
  checksum := lowerHex
  byteSerialize := FormUrlEncoded.byteSerialize

theorem Requests.QueryCrates.lawful_sample : sample.Lawful where
  checksum := isChecksum_lowerHex
  byteSerialize := isEncoding_byteSerialize

/-- Trades of an asset by the account `7`, after a time, from a cursor on. -/
def Requests.sampleRead : OwnedRead :=
  .trades ⟨some "trade-1", some 7, none, some 42, none, some 1754611200⟩ (some "MTA+=")

open Requests in
theorem owned_read_determined_sampled :
    FormUrlEncoded.parse ("id=trade-1&maker_address=0x0000000000000000000000000000000000000007&" ++
        "asset_id=42&after=1754611200&next_cursor=MTA%2B%3D").toList =
      filterPairs (sampleRead.filters .sample .eoa) :=
  have h : sampleRead.target .sample .eoa = .ok ("/data/trades",
      some ("id=trade-1&maker_address=0x0000000000000000000000000000000000000007&" ++
        "asset_id=42&after=1754611200&next_cursor=MTA%2B%3D")) := by
    decide +kernel
  (owned_read_determined QueryCrates.lawful_sample .eoa h).1

end Rspm
