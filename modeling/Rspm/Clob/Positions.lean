/-
  The inventory of positions, page by page.

  What is fetched is held in an `Inventory`, whose positions are of one wallet
  and of pairwise distinct tokens.  `position_inventory_exact`: the inventory is
  the pages that were served, sorted, or there is none.
-/
import Rspm.Lib.Decoding
import Rspm.Lib.Paging
import Rspm.Utils.Canonical
import Rspm.Auth.Decode

namespace Rspm

open Decoding Paging

namespace Positions

def pageLimit : ℕ := 500
def maxOffset : ℕ := 10000
def maxResponseBytes : ℕ := 8 * 1024 * 1024

structure WirePosition where
  proxyWallet : String
  asset : String
  conditionId : String
  /-- the raw text of the value -/
  size : String
  /-- the raw text of the value -/
  avgPrice : String
  slug : String
  outcome : String
  redeemable : Bool
  mergeable : Bool

structure PositionInventoryEntry where
  proxyWallet : Address
  asset : U256
  conditionId : B256
  size : ℚ
  averagePrice : ℚ
  slug : String
  outcome : String
  redeemable : Bool
  mergeable : Bool

/-- The `from_str` of the types of the SDK, and `Decimal::from_str_exact`. -/
structure SdkTypes where
  address : String → Option Address
  u256 : String → Option U256
  b256 : String → Option B256
  decimal : String → Option ℚ

def schemaError (field : String) : AuthenticatedEndpointError :=
  responseSchemaDecode .positions [⟨field, []⟩]

def orSchemaError {α : Type} (value : Option α) (field : String) :
    Except AuthenticatedEndpointError α :=
  match value with
  | some value => .ok value
  | none => .error (schemaError field)

def exactJsonDecimal (types : SdkTypes) (text field : String) :
    Except AuthenticatedEndpointError ℚ :=
  if !canonicalNonnegativeDecimalText text then .error (schemaError field)
  else orSchemaError (types.decimal text) field

/-- `try_from`. -/
def PositionInventoryEntry.tryFrom (types : SdkTypes) (position : WirePosition) :
    Except AuthenticatedEndpointError PositionInventoryEntry := do
  let proxyWallet ← orSchemaError (types.address position.proxyWallet) "proxyWallet"
  if !canonicalUnsignedIntegerText position.asset then .error (schemaError "asset")
  let asset ← orSchemaError (types.u256 position.asset) "asset"
  let conditionId ← orSchemaError (types.b256 position.conditionId) "conditionId"
  let size ← exactJsonDecimal types position.size "size"
  let averagePrice ← exactJsonDecimal types position.avgPrice "avgPrice"
  if size ≤ 0 || averagePrice ≤ 0 || averagePrice > 1 || position.slug.isEmpty ||
      position.slug.utf8ByteSize > 512 || position.outcome.isEmpty ||
      position.outcome.utf8ByteSize > 256 then .error (.requestFailed .positions)
  return { proxyWallet, asset, conditionId, size, averagePrice, slug := position.slug,
           outcome := position.outcome, redeemable := position.redeemable,
           mergeable := position.mergeable }

/-- `decode_page`.  `json` is `decode_json` of the list. -/
def decodePage (types : SdkTypes)
    (json : List UInt8 → Except AuthenticatedEndpointError (List WirePosition))
    (body : List UInt8) : Except AuthenticatedEndpointError (List PositionInventoryEntry) := do
  let wire ← json body
  if wire.length > pageLimit then .error (.requestFailed .positions)
  wire.mapM (PositionInventoryEntry.tryFrom types)

def nextOffset (offset pageLen : ℕ) : Except AuthenticatedEndpointError (Option ℕ) :=
  if pageLen < pageLimit then .ok none
  else if offset + pageLimit ≥ 2 ^ 64 then .error (.requestFailed .positions)
  else if offset + pageLimit > maxOffset then .error (.requestFailed .positions)
  else .ok (some (offset + pageLimit))

example : nextOffset 9500 500 = .ok (some 10000) := rfl
example : nextOffset 10000 500 = .error (.requestFailed .positions) := rfl

/-- The query pairs of a request. -/
structure PositionsQuery where
  user : Address
  sizeThreshold : ℕ
  limit : ℕ
  offset : ℕ

def positionsQuery (proxyWallet : Address) (offset : ℕ) : PositionsQuery :=
  { user := proxyWallet, sizeThreshold := 0, limit := pageLimit, offset }

def PositionInventoryEntry.identity (position : PositionInventoryEntry) : B256 × U256 :=
  (position.conditionId, position.asset)

/-- The order of `sort_by_key`. -/
def PositionInventoryEntry.sortKey (position : PositionInventoryEntry) : ℕ ×ₗ ℕ :=
  toLex (position.conditionId.toNat, position.asset.toNat)

def sortByKey (positions : List PositionInventoryEntry) : List PositionInventoryEntry :=
  positions.mergeSort fun p q => p.sortKey ≤ q.sortKey

/-! ## The inventory -/

/-- The positions so far, and their identities. -/
structure Inventory (proxyWallet : Address) where
  positions : List PositionInventoryEntry
  identities : Finset (B256 × U256)
  identities_eq : identities = (positions.map PositionInventoryEntry.identity).toFinset
  nodup : (positions.map PositionInventoryEntry.identity).Nodup
  owned : ∀ position ∈ positions, position.proxyWallet = proxyWallet

namespace Inventory

variable {proxyWallet : Address}

theorem ext {inventory inventory' : Inventory proxyWallet}
    (h : inventory.positions = inventory'.positions) : inventory = inventory' := by
  obtain ⟨positions, identities, rfl, _, _⟩ := inventory
  obtain ⟨positions', identities', rfl, _, _⟩ := inventory'
  obtain rfl := h
  rfl

/-- The inventory of a list of positions. -/
def ofList (positions : List PositionInventoryEntry)
    (nodup : (positions.map PositionInventoryEntry.identity).Nodup)
    (owned : ∀ position ∈ positions, position.proxyWallet = proxyWallet) :
    Inventory proxyWallet :=
  ⟨positions, _, rfl, nodup, owned⟩

def empty : Inventory proxyWallet := ofList [] (by simp) (by simp)

/-- The body of the loop over a page. -/
def push (inventory : Inventory proxyWallet) (position : PositionInventoryEntry) :
    Except AuthenticatedEndpointError (Inventory proxyWallet) :=
  if h : position.proxyWallet = proxyWallet ∧ position.identity ∉ inventory.identities then
    .ok {
      positions := inventory.positions ++ [position]
      identities := insert position.identity inventory.identities
      identities_eq := by
        rw [inventory.identities_eq, List.map_append, List.toFinset_append, Finset.union_comm]
        rfl
      nodup := by
        rw [inventory.identities_eq, List.mem_toFinset] at h
        rw [List.map_append, List.nodup_append']
        refine ⟨inventory.nodup, List.nodup_singleton _, ?_⟩
        rw [List.disjoint_right]
        simpa using h.2
      owned := by
        rw [List.forall_mem_append]
        exact ⟨inventory.owned, by simpa using h.1⟩ }
  else .error (.requestFailed .positions)

/-- A position is pushed if what then is held is an inventory. -/
theorem push_eq_ok {inventory inventory' : Inventory proxyWallet}
    {position : PositionInventoryEntry} :
    inventory.push position = .ok inventory' ↔
      inventory'.positions = inventory.positions ++ [position] := by
  unfold push
  constructor
  · intro h
    split_ifs at h
    obtain rfl := Except.ok.inj h
    rfl
  · intro h
    have howned := inventory'.owned
    have hnodup := inventory'.nodup
    rw [h] at howned
    rw [h, List.map_append, List.nodup_append', List.disjoint_right] at hnodup
    rw [dif_pos]
    · exact congrArg Except.ok (ext h.symm)
    · refine ⟨howned position (by simp), ?_⟩
      rw [inventory.identities_eq, List.mem_toFinset]
      exact hnodup.2.2 (by simp)

theorem pushAll_eq_ok {page : List PositionInventoryEntry} :
    ∀ {inventory inventory' : Inventory proxyWallet},
      page.foldlM push inventory = .ok inventory' ↔
        inventory'.positions = inventory.positions ++ page := by
  induction page with
  | nil =>
    intro inventory inventory'
    rw [List.foldlM_nil, List.append_nil]
    constructor
    · intro h
      obtain rfl := Except.ok.inj h
      rfl
    · intro h
      exact congrArg Except.ok (ext h.symm)
  | cons position page ih =>
    intro inventory inventory'
    rw [List.foldlM_cons]
    constructor
    · intro h
      cases hp : inventory.push position with
      | error e =>
        rw [hp] at h
        cases h
      | ok middle =>
        rw [hp] at h
        rw [ih.1 h, push_eq_ok.1 hp, List.append_assoc]
        rfl
    · intro h
      have hprefix : inventory.positions ++ [position] ++ page = inventory'.positions := by
        rw [h, List.append_assoc]
        rfl
      have hnodup := inventory'.nodup
      have howned := inventory'.owned
      rw [← hprefix, List.map_append, List.nodup_append'] at hnodup
      rw [← hprefix, List.forall_mem_append] at howned
      have hmiddle : inventory.push position = .ok (ofList _ hnodup.1 howned.1) :=
        push_eq_ok.2 rfl
      rw [hmiddle]
      exact ih.2 hprefix.symm

end Inventory

/-! ## Fetching -/

section Fetch

variable (types : SdkTypes)
  (json : List UInt8 → Except AuthenticatedEndpointError (List WirePosition))
  (server : PositionsQuery → Option Response) (proxyWallet : Address)

/-- The page at an offset. -/
def page (offset : ℕ) : Except AuthenticatedEndpointError (List PositionInventoryEntry) :=
  match server (positionsQuery proxyWallet offset) with
  | none => .error (.requestFailed .positions)
  | some response =>
    match response.readBody maxResponseBytes with
    | none => .error (.requestFailed .positions)
    | some body => decodePage types json body

/-- The body of the loop. -/
def turn (offset : ℕ) (inventory : Inventory proxyWallet) :
    Except AuthenticatedEndpointError (Inventory proxyWallet × Option ℕ) := do
  let page ← page types json server proxyWallet offset
  let inventory ← page.foldlM Inventory.push inventory
  let next ← nextOffset offset page.length
  return (inventory, next)

variable {types json server proxyWallet}

theorem turn_eq_ok {offset : ℕ} {inventory inventory' : Inventory proxyWallet}
    {next : Option ℕ} :
    turn types json server proxyWallet offset inventory = .ok (inventory', next) ↔
      ∃ served, page types json server proxyWallet offset = .ok served ∧
        inventory'.positions = inventory.positions ++ served ∧
        nextOffset offset served.length = .ok next := by
  unfold turn
  simp only [← Inventory.pushAll_eq_ok]
  cases hpage : page types json server proxyWallet offset with
  | error e => simp [bind, Except.bind]
  | ok served =>
    cases hpush : served.foldlM Inventory.push inventory with
    | error e => simp [bind, Except.bind, hpush]
    | ok pushed =>
      cases hnext : nextOffset offset served.length with
      | error e => simp [bind, Except.bind, hpush, hnext]
      | ok next' => simp [bind, Except.bind, pure, Except.pure, hpush, hnext]

theorem nextOffset_eq_some {offset pageLen next : ℕ}
    (h : nextOffset offset pageLen = .ok (some next)) :
    pageLimit ≤ pageLen ∧ next = offset + pageLimit ∧ next ≤ maxOffset := by
  unfold nextOffset at h
  split_ifs at h with h1 h2 h3
  · cases h
  · obtain rfl := Option.some.inj (Except.ok.inj h)
    exact ⟨not_lt.1 h1, rfl, not_lt.1 h3⟩

theorem nextOffset_eq_none {offset pageLen : ℕ} :
    nextOffset offset pageLen = .ok none ↔ pageLen < pageLimit := by
  unfold nextOffset
  split_ifs with h1 h2 h3
  · simp [h1]
  · simp [h1]
  · simp [h1]
  · simp [h1]

variable (types json server proxyWallet)

/-- The loop of `fetch`. -/
def pager : Pager AuthenticatedEndpointError (Inventory proxyWallet) where
  limit := pageLimit
  maxOffset := maxOffset
  turn := turn types json server proxyWallet
  limit_pos := by decide
  next := by
    intro offset inventory inventory' next h
    obtain ⟨served, -, -, hnext⟩ := turn_eq_ok.1 h
    exact (nextOffset_eq_some hnext).2

/-- `fetch`: the offsets that were asked for, and the result. -/
def fetch : List ℕ × Except AuthenticatedEndpointError (List PositionInventoryEntry) :=
  let run := (pager types json server proxyWallet).run 0 Inventory.empty
  (run.1, run.2.map fun inventory => sortByKey inventory.positions)

end Fetch

/-! ## Pages that are served -/

section Served

variable {types : SdkTypes}
  {json : List UInt8 → Except AuthenticatedEndpointError (List WirePosition)}
  {server : PositionsQuery → Option Response} {proxyWallet : Address}

variable (types json server proxyWallet)

/-- What the server lists at an offset, if it can be read. -/
def wirePage (offset : ℕ) : List WirePosition :=
  match server (positionsQuery proxyWallet offset) with
  | none => []
  | some response =>
    match response.readBody maxResponseBytes with
    | none => []
    | some body => (json body).toOption.getD []

/-- The pages were served at the offsets, and only the last is short. -/
structure Served (offsets : List ℕ) (pages : List (List PositionInventoryEntry)) : Prop where
  served : List.Forall₂
    (fun offset served => page types json server proxyWallet offset = .ok served) offsets pages
  full : ∀ served ∈ pages.dropLast, served.length = pageLimit
  short : ∀ served ∈ pages.getLast?, served.length < pageLimit

variable {types json server proxyWallet}

theorem page_eq_ok {offset : ℕ} {served : List PositionInventoryEntry}
    (h : page types json server proxyWallet offset = .ok served) :
    (wirePage json server proxyWallet offset).mapM (PositionInventoryEntry.tryFrom types) =
      .ok served ∧ served.length ≤ pageLimit := by
  unfold page at h
  unfold wirePage
  cases hserver : server (positionsQuery proxyWallet offset) with
  | none =>
    rw [hserver] at h
    cases h
  | some response =>
    rw [hserver] at h
    dsimp only at h ⊢
    cases hbody : response.readBody maxResponseBytes with
    | none =>
      rw [hbody] at h
      cases h
    | some body =>
      rw [hbody] at h
      dsimp only [decodePage] at h ⊢
      cases hjson : json body with
      | error e =>
        rw [hjson] at h
        cases h
      | ok wire =>
        rw [hjson] at h
        by_cases hlength : wire.length > pageLimit
        · simp [bind, Except.bind, hlength] at h
        · simp only [bind, Except.bind, hlength, if_false] at h
          refine ⟨h, ?_⟩
          rw [← (mapM_eq_ok.1 h).length_eq]
          exact not_lt.1 hlength

/-- One turn more. -/
theorem Served.cons {offset : ℕ} {offsets : List ℕ} {served : List PositionInventoryEntry}
    {pages : List (List PositionInventoryEntry)}
    (hpage : page types json server proxyWallet offset = .ok served)
    (hfull : pageLimit ≤ served.length) (hne : pages ≠ [])
    (h : Served types json server proxyWallet offsets pages) :
    Served types json server proxyWallet (offset :: offsets) (served :: pages) where
  served := .cons hpage h.served
  full := by
    rw [List.dropLast_cons_of_ne_nil hne, List.forall_mem_cons]
    exact ⟨(page_eq_ok hpage).2.antisymm hfull, h.full⟩
  short := by
    rw [List.getLast?_cons_of_ne_nil hne]
    exact h.short

/-- A run that ends holds the pages that were served to it. -/
theorem run_served (offset : ℕ) (inventory : Inventory proxyWallet) :
    ∀ inventory', ((pager types json server proxyWallet).run offset inventory).2 =
        .ok inventory' → ∃ pages, pages ≠ [] ∧
      Served types json server proxyWallet
        ((pager types json server proxyWallet).run offset inventory).1 pages ∧
      inventory'.positions = inventory.positions ++ pages.flatten := by
  induction offset, inventory using Pager.run_induction
    (p := pager types json server proxyWallet) with
  | error offset inventory e _ =>
    intro inventory' h
    cases h
  | last offset inventory inventory' hturn =>
    intro inventory'' h
    obtain rfl := Except.ok.inj h
    obtain ⟨served, hpage, hpositions, hnext⟩ := turn_eq_ok.1 hturn
    refine ⟨[served], by simp, ⟨.cons hpage .nil, by simp, ?_⟩, by simpa using hpositions⟩
    simpa using nextOffset_eq_none.1 hnext
  | next offset inventory middle next requests result hturn ih =>
    intro inventory' h
    obtain ⟨served, hpage, hpositions, hnext⟩ := turn_eq_ok.1 hturn
    obtain ⟨pages, hne, hserved, hrest⟩ := ih inventory' h
    refine ⟨served :: pages, by simp, .cons hpage (nextOffset_eq_some hnext).1 hne hserved, ?_⟩
    rw [hrest, hpositions, List.flatten_cons, List.append_assoc]

end Served

/-! ## A server of slices -/

section Slices

variable {types : SdkTypes}
  {json : List UInt8 → Except AuthenticatedEndpointError (List WirePosition)}
  {server : PositionsQuery → Option Response} {proxyWallet : Address}

variable (json server proxyWallet)

/-- The server serves the slices of a list, in bodies that are within the bound. -/
def Slices (wire : List WirePosition) : Prop :=
  ∀ offset, ∃ (response : Response) (parts : List (List UInt8)),
    server (positionsQuery proxyWallet offset) = some response ∧ response.success = true ∧
    (∀ length ∈ response.contentLength, length ≤ maxResponseBytes) ∧
    response.chunks = parts.map some ∧ parts.flatten.length ≤ maxResponseBytes ∧
    json parts.flatten = .ok ((wire.drop offset).take pageLimit)

variable {json server proxyWallet}

variable {wire : List WirePosition} {positions : List PositionInventoryEntry}
  (hslices : Slices json server proxyWallet wire)
  (hwire : wire.mapM (PositionInventoryEntry.tryFrom types) = .ok positions)
  (howned : ∀ position ∈ positions, position.proxyWallet = proxyWallet)
  (hnodup : (positions.map PositionInventoryEntry.identity).Nodup)

include hslices hwire

theorem page_of_slices (offset : ℕ) :
    page types json server proxyWallet offset = .ok ((positions.drop offset).take pageLimit) := by
  obtain ⟨response, parts, hserver, hsuccess, hlength, hchunks, hbound, hjson⟩ := hslices offset
  have hbody : response.readBody maxResponseBytes = some parts.flatten :=
    Response.readBody_eq_some.2 ⟨hsuccess, hlength, ⟨parts, hchunks, rfl⟩, hbound⟩
  have hle : ¬ ((wire.drop offset).take pageLimit).length > pageLimit := by
    rw [List.length_take]
    omega
  have hdecode : ((wire.drop offset).take pageLimit).mapM (PositionInventoryEntry.tryFrom types) =
      .ok ((positions.drop offset).take pageLimit) :=
    mapM_eq_ok.2 (List.forall₂_take _ (List.forall₂_drop _ (mapM_eq_ok.1 hwire)))
  unfold page
  rw [hserver]
  dsimp only
  rw [hbody]
  simp only [decodePage, hjson, bind, Except.bind, hle, if_false]
  exact hdecode

include howned hnodup

/-- A turn adds the slice at its offset, if there is a next offset or none is needed. -/
theorem turn_of_slices {offset : ℕ} {inventory : Inventory proxyWallet}
    (hinventory : inventory.positions = positions.take offset) {next : Option ℕ}
    (hnext : nextOffset offset ((positions.drop offset).take pageLimit).length = .ok next) :
    ∃ inventory', turn types json server proxyWallet offset inventory = .ok (inventory', next) := by
  refine ⟨.ofList (positions.take (offset + pageLimit)) ?_ ?_, turn_eq_ok.2
    ⟨_, page_of_slices hslices hwire offset, ?_, hnext⟩⟩
  · rw [List.map_take]
    exact hnodup.sublist (List.take_sublist _ _)
  · intro position hposition
    exact howned position (List.mem_of_mem_take hposition)
  · rw [hinventory]
    exact List.take_add

/-- From the offset of a page on, with the positions before it. -/
theorem run_of_slices (offset : ℕ) (inventory : Inventory proxyWallet) :
    pageLimit ∣ offset → offset ≤ maxOffset → offset ≤ positions.length →
    inventory.positions = positions.take offset →
    (positions.length < maxOffset + pageLimit → ∃ inventory',
      ((pager types json server proxyWallet).run offset inventory).2 = .ok inventory' ∧
        inventory'.positions = positions) ∧
    (maxOffset + pageLimit ≤ positions.length → ∃ e,
      ((pager types json server proxyWallet).run offset inventory).2 = .error e) := by
  have hadded : ∀ {offset next} {inventory inventory' : Inventory proxyWallet},
      inventory.positions = positions.take offset →
      turn types json server proxyWallet offset inventory = .ok (inventory', next) →
      inventory'.positions = positions.take (offset + pageLimit) ∧
        nextOffset offset (min pageLimit (positions.length - offset)) = .ok next := by
    intro offset next inventory inventory' hinventory h
    obtain ⟨served, hpage, hpositions, hnext⟩ := turn_eq_ok.1 h
    obtain rfl := Except.ok.inj ((page_of_slices hslices hwire offset).symm.trans hpage)
    rw [List.length_take, List.length_drop] at hnext
    rw [hpositions, hinventory]
    exact ⟨List.take_add.symm, hnext⟩
  induction offset, inventory using Pager.run_induction
    (p := pager types json server proxyWallet) with
  | error offset inventory e h =>
    intro hdvd hoffset hle hinventory
    change turn types json server proxyWallet offset inventory = .error e at h
    refine ⟨fun hlt => ?_, fun _ => ⟨e, rfl⟩⟩
    -- the last offset is only reached by a list that is longer
    have hnext : ∃ next,
        nextOffset offset ((positions.drop offset).take pageLimit).length = .ok next := by
      rw [List.length_take, List.length_drop]
      unfold nextOffset
      unfold pageLimit maxOffset at *
      split_ifs
      · exact ⟨_, rfl⟩
      · omega
      · omega
      · exact ⟨_, rfl⟩
    obtain ⟨next, hnext⟩ := hnext
    obtain ⟨inventory', hok⟩ := turn_of_slices hslices hwire howned hnodup hinventory hnext
    rw [h] at hok
    cases hok
  | last offset inventory inventory' h =>
    intro hdvd hoffset hle hinventory
    obtain ⟨hpositions, hnext⟩ := hadded hinventory h
    rw [nextOffset_eq_none] at hnext
    have hend : positions.length ≤ offset + pageLimit := by omega
    refine ⟨fun _ => ⟨inventory', rfl, ?_⟩, fun hlong => ?_⟩
    · rw [hpositions, List.take_of_length_le hend]
    · omega
  | next offset inventory middle next requests result h ih =>
    intro hdvd hoffset hle hinventory
    obtain ⟨hpositions, hnext⟩ := hadded hinventory h
    obtain ⟨hfull, rfl, hbound⟩ := nextOffset_eq_some hnext
    exact ih (hdvd.add (dvd_refl _)) hbound (by omega) hpositions

end Slices

/-! ## The inventory is exact -/

theorem sortKey_injective {position position' : PositionInventoryEntry} :
    position.sortKey = position'.sortKey ↔ position.identity = position'.identity := by
  unfold PositionInventoryEntry.sortKey PositionInventoryEntry.identity
  rw [toLex_inj, Prod.mk.injEq, Prod.mk.injEq, BitVec.toNat_inj, BitVec.toNat_inj]

/-- Positions with distinct identities are sorted strictly. -/
theorem sortByKey_pairwise {positions : List PositionInventoryEntry}
    (h : (positions.map PositionInventoryEntry.identity).Nodup) :
    (sortByKey positions).Pairwise (fun p q => p.sortKey < q.sortKey) ∧
      ((sortByKey positions).map PositionInventoryEntry.identity).Nodup := by
  have hperm : (sortByKey positions).Perm positions := List.mergeSort_perm _ _
  have hnodup : ((sortByKey positions).map PositionInventoryEntry.identity).Nodup :=
    (hperm.map _).nodup_iff.2 h
  have hsorted : (sortByKey positions).Pairwise fun p q => p.sortKey ≤ q.sortKey := by
    have htrans : ∀ p q r : PositionInventoryEntry, decide (p.sortKey ≤ q.sortKey) = true →
        decide (q.sortKey ≤ r.sortKey) = true → decide (p.sortKey ≤ r.sortKey) = true := by
      intro p q r hpq hqr
      simp only [decide_eq_true_eq] at hpq hqr ⊢
      exact hpq.trans hqr
    have htotal : ∀ p q : PositionInventoryEntry,
        (decide (p.sortKey ≤ q.sortKey) || decide (q.sortKey ≤ p.sortKey)) = true := by
      intro p q
      simpa using le_total p.sortKey q.sortKey
    exact (List.pairwise_mergeSort htrans htotal positions).imp fun h => of_decide_eq_true h
  refine ⟨?_, hnodup⟩
  rw [List.nodup_iff_pairwise_ne, List.pairwise_map] at hnodup
  exact hsorted.imp₂ (fun p q hle hne => lt_of_le_of_ne hle (sortKey_injective.not.2 hne)) hnodup

section Exact

variable {types : SdkTypes}
  {json : List UInt8 → Except AuthenticatedEndpointError (List WirePosition)}
  {server : PositionsQuery → Option Response} {proxyWallet : Address}

variable (types) in
/-- The identity of a position that is valid. -/
def WirePosition.identity? (position : WirePosition) : Option (B256 × U256) :=
  (PositionInventoryEntry.tryFrom types position).toOption.map PositionInventoryEntry.identity

variable (types json server proxyWallet) in
/-- A page that was asked for lists a position that is invalid or of another wallet, or the pages
    list a position twice. -/
def Refusable : Prop :=
  (∃ offset ∈ (fetch types json server proxyWallet).1,
    ∃ position ∈ wirePage json server proxyWallet offset,
      ∀ entry, PositionInventoryEntry.tryFrom types position = .ok entry →
        entry.proxyWallet ≠ proxyWallet) ∨
  ¬ (((fetch types json server proxyWallet).1.flatMap
    (wirePage json server proxyWallet)).filterMap (WirePosition.identity? types)).Nodup

/-- What is served is what is listed. -/
theorem Served.forall₂ {offsets : List ℕ} {pages : List (List PositionInventoryEntry)}
    (h : Served types json server proxyWallet offsets pages) :
    (offsets.flatMap (wirePage json server proxyWallet)).mapM
      (PositionInventoryEntry.tryFrom types) = .ok pages.flatten := by
  rw [mapM_eq_ok]
  have hserved := h.served
  clear h
  induction hserved with
  | nil => exact .nil
  | cons hpage _ ih =>
    rw [List.flatMap_cons, List.flatten_cons]
    exact List.rel_append (mapM_eq_ok.1 (page_eq_ok hpage).1) ih

theorem filterMap_identity? {wire : List WirePosition} {positions : List PositionInventoryEntry}
    (h : wire.mapM (PositionInventoryEntry.tryFrom types) = .ok positions) :
    wire.filterMap (WirePosition.identity? types) =
      positions.map PositionInventoryEntry.identity := by
  have hentries := mapM_eq_ok.1 h
  clear h
  induction hentries with
  | nil => rfl
  | cons hentry _ ih =>
    simp [WirePosition.identity?, hentry, ih, Except.toOption]

/-- A fetch that succeeds: what it was served, sorted. -/
theorem fetch_eq_ok {positions : List PositionInventoryEntry}
    (h : (fetch types json server proxyWallet).2 = .ok positions) :
    ∃ pages, Served types json server proxyWallet (fetch types json server proxyWallet).1 pages ∧
      positions = sortByKey pages.flatten ∧
      (pages.flatten.map PositionInventoryEntry.identity).Nodup ∧
      ∀ position ∈ pages.flatten, position.proxyWallet = proxyWallet := by
  unfold fetch at h
  dsimp only at h
  cases hrun : ((pager types json server proxyWallet).run 0 Inventory.empty).2 with
  | error e =>
    rw [hrun] at h
    cases h
  | ok inventory =>
    rw [hrun] at h
    obtain rfl := Except.ok.inj h
    obtain ⟨pages, -, hserved, hpositions⟩ := run_served 0 Inventory.empty inventory hrun
    have hflat : inventory.positions = pages.flatten := hpositions
    refine ⟨pages, hserved, congrArg sortByKey hflat, ?_, ?_⟩
    · rw [← hflat]
      exact inventory.nodup
    · rw [← hflat]
      exact inventory.owned

theorem not_refusable {positions : List PositionInventoryEntry}
    (h : (fetch types json server proxyWallet).2 = .ok positions) :
    ¬ Refusable types json server proxyWallet := by
  obtain ⟨pages, hserved, -, hnodup, howned⟩ := fetch_eq_ok h
  have hwire := hserved.forall₂
  rintro (⟨offset, hoffset, position, hposition, hbad⟩ | hdup)
  · have hmem : position ∈ (fetch types json server proxyWallet).1.flatMap
        (wirePage json server proxyWallet) := List.mem_flatMap.2 ⟨offset, hoffset, hposition⟩
    obtain ⟨entry, hentry, hok⟩ := mapM_mem hwire hmem
    exact hbad entry hok (howned entry hentry)
  · rw [filterMap_identity? hwire] at hdup
    exact hdup hnodup

/-- Requests are at most 21, a page apart.  An inventory is the pages that were served, of one
    wallet, without duplicates and sorted; of a server of slices it is the whole list, unless the
    list is beyond the last page; and what a page lists that is not in an inventory is an error. -/
theorem position_inventory_exact (types : SdkTypes)
    (json : List UInt8 → Except AuthenticatedEndpointError (List WirePosition))
    (server : PositionsQuery → Option Response) (proxyWallet : Address) :
    (∃ n, n ≤ 20 ∧ (fetch types json server proxyWallet).1 =
      (List.range (n + 1)).map fun i => pageLimit * i) ∧
    (∀ positions, (fetch types json server proxyWallet).2 = .ok positions →
      (∃ pages, Served types json server proxyWallet
        (fetch types json server proxyWallet).1 pages ∧ positions = sortByKey pages.flatten) ∧
      (positions.Pairwise fun p q => p.sortKey < q.sortKey) ∧
      (positions.map PositionInventoryEntry.identity).Nodup ∧
      ∀ position ∈ positions, position.proxyWallet = proxyWallet) ∧
    (∀ wire positions, Slices json server proxyWallet wire →
      wire.mapM (PositionInventoryEntry.tryFrom types) = .ok positions →
      (∀ position ∈ positions, position.proxyWallet = proxyWallet) →
      (positions.map PositionInventoryEntry.identity).Nodup →
      ((fetch types json server proxyWallet).2 = .ok (sortByKey positions) ↔
        wire.length < maxOffset + pageLimit) ∧
      (maxOffset + pageLimit ≤ wire.length →
        ∃ e, (fetch types json server proxyWallet).2 = .error e)) ∧
    (Refusable types json server proxyWallet →
      ∃ e, (fetch types json server proxyWallet).2 = .error e) := by
  refine ⟨?_, ?_, ?_, ?_⟩
  · obtain ⟨n, hoffsets, hn⟩ :=
      (pager types json server proxyWallet).run_offsets 0 Inventory.empty
    refine ⟨n, ?_, ?_⟩
    · change n = 0 ∨ 0 + 500 * n ≤ 10000 at hn
      omega
    · exact hoffsets.trans (by simp [pager])
  · intro positions h
    obtain ⟨pages, hserved, rfl, hnodup, howned⟩ := fetch_eq_ok h
    obtain ⟨hsorted, hnodup'⟩ := sortByKey_pairwise hnodup
    refine ⟨⟨pages, hserved, rfl⟩, hsorted, hnodup', ?_⟩
    intro position hposition
    exact howned position (List.mem_mergeSort.1 hposition)
  · intro wire positions hslices hwire howned hnodup
    rw [(mapM_eq_ok.1 hwire).length_eq]
    obtain ⟨hshort, hlong⟩ := run_of_slices hslices hwire howned hnodup 0 Inventory.empty
      (dvd_zero _) (Nat.zero_le _) (Nat.zero_le _) rfl
    have herror : maxOffset + pageLimit ≤ positions.length →
        ∃ e, (fetch types json server proxyWallet).2 = .error e := by
      intro hle
      obtain ⟨e, he⟩ := hlong hle
      refine ⟨e, ?_⟩
      unfold fetch
      dsimp only
      rw [he]
      rfl
    refine ⟨⟨?_, ?_⟩, herror⟩
    · intro h
      by_contra hle
      obtain ⟨e, he⟩ := herror (not_lt.1 hle)
      rw [he] at h
      cases h
    · intro hlt
      obtain ⟨inventory, hok, hpositions⟩ := hshort hlt
      unfold fetch
      dsimp only
      rw [hok, ← hpositions]
      rfl
  · intro hrefusable
    cases h : (fetch types json server proxyWallet).2 with
    | error e => exact ⟨e, rfl⟩
    | ok positions => exact absurd hrefusable (not_refusable h)

end Exact

/-! ## A list of two pages -/

def samplePosition (n : ℕ) : WirePosition where
  proxyWallet := "0x1111111111111111111111111111111111111111"
  asset := n.repr
  conditionId := "0x2222222222222222222222222222222222222222222222222222222222222222"
  size := "1.25"
  avgPrice := "0.45"
  slug := "market"
  outcome := "Yes"
  redeemable := false
  mergeable := false

def sampleTypes : SdkTypes where
  address _ := some 0x1111111111111111111111111111111111111111#160
  u256 text := some (BitVec.ofNat 256 (integerValue text))
  b256 _ := some 0x2222222222222222222222222222222222222222222222222222222222222222#256
  decimal text := if text = "1.25" then some (5 / 4) else some (9 / 20)

def sampleEntry (n : ℕ) : PositionInventoryEntry where
  proxyWallet := 0x1111111111111111111111111111111111111111#160
  asset := BitVec.ofNat 256 n
  conditionId := 0x2222222222222222222222222222222222222222222222222222222222222222#256
  size := 5 / 4
  averagePrice := 9 / 20
  slug := "market"
  outcome := "Yes"
  redeemable := false
  mergeable := false

def twoPages : List WirePosition := (List.range 501).map samplePosition

/-- A body of so many bytes is the page that starts there. -/
def sampleJson (body : List UInt8) : Except AuthenticatedEndpointError (List WirePosition) :=
  .ok ((twoPages.drop body.length).take pageLimit)

def sampleServer (query : PositionsQuery) : Option Response :=
  some ⟨true, none, [some (List.replicate (min query.offset twoPages.length) 0)]⟩

theorem tryFrom_samplePosition (n : ℕ) :
    PositionInventoryEntry.tryFrom sampleTypes (samplePosition n) = .ok (sampleEntry n) := by
  have hsize : canonicalNonnegativeDecimalText (samplePosition n).size = true := by
    show canonicalNonnegativeDecimalText "1.25" = true
    decide
  have hprice : canonicalNonnegativeDecimalText (samplePosition n).avgPrice = true := by
    show canonicalNonnegativeDecimalText "0.45" = true
    decide
  have hasset : canonicalUnsignedIntegerText (samplePosition n).asset = true :=
    canonicalUnsignedIntegerText_iff.2 ⟨n, rfl⟩
  have hsize' : sampleTypes.decimal (samplePosition n).size = some (5 / 4) := rfl
  have hprice' : sampleTypes.decimal (samplePosition n).avgPrice = some (9 / 20) := rfl
  unfold PositionInventoryEntry.tryFrom exactJsonDecimal
  rw [hsize, hprice, hasset, hsize', hprice']
  norm_num [orSchemaError, bind, Except.bind, pure, Except.pure, sampleTypes, samplePosition,
    sampleEntry, integerValue_repr]
  exact fun h => absurd h (by decide)

theorem slices_twoPages (proxyWallet : Address) :
    Slices sampleJson sampleServer proxyWallet twoPages := by
  intro offset
  have hlength : twoPages.length = 501 := by rw [twoPages, List.length_map, List.length_range]
  refine ⟨_, [List.replicate (min offset twoPages.length) 0], rfl, rfl, by simp, rfl, ?_, ?_⟩
  · rw [List.flatten_singleton, List.length_replicate, hlength]
    exact (min_le_right _ _).trans (by decide)
  · rw [List.flatten_singleton, sampleJson, List.length_replicate]
    obtain hle | hle := le_total offset twoPages.length
    · rw [min_eq_left hle]
    · rw [min_eq_right hle, List.drop_eq_nil_of_le hle, List.drop_length]

/-- A full page, and a page of one position. -/
theorem position_inventory_exact_two_pages :
    (fetch sampleTypes sampleJson sampleServer (sampleEntry 0).proxyWallet).2 =
      .ok (sortByKey ((List.range 501).map sampleEntry)) := by
  have hentries : twoPages.mapM (PositionInventoryEntry.tryFrom sampleTypes) =
      .ok ((List.range 501).map sampleEntry) := by
    rw [mapM_eq_ok, twoPages, List.forall₂_map_left_iff, List.forall₂_map_right_iff,
      List.forall₂_same]
    exact fun n _ => tryFrom_samplePosition n
  refine ((position_inventory_exact sampleTypes sampleJson sampleServer
    (sampleEntry 0).proxyWallet).2.2.1 twoPages ((List.range 501).map sampleEntry)
      (slices_twoPages _) hentries ?_ ?_).1.2 ?_
  · simp only [List.forall_mem_map]
    exact fun n _ => rfl
  · rw [List.map_map]
    refine List.nodup_range.map_on fun m hm n hn h => ?_
    have hasset : BitVec.ofNat 256 m = BitVec.ofNat 256 n := congrArg Prod.snd h
    rw [List.mem_range] at hm hn
    have hnat := congrArg BitVec.toNat hasset
    rw [BitVec.toNat_ofNat, BitVec.toNat_ofNat] at hnat
    omega
  · rw [twoPages, List.length_map, List.length_range]
    decide

end Positions

end Rspm
