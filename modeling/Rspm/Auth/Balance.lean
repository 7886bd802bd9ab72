/-
  The capital that can be spent: the least of the balance and the allowances of
  the required spenders.

  `executable_capital_exact`: which responses are decoded, when a snapshot is
  taken, and that its capital is that minimum, whatever the order of the response
  and whatever else it lists.
-/
import Rspm.Lib.Decoding
import Rspm.Lib.Digits
import Rspm.Lib.Serde
import Rspm.Utils.Helpers
import Rspm.Auth.Decode

namespace Rspm

open Decoding Digits Serde

namespace Balance

def collateralScale : U256 := 1000000

/-- `polymarket::contract_config` of Polygon. -/
structure ContractConfig where
  exchange : Address
  exchangeV2 : Option Address
  negRiskAdapter : Option Address

abbrev Allowances := Finmap fun _ : Address => U256

structure RawBalanceAllowanceResponse where
  balance : U256
  allowances : Allowances

structure AuthenticatedBalanceSnapshot where
  protocolAuthority : AuthenticatedProtocolAuthority
  balanceRaw : U256
  requiredAllowancesRaw : Allowances
  executableCapital : ℚ

/-- What is read by other packages: documents, addresses and numbers, and the contracts. -/
structure Sdk where
  json : List UInt8 → Option Json
  /-- the path that is reported for a body that is not decoded -/
  errorPath : List UInt8 → List ResponseSegment
  /-- `Address::from_str` -/
  address : String → Option Address
  /-- `U256::from_str` -/
  u256 : String → Option U256
  /-- `Decimal::from_str_exact` -/
  fromStrExact : String → Option ℚ
  contractConfig : Bool → Option ContractConfig

/-! ## Decoding -/

section

variable (sdk : Sdk)

/-- `CanonicalU256::deserialize`. -/
def canonicalU256 : Json → Option U256
  | .string text => if !canonicalUnsignedIntegerText text then none else sdk.u256 text
  | _ => none

/-- The body of the loop of `visit_map`. -/
def visitEntry (allowances : Allowances) (entry : String × Json) : Option Allowances := do
  let value ← canonicalU256 sdk entry.2
  let address ← sdk.address entry.1
  if (allowances.lookup address).isSome then none else some (allowances.insert address value)

def deserializeAllowances : Json → Option Allowances
  | .object entries => entries.foldlM (visitEntry sdk) ∅
  | _ => none

def RawBalanceAllowanceResponse.deserialize (document : Json) :
    Option RawBalanceAllowanceResponse := do
  match ← document.record true ["balance", "allowances"] with
  | [balance, allowances] =>
    let balance ← canonicalU256 sdk balance
    let allowances ← deserializeAllowances sdk allowances
    return { balance, allowances }
  | _ => none

def balanceError (field : String) : AuthenticatedEndpointError :=
  responseSchemaDecode .balanceAllowance [⟨field, []⟩]

/-- `AuthenticatedEndpoint::decode`. -/
def decode (body : List UInt8) :
    Except AuthenticatedEndpointError RawBalanceAllowanceResponse :=
  match (sdk.json body).bind (RawBalanceAllowanceResponse.deserialize sdk) with
  | some raw => .ok raw
  | none => .error (responseSchemaDecode .balanceAllowance (sdk.errorPath body))

/-! ## The snapshot -/

def requiredSpenders (version : ProtocolVersion) :
    Except AuthenticatedEndpointError (List Address) :=
  match sdk.contractConfig false, sdk.contractConfig true with
  | some normal, some negRisk =>
    match negRisk.negRiskAdapter with
    | none => .error (.requestFailed .balanceAllowance)
    | some negRiskAdapter =>
      match version with
      | .v1 => .ok [normal.exchange, negRisk.exchange, negRiskAdapter]
      | .v2 =>
        match normal.exchangeV2, negRisk.exchangeV2 with
        | some normalExchange, some negRiskExchange =>
          .ok [normalExchange, negRiskExchange, negRiskAdapter]
        | _, _ => .error (.requestFailed .balanceAllowance)
  | _, _ => .error (.requestFailed .balanceAllowance)

def scaleCollateral (raw : U256) : Except AuthenticatedEndpointError ℚ :=
  let whole := (raw / collateralScale).toNat.repr
  let fraction := (raw % collateralScale).toNat.repr
  let text := whole ++ "." ++ String.ofList (List.replicate (6 - fraction.length) '0') ++ fraction
  match sdk.fromStrExact text with
  | some capital => .ok capital
  | none => .error (balanceError "balance")

/-- `U256::min`. -/
def u256Min (a b : U256) : U256 := if a.toNat ≤ b.toNat then a else b

theorem u256Min_right_comm (a : U256) (_ : Address) (b : U256) (_ : Address) (c : U256) :
    u256Min (u256Min a b) c = u256Min (u256Min a c) b := by
  unfold u256Min
  split_ifs <;> first | rfl | (apply BitVec.eq_of_toNat_eq; omega)

/-- The fold of `U256::min` over the values, from the balance. -/
def bindingRaw (balanceRaw : U256) (allowances : Allowances) : U256 :=
  allowances.foldl (fun binding _ allowance => u256Min binding allowance) u256Min_right_comm
    balanceRaw

def AuthenticatedBalanceSnapshot.tryFromRequiredRaw
    (protocolAuthority : AuthenticatedProtocolAuthority) (balanceRaw : U256)
    (requiredAllowancesRaw : Allowances) :
    Except AuthenticatedEndpointError AuthenticatedBalanceSnapshot :=
  if requiredAllowancesRaw.keys = ∅ then .error (balanceError "allowances")
  else do
    let executableCapital ← scaleCollateral sdk (bindingRaw balanceRaw requiredAllowancesRaw)
    return { protocolAuthority, balanceRaw, requiredAllowancesRaw, executableCapital }

/-- The body of the loop over the required spenders. -/
def require (allowances required : Allowances) (spender : Address) :
    Except AuthenticatedEndpointError Allowances :=
  match allowances.lookup spender with
  | some allowance => .ok (required.insert spender allowance)
  | none => .error (balanceError "allowances")

def selectRequiredSnapshot (raw : RawBalanceAllowanceResponse)
    (protocolAuthority : AuthenticatedProtocolAuthority) :
    Except AuthenticatedEndpointError AuthenticatedBalanceSnapshot := do
  let spenders ← requiredSpenders sdk protocolAuthority.version
  let required ← spenders.foldlM (require raw.allowances) ∅
  AuthenticatedBalanceSnapshot.tryFromRequiredRaw sdk protocolAuthority raw.balance required

end

/-! ## Numbers -/

/-- A decimal text: digits, and the digits after a point if there are any. -/
def decimalText (whole fraction : List Char) : String :=
  String.ofList (if fraction = [] then whole else whole ++ '.' :: fraction)

/-- What `Decimal::from_str_exact` makes of a decimal text: it takes those of at most 28 decimals
    whose mantissa is below `2 ^ 96`, as they stand. -/
def ReadsDecimals (fromStrExact : String → Option ℚ) : Prop :=
  ∀ whole fraction : List Char, whole ≠ [] → (∀ c ∈ whole, c.isDigit) →
    (∀ c ∈ fraction, c.isDigit) →
    fromStrExact (decimalText whole fraction) =
      if fraction.length ≤ 28 ∧ value (whole ++ fraction) < 2 ^ 96 then
        some ((value (whole ++ fraction) : ℚ) / 10 ^ fraction.length)
      else none

/-- What `U256::from_str` makes of a canonical text: the number, if it is below `2 ^ 256`. -/
def ReadsU256 (fromStr : String → Option U256) : Prop :=
  ∀ text : String, canonicalUnsignedIntegerText text →
    fromStr text =
      if value text.toList < 2 ^ 256 then some (BitVec.ofNat 256 (value text.toList)) else none

section

variable {sdk : Sdk}

theorem scaleCollateral_eq (hdecimals : ReadsDecimals sdk.fromStrExact) (raw : U256) :
    scaleCollateral sdk raw =
      if raw.toNat < 2 ^ 96 then .ok ((raw.toNat : ℚ) / 10 ^ 6)
      else .error (balanceError "balance") := by
  have hwhole : (raw / collateralScale).toNat = raw.toNat / 1000000 := BitVec.toNat_udiv
  have hfraction : (raw % collateralScale).toNat = raw.toNat % 1000000 := BitVec.toNat_umod
  have hlength : (Nat.toDigits 10 (raw.toNat % 1000000)).length ≤ 6 :=
    length_toDigits_le (by decide) (Nat.mod_lt _ (by decide))
  have hpad : (padLeft 6 (Nat.toDigits 10 (raw.toNat % 1000000))).length = 6 :=
    length_padLeft hlength
  have hvalue : value (Nat.toDigits 10 (raw.toNat / 1000000) ++
      padLeft 6 (Nat.toDigits 10 (raw.toNat % 1000000))) = raw.toNat := by
    rw [value_append, hpad, value_padLeft, value_toDigits, value_toDigits]
    exact Nat.div_add_mod raw.toNat 1000000
  have htext : (raw / collateralScale).toNat.repr ++ "." ++
      String.ofList (List.replicate (6 - (raw % collateralScale).toNat.repr.length) '0') ++
        (raw % collateralScale).toNat.repr =
      decimalText (Nat.toDigits 10 (raw.toNat / 1000000))
        (padLeft 6 (Nat.toDigits 10 (raw.toNat % 1000000))) := by
    have hne : padLeft 6 (Nat.toDigits 10 (raw.toNat % 1000000)) ≠ [] := by
      intro h
      rw [h] at hpad
      cases hpad
    unfold decimalText
    rw [if_neg hne, hwhole, hfraction]
    apply String.toList_injective
    simp [padLeft, Nat.toList_repr, ← String.length_toList]
  unfold scaleCollateral
  dsimp only
  rw [htext, hdecimals _ _ Nat.toDigits_ne_nil isDigit_toDigits (isDigit_padLeft isDigit_toDigits),
    hvalue, hpad]
  by_cases h : raw.toNat < 2 ^ 96
  · rw [if_pos ⟨by decide, h⟩, if_pos h]
  · rw [if_neg (by tauto), if_neg h]

theorem toNat_u256Min (a b : U256) : (u256Min a b).toNat = min a.toNat b.toNat := by
  unfold u256Min
  split_ifs <;> omega

/-- The binding minimum: the greatest number that is at most the balance and each allowance. -/
theorem le_bindingRaw {n : ℕ} {balanceRaw : U256} {allowances : Allowances} :
    n ≤ (bindingRaw balanceRaw allowances).toNat ↔
      n ≤ balanceRaw.toNat ∧
        ∀ spender allowance, allowances.lookup spender = some allowance → n ≤ allowance.toNat := by
  induction allowances using Finmap.induction_on with
  | H allowances =>
    have hfold : ∀ (entries : List (Sigma fun _ : Address => U256)) (start : U256),
        n ≤ (entries.foldl (fun binding entry => u256Min binding entry.2) start).toNat ↔
          n ≤ start.toNat ∧ ∀ entry ∈ entries, n ≤ entry.2.toNat := by
      intro entries
      induction entries with
      | nil => simp
      | cons entry entries ih =>
        intro start
        rw [List.foldl_cons, ih, toNat_u256Min, List.forall_mem_cons, le_min_iff, and_assoc]
    refine (hfold allowances.entries balanceRaw).trans (and_congr_right fun _ => ?_)
    constructor
    · intro h spender allowance hlookup
      rw [Finmap.lookup_toFinmap] at hlookup
      exact h ⟨spender, allowance⟩ (AList.mem_lookup_iff.1 hlookup)
    · rintro h ⟨spender, allowance⟩ hmem
      refine h spender allowance ?_
      rw [Finmap.lookup_toFinmap]
      exact AList.mem_lookup_iff.2 hmem

/-! ## The required spenders -/

/-- The least of the balance and of the allowances of some spenders. -/
def minimum (raw : RawBalanceAllowanceResponse) (spenders : List Address) : ℕ :=
  (spenders.filterMap fun spender => raw.allowances.lookup spender).foldl
    (fun least allowance => min least allowance.toNat) raw.balance.toNat

theorem le_minimum {n : ℕ} {raw : RawBalanceAllowanceResponse} {spenders : List Address} :
    n ≤ minimum raw spenders ↔
      n ≤ raw.balance.toNat ∧ ∀ spender ∈ spenders, ∀ allowance,
        raw.allowances.lookup spender = some allowance → n ≤ allowance.toNat := by
  have hfold : ∀ (allowances : List U256) (start : ℕ),
      n ≤ allowances.foldl (fun least allowance => min least allowance.toNat) start ↔
        n ≤ start ∧ ∀ allowance ∈ allowances, n ≤ allowance.toNat := by
    intro allowances
    induction allowances with
    | nil => simp
    | cons allowance allowances ih =>
      intro start
      rw [List.foldl_cons, ih, List.forall_mem_cons, le_min_iff, and_assoc]
  refine (hfold _ _).trans (and_congr_right fun _ => ?_)
  constructor
  · intro h spender hspender allowance hlookup
    exact h allowance (List.mem_filterMap.2 ⟨spender, hspender, hlookup⟩)
  · intro h allowance hmem
    obtain ⟨spender, hspender, hlookup⟩ := List.mem_filterMap.1 hmem
    exact h spender hspender allowance hlookup

/-- The required allowances are those of the spenders, if each has one. -/
theorem require_eq_ok {allowances : Allowances} {spenders : List Address} :
    ∀ {required : Allowances},
      ((∀ spender ∈ spenders, spender ∈ allowances) ∧
        ∃ required', spenders.foldlM (require allowances) required = .ok required' ∧
          ∀ spender, required'.lookup spender =
            if spender ∈ spenders then allowances.lookup spender else required.lookup spender) ∨
      (¬ ∀ spender ∈ spenders, spender ∈ allowances) ∧
        spenders.foldlM (require allowances) required = .error (balanceError "allowances") := by
  induction spenders with
  | nil =>
    intro required
    exact .inl ⟨by simp, required, rfl, by simp⟩
  | cons spender spenders ih =>
    intro required
    rw [List.foldlM_cons]
    cases hlookup : allowances.lookup spender with
    | none =>
      refine .inr ⟨?_, ?_⟩
      · intro h
        exact Finmap.lookup_eq_none.1 hlookup (h spender List.mem_cons_self)
      · simp only [require, hlookup]
        rfl
    | some allowance =>
      have hstep : require allowances required spender =
          .ok (required.insert spender allowance) := by
        simp only [require, hlookup]
      rw [hstep]
      rcases @ih (required.insert spender allowance) with
        ⟨hmem, required', hok, hrequired⟩ | ⟨hmissing, herror⟩
      · refine .inl ⟨List.forall_mem_cons.2 ⟨Finmap.mem_of_lookup_eq_some hlookup, hmem⟩,
          required', hok, fun spender' => ?_⟩
        rw [hrequired]
        by_cases hmem : spender' ∈ spenders
        · simp [hmem]
        · by_cases heq : spender' = spender
          · subst heq
            rw [if_neg hmem, if_pos List.mem_cons_self, Finmap.lookup_insert, hlookup]
          · rw [if_neg hmem, Finmap.lookup_insert_of_ne _ heq, if_neg (by simp [heq, hmem])]
      · exact .inr ⟨fun h => hmissing fun spender' h' => h spender' (List.mem_cons_of_mem _ h'),
          herror⟩

theorem requiredSpenders_ne_nil {version : ProtocolVersion} {spenders : List Address}
    (h : requiredSpenders sdk version = .ok spenders) : spenders ≠ [] := by
  unfold requiredSpenders at h
  rintro rfl
  split at h
  · split at h
    · cases h
    · split at h
      · cases h
      · split at h <;> cases h
  · cases h

/-- A snapshot is taken if each required spender has an allowance, and the minimum is below the
    bound of `Decimal`; its capital is the minimum. -/
theorem selectRequiredSnapshot_eq (raw : RawBalanceAllowanceResponse)
    {authority : AuthenticatedProtocolAuthority} {spenders : List Address}
    (hdecimals : ReadsDecimals sdk.fromStrExact)
    (hspenders : requiredSpenders sdk authority.version = .ok spenders) :
    (∃ required : Allowances, (∀ spender ∈ spenders, spender ∈ raw.allowances) ∧
      minimum raw spenders < 2 ^ 96 ∧
      (∀ spender, required.lookup spender =
        if spender ∈ spenders then raw.allowances.lookup spender else none) ∧
      selectRequiredSnapshot sdk raw authority =
        .ok ⟨authority, raw.balance, required, (minimum raw spenders : ℚ) / 10 ^ 6⟩) ∨
    (¬ ((∀ spender ∈ spenders, spender ∈ raw.allowances) ∧ minimum raw spenders < 2 ^ 96) ∧
      ∃ e, selectRequiredSnapshot sdk raw authority = .error e) := by
  unfold selectRequiredSnapshot
  rw [hspenders]
  rcases @require_eq_ok raw.allowances spenders ∅ with
    ⟨hpresent, required, hok, hrequired⟩ | ⟨hmissing, herror⟩
  · have hlookup : ∀ spender, required.lookup spender =
        if spender ∈ spenders then raw.allowances.lookup spender else none := hrequired
    have hminimum : (bindingRaw raw.balance required).toNat = minimum raw spenders := by
      refine eq_of_forall_le_iff fun n => ?_
      rw [le_bindingRaw, le_minimum]
      refine and_congr_right fun _ => ⟨fun h spender hspender allowance hmem => ?_,
        fun h spender allowance hmem => ?_⟩
      · exact h spender allowance (by rw [hlookup, if_pos hspender, hmem])
      · rw [hlookup] at hmem
        split_ifs at hmem with hspender
        exact h spender hspender allowance hmem
    have hkeys : required.keys ≠ ∅ := by
      obtain ⟨spender, hspender⟩ := List.exists_mem_of_ne_nil _ (requiredSpenders_ne_nil hspenders)
      refine Finset.ne_empty_of_mem (a := spender) ?_
      rw [Finmap.mem_keys, ← Finmap.lookup_isSome, hlookup, if_pos hspender, Finmap.lookup_isSome]
      exact hpresent spender hspender
    simp only [bind, Except.bind, hok, AuthenticatedBalanceSnapshot.tryFromRequiredRaw,
      if_neg hkeys, scaleCollateral_eq hdecimals, hminimum]
    by_cases hbound : minimum raw spenders < 2 ^ 96
    · simp only [if_pos hbound]
      exact .inl ⟨required, hpresent, hbound, hlookup, rfl⟩
    · simp only [if_neg hbound]
      exact .inr ⟨fun h => hbound h.2, balanceError "balance", rfl⟩
  · refine .inr ⟨fun h => hmissing h.1, balanceError "allowances", ?_⟩
    simp only [bind, Except.bind, herror]

/-- Only the balance and the allowances of the required spenders matter. -/
theorem selectRequiredSnapshot_congr {raw raw' : RawBalanceAllowanceResponse}
    {authority : AuthenticatedProtocolAuthority} {spenders : List Address}
    (hspenders : requiredSpenders sdk authority.version = .ok spenders)
    (hbalance : raw.balance = raw'.balance)
    (hallowances : ∀ spender ∈ spenders,
      raw.allowances.lookup spender = raw'.allowances.lookup spender) :
    selectRequiredSnapshot sdk raw authority = selectRequiredSnapshot sdk raw' authority := by
  have hrequire : ∀ required, spenders.foldlM (require raw.allowances) required =
      spenders.foldlM (require raw'.allowances) required := by
    clear hspenders
    induction spenders with
    | nil => exact fun _ => rfl
    | cons spender spenders ih =>
      rw [List.forall_mem_cons] at hallowances
      intro required
      have hstep : require raw.allowances required spender =
          require raw'.allowances required spender := by
        unfold require
        rw [hallowances.1]
      rw [List.foldlM_cons, List.foldlM_cons, hstep]
      exact congrArg _ (funext (ih hallowances.2))
  unfold selectRequiredSnapshot
  rw [hspenders]
  simp only [bind, Except.bind, hrequire, hbalance]

/-! ## What is decoded -/

/-- The text is the canonical text of the amount, which is below `2 ^ 256`. -/
def CanonicalAmount (text : String) (amount : U256) : Prop :=
  canonicalUnsignedIntegerText text ∧ value text.toList = amount.toNat

/-- An entry of the response: an address, in whatever letter case, and a canonical amount. -/
def IsAllowance (sdk : Sdk) (entry : String × Json) (allowance : Address × U256) : Prop :=
  sdk.address entry.1 = some allowance.1 ∧
    ∃ text, entry.2 = .string text ∧ CanonicalAmount text allowance.2

theorem canonicalU256_eq_some (hu256 : ReadsU256 sdk.u256) {amount : Json} {v : U256} :
    canonicalU256 sdk amount = some v ↔
      ∃ text, amount = .string text ∧ CanonicalAmount text v := by
  constructor
  · intro h
    unfold canonicalU256 at h
    split at h
    · next text =>
      split_ifs at h with hcanonical
      rw [Bool.not_eq_true', Bool.not_eq_false] at hcanonical
      rw [hu256 text hcanonical] at h
      split_ifs at h with hbound
      obtain rfl := Option.some.inj h
      exact ⟨text, rfl, hcanonical, (Nat.mod_eq_of_lt hbound).symm⟩
    · cases h
  · rintro ⟨text, rfl, hcanonical, hvalue⟩
    have hbound : value text.toList < 2 ^ 256 := by
      rw [hvalue]
      exact v.isLt
    simp only [canonicalU256, hcanonical, Bool.not_true, Bool.false_eq_true, if_false]
    rw [hu256 text hcanonical, if_pos hbound, hvalue]
    exact congrArg some (BitVec.eq_of_toNat_eq (by simp))

/-- The address and the amount of an entry, if both are read. -/
def readEntry (sdk : Sdk) (entry : String × Json) : Option (Address × U256) :=
  (canonicalU256 sdk entry.2).bind fun v => (sdk.address entry.1).map fun address => (address, v)

theorem visitEntry_eq (allowances : Allowances) (entry : String × Json) :
    visitEntry sdk allowances entry = (readEntry sdk entry).bind fun allowance =>
      if allowance.1 ∈ allowances then none
      else some (allowances.insert allowance.1 allowance.2) := by
  unfold visitEntry readEntry
  cases canonicalU256 sdk entry.2 with
  | none => rfl
  | some v => cases sdk.address entry.1 <;> simp [bind, Option.bind, Finmap.lookup_isSome]

theorem readEntry_eq_some (hu256 : ReadsU256 sdk.u256) {entry : String × Json}
    {allowance : Address × U256} :
    readEntry sdk entry = some allowance ↔ IsAllowance sdk entry allowance := by
  unfold readEntry IsAllowance
  rw [Option.bind_eq_some_iff, ← canonicalU256_eq_some hu256]
  constructor
  · rintro ⟨v, hv, h⟩
    obtain ⟨address, haddress, rfl⟩ := Option.map_eq_some_iff.1 h
    exact ⟨haddress, hv⟩
  · rintro ⟨haddress, hv⟩
    exact ⟨allowance.2, hv, Option.map_eq_some_iff.2 ⟨allowance.1, haddress, rfl⟩⟩

/-- An entry that is visited is an allowance of an address that is new. -/
theorem visitEntry_eq_some (hu256 : ReadsU256 sdk.u256) {allowances allowances' : Allowances}
    {entry : String × Json} (h : visitEntry sdk allowances entry = some allowances') :
    ∃ allowance, IsAllowance sdk entry allowance ∧ allowance.1 ∉ allowances ∧
      allowances.insert allowance.1 allowance.2 = allowances' := by
  rw [visitEntry_eq, Option.bind_eq_some_iff] at h
  obtain ⟨allowance, hread, h⟩ := h
  split_ifs at h with hmem
  exact ⟨allowance, (readEntry_eq_some hu256).1 hread, hmem, Option.some.inj h⟩

/-- What is decoded: allowances of pairwise distinct addresses, and the map of them. -/
theorem visitEntries_eq_some (hu256 : ReadsU256 sdk.u256) {entries : List (String × Json)} :
    ∀ {allowances allowances' : Allowances},
      entries.foldlM (visitEntry sdk) allowances = some allowances' →
      ∃ listed, List.Forall₂ (IsAllowance sdk) entries listed ∧
        (listed.map Prod.fst).Nodup ∧ (∀ allowance ∈ listed, allowance.1 ∉ allowances) ∧
        ∀ spender amount, allowances'.lookup spender = some amount ↔
          (spender, amount) ∈ listed ∨ allowances.lookup spender = some amount := by
  induction entries with
  | nil =>
    intro allowances allowances' h
    obtain rfl := Option.some.inj h
    exact ⟨[], .nil, by simp, by simp, by simp⟩
  | cons entry entries ih =>
    intro allowances allowances' h
    rw [List.foldlM_cons] at h
    cases hentry : visitEntry sdk allowances entry with
    | none =>
      rw [hentry] at h
      cases h
    | some middle =>
      rw [hentry] at h
      obtain ⟨⟨address, v⟩, hallowance, hnew, rfl⟩ := visitEntry_eq_some hu256 hentry
      obtain ⟨listed, hlisted, hnodup, hrest, hlookup⟩ := ih h
      have hdistinct : ∀ allowance ∈ listed, allowance.1 ≠ address ∧ allowance.1 ∉ allowances := by
        intro allowance hmem
        have := hrest allowance hmem
        rw [Finmap.mem_insert, not_or] at this
        exact this
      refine ⟨(address, v) :: listed, .cons hallowance hlisted, ?_, ?_, ?_⟩
      · rw [List.map_cons, List.nodup_cons]
        refine ⟨fun hmem => ?_, hnodup⟩
        obtain ⟨allowance, hmem, heq⟩ := List.mem_map.1 hmem
        exact (hdistinct allowance hmem).1 heq
      · exact List.forall_mem_cons.2 ⟨hnew, fun allowance hmem => (hdistinct allowance hmem).2⟩
      · intro spender amount
        rw [hlookup, List.mem_cons, Prod.mk.injEq]
        by_cases heq : spender = address
        · subst heq
          have hout : allowances.lookup spender = none := Finmap.lookup_eq_none.2 hnew
          rw [Finmap.lookup_insert, hout]
          simp [eq_comm, or_comm]
        · rw [Finmap.lookup_insert_of_ne _ heq]
          simp [heq]

/-- The entries commute. -/
theorem visitEntry_comm (allowances : Allowances) (entry entry' : String × Json) :
    (visitEntry sdk allowances entry).bind (visitEntry sdk · entry') =
      (visitEntry sdk allowances entry').bind (visitEntry sdk · entry) := by
  simp only [visitEntry_eq]
  cases readEntry sdk entry with
  | none => simp
  | some allowance =>
    cases readEntry sdk entry' with
    | none => simp
    | some allowance' =>
      simp only [Option.bind_some]
      by_cases heq : allowance.1 = allowance'.1
      · by_cases hmem : allowance.1 ∈ allowances <;> simp [← heq, hmem]
      · have hne : allowance'.1 ≠ allowance.1 := fun h => heq h.symm
        by_cases hmem : allowance.1 ∈ allowances <;> by_cases hmem' : allowance'.1 ∈ allowances <;>
          simp [hmem, hmem', heq, hne, Finmap.insert_insert_of_ne]

theorem deserialize_eq_some {document : Json} {raw : RawBalanceAllowanceResponse}
    (h : RawBalanceAllowanceResponse.deserialize sdk document = some raw) :
    ∃ balance entries, document.record true ["balance", "allowances"] =
        some [balance, .object entries] ∧ canonicalU256 sdk balance = some raw.balance ∧
      entries.foldlM (visitEntry sdk) ∅ = some raw.allowances := by
  unfold RawBalanceAllowanceResponse.deserialize at h
  cases hrecord : document.record true ["balance", "allowances"] with
  | none =>
    rw [hrecord] at h
    cases h
  | some fields =>
    rw [hrecord] at h
    simp only [bind, Option.bind] at h
    split at h
    · next balance allowances =>
      cases hbalance : canonicalU256 sdk balance with
      | none =>
        rw [hbalance] at h
        cases h
      | some v =>
        rw [hbalance] at h
        cases hallowances : deserializeAllowances sdk allowances with
        | none =>
          rw [hallowances] at h
          cases h
        | some map =>
          rw [hallowances] at h
          obtain rfl := Option.some.inj h
          unfold deserializeAllowances at hallowances
          split at hallowances
          · exact ⟨balance, _, rfl, hbalance, hallowances⟩
          · cases hallowances
    · cases h

/-- A response is decoded only if it lists canonical amounts below `2 ^ 256`, the allowances under
    distinct addresses.  Then a snapshot is taken if each required spender has an allowance and the
    least of the balance and those allowances is below `2 ^ 96`; its capital is exactly that.
    Neither the order of the response nor other allowances matter. -/
theorem executable_capital_exact (hdecimals : ReadsDecimals sdk.fromStrExact)
    (hu256 : ReadsU256 sdk.u256) {authority : AuthenticatedProtocolAuthority}
    {spenders : List Address}
    (hspenders : requiredSpenders sdk authority.version = .ok spenders) :
    (∀ body raw, decode sdk body = .ok raw →
      ∃ document balance entries listed, sdk.json body = some document ∧
        document.record true ["balance", "allowances"] =
          some [.string balance, .object entries] ∧
        CanonicalAmount balance raw.balance ∧ List.Forall₂ (IsAllowance sdk) entries listed ∧
        (listed.map Prod.fst).Nodup ∧
        ∀ spender amount,
          raw.allowances.lookup spender = some amount ↔ (spender, amount) ∈ listed) ∧
    (∀ raw, (∃ snapshot, selectRequiredSnapshot sdk raw authority = .ok snapshot) ↔
      (∀ spender ∈ spenders, spender ∈ raw.allowances) ∧ minimum raw spenders < 2 ^ 96) ∧
    (∀ raw snapshot, selectRequiredSnapshot sdk raw authority = .ok snapshot →
      snapshot.executableCapital * 10 ^ 6 = minimum raw spenders) ∧
    (∀ entries entries' : List (String × Json), entries.Perm entries' →
      deserializeAllowances sdk (.object entries) = deserializeAllowances sdk (.object entries') ∧
      RawBalanceAllowanceResponse.deserialize sdk (.object entries) =
        RawBalanceAllowanceResponse.deserialize sdk (.object entries')) ∧
    ∀ raw raw' : RawBalanceAllowanceResponse, raw.balance = raw'.balance →
      (∀ spender ∈ spenders, raw.allowances.lookup spender = raw'.allowances.lookup spender) →
      selectRequiredSnapshot sdk raw authority = selectRequiredSnapshot sdk raw' authority := by
  refine ⟨?_, ?_, ?_, ?_, fun _ _ => selectRequiredSnapshot_congr hspenders⟩
  · intro body raw h
    unfold decode at h
    cases hdocument : (sdk.json body).bind (RawBalanceAllowanceResponse.deserialize sdk) with
    | none =>
      rw [hdocument] at h
      cases h
    | some raw' =>
      rw [hdocument] at h
      obtain rfl := Except.ok.inj h
      obtain ⟨document, hjson, hdeserialize⟩ := Option.bind_eq_some_iff.1 hdocument
      obtain ⟨balance, entries, hrecord, hbalance, hallowances⟩ := deserialize_eq_some hdeserialize
      obtain ⟨text, rfl, hcanonical⟩ := (canonicalU256_eq_some hu256).1 hbalance
      obtain ⟨listed, hlisted, hnodup, -, hlookup⟩ := visitEntries_eq_some hu256 hallowances
      refine ⟨document, text, entries, listed, hjson, hrecord, hcanonical, hlisted, hnodup, ?_⟩
      intro spender amount
      rw [hlookup, Finmap.lookup_empty]
      simp
  · intro raw
    rcases selectRequiredSnapshot_eq raw hdecimals hspenders with
      ⟨required, hpresent, hbound, -, hok⟩ | ⟨hnot, e, herror⟩
    · exact ⟨fun _ => ⟨hpresent, hbound⟩, fun _ => ⟨_, hok⟩⟩
    · constructor
      · rintro ⟨snapshot, hok⟩
        rw [herror] at hok
        cases hok
      · exact fun h => absurd h hnot
  · intro raw snapshot hok
    rcases selectRequiredSnapshot_eq raw hdecimals hspenders with
      ⟨required, -, -, -, hok'⟩ | ⟨-, e, herror⟩
    · obtain rfl := Except.ok.inj (hok'.symm.trans hok)
      exact div_mul_cancel₀ _ (by norm_num)
    · rw [herror] at hok
      cases hok
  · intro entries entries' hperm
    refine ⟨foldlM_perm visitEntry_comm hperm ∅, ?_⟩
    unfold RawBalanceAllowanceResponse.deserialize
    rw [record_perm hperm]

end

/-! ## A response -/

/-- The decimal texts that `Decimal` holds, as they stand. -/
def exactDecimal (text : String) : Option ℚ :=
  let whole := text.toList.takeWhile (· ≠ '.')
  let fraction := (text.toList.dropWhile (· ≠ '.')).tail
  if fraction.length ≤ 28 ∧ value (whole ++ fraction) < 2 ^ 96 then
    some ((value (whole ++ fraction) : ℚ) / 10 ^ fraction.length)
  else none

theorem readsDecimals_exactDecimal : ReadsDecimals exactDecimal := by
  intro whole fraction _ hwhole _
  have hpoint : ∀ c ∈ whole, (decide (c ≠ '.')) = true := by
    intro c hc
    have := hwhole c hc
    simp only [decide_eq_true_eq]
    rintro rfl
    simp at this
  have htext : (decimalText whole fraction).toList.takeWhile (· ≠ '.') = whole ∧
      ((decimalText whole fraction).toList.dropWhile (· ≠ '.')).tail = fraction := by
    unfold decimalText
    rw [String.toList_ofList]
    split_ifs with h
    · subst h
      rw [List.takeWhile_eq_self_iff.2 hpoint, List.dropWhile_eq_nil_iff.2 hpoint]
      exact ⟨rfl, rfl⟩
    · rw [List.takeWhile_append_of_pos hpoint, List.dropWhile_append_of_pos hpoint]
      simp
  unfold exactDecimal
  dsimp only
  rw [htext.1, htext.2]

/-- A balance of 20, and an allowance of 5 to one of the spenders. -/
def sampleDocument : Json :=
  .object [("balance", .string "20000000"), ("allowances", .object [
    ("0x0000000000000000000000000000000000000003", .string "5000000"),
    ("0x0000000000000000000000000000000000000005", .string "30000000"),
    ("0x0000000000000000000000000000000000000004", .string "40000000")])]

def sampleSdk : Sdk where
  json body := if body = [1] then some sampleDocument else none
  errorPath _ := []
  address text :=
    if text = "0x0000000000000000000000000000000000000003" then some 3
    else if text = "0x0000000000000000000000000000000000000004" then some 4
    else if text = "0x0000000000000000000000000000000000000005" then some 5
    else none
  u256 text :=
    if value text.toList < 2 ^ 256 then some (BitVec.ofNat 256 (value text.toList)) else none
  fromStrExact := exactDecimal
  contractConfig negRisk :=
    if negRisk then some ⟨2, some 5, some 3⟩ else some ⟨1, some 4, none⟩

def sampleRaw : RawBalanceAllowanceResponse where
  balance := 20000000
  allowances := (((∅ : Allowances).insert 3 5000000).insert 5 30000000).insert 4 40000000

def sampleAuthority : AuthenticatedProtocolAuthority := ⟨.v2, ⟨{}, 1, by decide⟩⟩

example : decode sampleSdk [1] = .ok sampleRaw := rfl

theorem executable_capital_exact_sample :
    (∃ snapshot, selectRequiredSnapshot sampleSdk sampleRaw sampleAuthority = .ok snapshot) ∧
      ∀ snapshot, selectRequiredSnapshot sampleSdk sampleRaw sampleAuthority = .ok snapshot →
        snapshot.executableCapital * 10 ^ 6 = 5000000 := by
  have hminimum : minimum sampleRaw [4, 5, 3] = 5000000 := by rfl
  have hspenders : requiredSpenders sampleSdk sampleAuthority.version = .ok [4, 5, 3] := rfl
  have hu256 : ReadsU256 sampleSdk.u256 := fun _ _ => rfl
  have hexact := executable_capital_exact readsDecimals_exactDecimal hu256 hspenders
  refine ⟨(hexact.2.1 sampleRaw).2 ⟨?_, ?_⟩, ?_⟩
  · simp [sampleRaw, Finmap.mem_insert]
  · rw [hminimum]
    decide
  · intro snapshot h
    rw [hexact.2.2.1 sampleRaw snapshot h, hminimum]
    norm_num

end Balance

end Rspm
