import Sumer.Money.Grammar
import Sumer.Wire.Json

set_option relaxedAutoImplicit false
set_option autoImplicit false

/-!
# From Esplora to the wire

The pure mapping of the Bitcoin adapter (`adapters/bitcoin/src/map.rs`): a transaction as an
address listing gives it, and the observation that one wallet makes of it. Fees, values and heights
are `u64`; the sums are `i128`, which none of them leaves, so that they are integers here.

## Main definitions

* `Sumer.Bitcoin.Tx`: a transaction, as Esplora returns it.
* `Sumer.Bitcoin.rfc3339Utc`: Unix seconds as a timestamp.
* `Sumer.Bitcoin.active`, `Sumer.Bitcoin.balanceLines`: what is put on the wire.

## Main results

* `Sumer.Bitcoin.netDelta_lt`: a net figure is an `i128`.
* `Sumer.Bitcoin.active_isOk_iff`: a transaction is mapped unless its block time is no timestamp.
-/

namespace Sumer.Bitcoin

open Sumer.Wire Sumer.Money
open Digits (zeroPadded)

/-- The integers of `u64`. -/
abbrev U64 := Fin (2 ^ 64)

/-- There are numbers of 64 bits, so that one can be taken modulo their count. -/
instance neZero_u64 : NeZero (2 ^ 64 : ℕ) := ⟨by decide⟩

/-- Bitcoin's smallest unit, and the only asset this adapter ever emits. -/
def ASSET_SAT : String := "sat"

/-- The surface a history observation was read through. -/
def SURFACE_TX : String := "esplora.tx"

/-- The surface a balance line was computed from. -/
def SURFACE_STATS : String := "esplora.address_stats"

/-- What can go wrong turning provider data into wire types. -/
inductive MapError where
  | money (e : MoneyError)
  | time (e : Rfc3339Error)

/-! ### Esplora payloads -/

/-- An output, or the output an input spends. -/
structure Vout where
  scriptpubkeyAddress : Option String
  value : U64
deriving DecidableEq

/-- An input. A coinbase input spends nothing. -/
structure Vin where
  prevout : Option Vout
deriving DecidableEq

/-- Where a transaction stands. -/
structure TxStatus where
  confirmed : Bool
  blockHeight : Option U64
  blockHash : Option String
  blockTime : Option ℤ
deriving DecidableEq

/-- One transaction as Esplora returns it. A vector holds fewer than `2 ^ 63` elements. -/
structure Tx where
  txid : String
  fee : U64
  status : TxStatus
  vin : List Vin
  vout : List Vout
  vin_lt : vin.length < 2 ^ 63
  vout_lt : vout.length < 2 ^ 63
deriving DecidableEq

/-- A transaction may have no inputs and no outputs. -/
lemma length_nil_lt {α : Type} : ([] : List α).length < 2 ^ 63 := Nat.two_pow_pos 63

/-- `Vout::is_owned`. -/
def Vout.isOwned (o : Vout) (owned : List String) : Bool :=
  o.scriptpubkeyAddress.any owned.contains

/-- The height this transaction is confirmed at. A confirmed status without a height counts as
unconfirmed. -/
def Tx.height (tx : Tx) : Option U64 :=
  if tx.status.confirmed then tx.status.blockHeight else none

/-- The counters of `GET /address/:address`. -/
structure Stats where
  fundedTxoSum : U64
  spentTxoSum : U64

/-- `AddressStats`: what a provider says it has seen of one address, on the chain or in the mempool.
-/
structure AddressStats where
  chainStats : Stats
  mempoolStats : Stats

/-- Funded minus spent, as a signed value. -/
def Stats.net (s : Stats) : ℤ := (s.fundedTxoSum.val : ℤ) - s.spentTxoSum.val

/-! ### Identity and time -/

/-- `local_id = "<resource_id>:<txid>"`. -/
def localId (resourceId txid : String) : String := resourceId ++ ":" ++ txid

/-- A lower-case hexadecimal digit. -/
def isHexDigit (ch : Char) : Bool := ch.isDigit || ('a' ≤ ch && ch ≤ 'f')

/-- A 64-character lower-case hex string. Its length is counted in bytes, but a text of hex digits
has one byte a character. -/
def isTxid (s : String) : Bool := s.length == 64 && s.toList.all isHexDigit

/-- A number of satoshis as an amount. -/
def sats (n : ℤ) : Except MoneyError Amount :=
  match AssetId.new ASSET_SAT with
  | .error e => .error e
  | .ok asset => Amount.parse asset (toString n)

/-- Days since 1970-01-01 to year, month and day. The divisions truncate. -/
def civilFromDays (days : ℤ) : ℤ × ℤ × ℤ :=
  let z := days + 719468
  let era := (if 0 ≤ z then z else z - 146096).tdiv 146097
  let doe := z - era * 146097
  let yoe := (doe - doe.tdiv 1460 + doe.tdiv 36524 - doe.tdiv 146096).tdiv 365
  let y := yoe + era * 400
  let doy := doe - (365 * yoe + yoe.tdiv 4 - yoe.tdiv 100)
  let mp := (5 * doy + 2).tdiv 153
  let d := doy - (153 * mp + 2).tdiv 5 + 1
  let m := if mp < 10 then mp + 3 else mp - 9
  (if m ≤ 2 then y + 1 else y, m, d)

/-- Unix seconds to an RFC 3339 UTC timestamp. -/
def rfc3339Utc (unixSecs : ℤ) : Except Rfc3339Error Rfc3339 :=
  let days := unixSecs / 86400
  let secs := unixSecs % 86400
  let (y, m, d) := civilFromDays days
  Rfc3339.new (String.ofList (zeroPadded 4 y ++ ['-'] ++ zeroPadded 2 m ++ ['-'] ++ zeroPadded 2 d
    ++ ['T'] ++ zeroPadded 2 (secs.tdiv 3600) ++ [':'] ++ zeroPadded 2 ((secs.tmod 3600).tdiv 60) ++
    [':'] ++ zeroPadded 2 (secs.tmod 60) ++ ['Z']))

/-! ### What is put on the wire -/

/-- The constants one reply's observations share. -/
structure Ctx where
  resourceId : String
  adapterId : String
  providerId : String
  observedAt : Rfc3339

/-- `Ctx::provenance`. -/
def Ctx.provenance (ctx : Ctx) (surface : String) (effectiveAt : Option Rfc3339) :
    ProvenanceWire where
  adapterId := ctx.adapterId
  providerId := ctx.providerId
  surface := surface
  observedAt := ctx.observedAt
  effectiveAt := effectiveAt
  completeness := .complete

/-- One balance line. -/
def balanceLine (ctx : Ctx) (category : String) (hint : CanonicalHint) (value : Option ℤ) :
    Except MapError BalanceWire :=
  match value.mapM sats with
  | .error e => .error (.money e)
  | .ok amount =>
    .ok ⟨ctx.resourceId, category, some hint, amount, ctx.provenance SURFACE_STATS none⟩

/-- The two balance lines for one wallet, never summed and never merged. -/
def balanceLines (ctx : Ctx) (confirmed unconfirmed : Option ℤ) :
    Except MapError (List BalanceWire) := do
  let first ← balanceLine ctx "confirmed" .confirmed confirmed
  let second ← balanceLine ctx "unconfirmed" .unconfirmed unconfirmed
  .ok [first, second]

/-- The sum of the values of some outputs. -/
def sumOf (outputs : List Vout) : ℤ := (outputs.map fun o => (o.value.val : ℤ)).sum

/-- The outputs of the wallet that a transaction spends. -/
def Tx.spent (tx : Tx) (owned : List String) : List Vout :=
  (tx.vin.filterMap Vin.prevout).filter (·.isOwned owned)

/-- Outputs to the wallet minus inputs from the wallet, in satoshis. -/
def netDelta (tx : Tx) (owned : List String) : ℤ :=
  sumOf (tx.vout.filter (·.isOwned owned)) - sumOf (tx.spent owned)

/-- Whether some input of a transaction spends an output of this wallet. -/
def walletSpent (tx : Tx) (owned : List String) : Bool :=
  (tx.vin.filterMap Vin.prevout).any (·.isOwned owned)

/-- `provider_positive` whenever the net delta is not negative. -/
def rawSign (delta : ℤ) : RawSign := if 0 ≤ delta then .providerPositive else .providerNegative

/-- `describe`: what a transaction is to the wallet, by the sign of what it changes. -/
def describe (delta : ℤ) : String :=
  if 0 < delta then "received " ++ toString delta ++ " sat"
  else if delta < 0 then "sent " ++ toString delta.natAbs ++ " sat"
  else "self-transfer, net 0 sat"

/-- The evidence beside an observation, in key order. -/
def Tx.extra (tx : Tx) : List (String × Json) :=
  optional "block_hash" Json.str tx.status.blockHash ++
    optional "block_height" (fun h : U64 => Json.nat h.val) tx.height ++
    [("confirmed", .bool tx.status.confirmed)]

/-- One `active` history observation for a wallet-relevant transaction. -/
def active (ctx : Ctx) (tx : Tx) (owned : List String) : Except MapError ObservationWire :=
  let delta := netDelta tx owned
  match tx.status.blockTime.mapM rfc3339Utc with
  | .error e => .error (.time e)
  | .ok effectiveAt =>
    match sats delta with
    | .error e => .error (.money e)
    | .ok amount =>
      match if walletSpent tx owned then (sats tx.fee.val).map some else .ok none with
      | .error e => .error (.money e)
      | .ok fees =>
        .ok {
          resourceId := ctx.resourceId
          localId := localId ctx.resourceId tx.txid
          providerId := some tx.txid
          supersedesProviderId := none
          state := .active
          tombstoneReason := none
          surface := SURFACE_TX
          posting := if tx.height.isSome then .posted else .pending
          amount := amount
          fees := fees
          rawSign := rawSign delta
          description := describe delta
          providerExtra := tx.extra
          provenance := ctx.provenance SURFACE_TX effectiveAt }

/-! ### Amounts -/

section Amounts

variable {n : ℤ} {tx : Tx} {owned : List String}

/-- The asset identifier of satoshis. -/
def satAsset : AssetId := ⟨ASSET_SAT, by decide⟩

/-- The name of the asset that the adapter counts in is one that `AssetId::new` takes. -/
lemma assetIdNew_sat : AssetId.new ASSET_SAT = .ok satAsset := rfl

/-- The text of an integer is that of an amount without decimals. -/
lemma toString_eq_formatDecimal (n : ℤ) : toString n = formatDecimal n 0 := by
  rw [formatDecimal, if_pos rfl, magnitudeDigits]
  cases n with
  | ofNat m =>
    rw [if_neg (by simp)]
    show Nat.repr m = _
    rw [Nat.repr_eq_ofList_toDigits]
    rfl
  | negSucc m =>
    rw [if_pos (Int.negSucc_lt_zero m)]
    show "-" ++ Nat.repr (m + 1) = _
    rw [Nat.repr_eq_ofList_toDigits, ← String.toList_inj]
    simp [String.toList_append]

/-- An amount of satoshis, when it has a bounded number of digits. -/
lemma sats_eq (h : digitCount n ≤ MAX_DIGITS) :
    sats n = .ok ⟨satAsset, n, 0, h, Nat.zero_le _⟩ := by
  rw [sats, assetIdNew_sat]
  exact (congrArg _ (toString_eq_formatDecimal n)).trans
    (Amount.parse_toText ⟨satAsset, n, 0, h, Nat.zero_le _⟩ satAsset)

/-- The integers of `i128` have few digits. -/
lemma digitCount_le (h : n.natAbs < 2 ^ 127) : digitCount n ≤ MAX_DIGITS := by
  refine (Nat.length_toDigits_le_iff (by decide) (by decide)).mpr (h.trans ?_)
  norm_num [MAX_DIGITS]

/-- The sum of fewer than `2 ^ 63` values. -/
lemma sumOf_lt (outputs : List Vout) (h : outputs.length < 2 ^ 63) :
    0 ≤ sumOf outputs ∧ sumOf outputs < 2 ^ 127 := by
  have hbound : 0 ≤ sumOf outputs ∧ sumOf outputs ≤ (outputs.length : ℤ) * 2 ^ 64 := by
    clear h
    induction outputs with
    | nil => simp [sumOf]
    | cons o rest ih =>
      have hvalue : (o.value.val : ℤ) < 2 ^ 64 := by exact_mod_cast o.value.isLt
      simp only [sumOf, List.map_cons, List.sum_cons, List.length_cons, Nat.cast_add,
        Nat.cast_one] at ih ⊢
      omega
  have hlen : (outputs.length : ℤ) < 2 ^ 63 := by exact_mod_cast h
  omega

/-- **A net figure is an `i128`**: neither of its sums nor their difference leaves the type. -/
lemma netDelta_lt (tx : Tx) (owned : List String) : (netDelta tx owned).natAbs < 2 ^ 127 := by
  have hreceived := sumOf_lt (tx.vout.filter (·.isOwned owned))
    (lt_of_le_of_lt (List.length_filter_le _ _) tx.vout_lt)
  have hspent := sumOf_lt (tx.spent owned)
    (lt_of_le_of_lt ((List.length_filter_le _ _).trans (List.length_filterMap_le _ _)) tx.vin_lt)
  rw [netDelta]
  omega

/-- **A transaction is mapped** unless its block time is no timestamp. -/
lemma active_isOk_iff {ctx : Ctx} :
    (∃ o, active ctx tx owned = .ok o) ↔
      ∀ t, tx.status.blockTime = some t → ∃ ts, rfc3339Utc t = .ok ts := by
  have hdelta := sats_eq (digitCount_le (netDelta_lt tx owned))
  have hfee := sats_eq (n := tx.fee.val) (digitCount_le (by have := tx.fee.isLt; omega))
  have hfees : ∃ fees, (if walletSpent tx owned then (sats tx.fee.val).map some else .ok none) =
      (.ok fees : Except MoneyError (Option Amount)) := by
    split_ifs
    · exact ⟨_, by rw [hfee]; rfl⟩
    · exact ⟨_, rfl⟩
  obtain ⟨fees, hfees⟩ := hfees
  unfold active
  simp only [hdelta, hfees]
  cases htime : tx.status.blockTime with
  | none => simp [pure, Except.pure]
  | some t =>
    cases hstamp : rfc3339Utc t with
    | error e => simp [hstamp]
    | ok ts => simp [hstamp]

end Amounts

end Sumer.Bitcoin
