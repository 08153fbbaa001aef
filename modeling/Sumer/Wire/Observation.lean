import Mathlib.Data.Prod.Lex
import Mathlib.Data.String.Basic
import Sumer.Money.Amount

set_option relaxedAutoImplicit false
set_option autoImplicit false

/-!
# The observation model

Provenance, history observations, per-resource status and pagination
(`core/wire/src/observation.rs`). The types an adapter may send have no field for the receipt
stamp; the stamped types are reached through `stamp` alone.

## Main definitions

* `Sumer.Wire.BalanceWire`, `Sumer.Wire.Balance`, `Sumer.Wire.ObservationWire`,
  `Sumer.Wire.Observation`: before and after the host's stamp.
* `Sumer.Wire.foldOrderKey`: the total order of a chain.
* `Sumer.Wire.ResourceStatus`, `Sumer.Wire.PageRequest`, `Sumer.Wire.PageReply`.
-/

namespace Sumer.Wire

open Sumer.Money

/-- A JSON value. A number is its literal; the members of an object are in key order. -/
inductive Json where
  | null
  | bool (b : Bool)
  | num (literal : String)
  | str (s : String)
  | arr (items : List Json)
  | obj (members : List (String × Json))

/-- How current a record is, as the host computes it. -/
inductive Staleness where
  | live
  | cached
  | unavailable
deriving DecidableEq

/-- How much of the record the adapter vouches for. -/
inductive Completeness where
  | complete
  | partialRecord
  | unknown
deriving DecidableEq

/-- Whether an observation reports its record as present or as gone. -/
inductive ObservationState where
  | active
  | tombstoned
deriving DecidableEq

/-- The posting state of a transaction. -/
inductive Posting where
  | pending
  | posted
  | unknown
deriving DecidableEq

/-- The sign convention the provider used. -/
inductive RawSign where
  | providerPositive
  | providerNegative
deriving DecidableEq

/-- The wire spelling of a completeness. -/
def Completeness.spelling : Completeness → String
  | .complete => "complete"
  | .partialRecord => "partial"
  | .unknown => "unknown"

/-- The wire spelling of an observation state. -/
def ObservationState.spelling : ObservationState → String
  | .active => "active"
  | .tombstoned => "tombstoned"

/-- The wire spelling of a posting state. -/
def Posting.spelling : Posting → String
  | .pending => "pending"
  | .posted => "posted"
  | .unknown => "unknown"

/-- The wire spelling of a sign convention. -/
def RawSign.spelling : RawSign → String
  | .providerPositive => "provider_positive"
  | .providerNegative => "provider_negative"

/-- Provenance as an adapter may send it: no receipt stamp, no staleness. -/
structure ProvenanceWire where
  adapterId : String
  providerId : String
  surface : String
  observedAt : Rfc3339
  effectiveAt : Option Rfc3339
  completeness : Completeness

/-- Provenance once the host has stamped it. -/
structure Provenance where
  adapterId : String
  providerId : String
  surface : String
  observedAt : Rfc3339
  receivedAt : Rfc3339
  effectiveAt : Option Rfc3339
  staleness : Staleness
  completeness : Completeness

/-- Stamps the host-computed receipt time and staleness onto wire provenance. -/
def Provenance.stamp (wire : ProvenanceWire) (receivedAt : Rfc3339) (staleness : Staleness) :
    Provenance where
  adapterId := wire.adapterId
  providerId := wire.providerId
  surface := wire.surface
  observedAt := wire.observedAt
  receivedAt := receivedAt
  effectiveAt := wire.effectiveAt
  staleness := staleness
  completeness := wire.completeness

/-- What a balance category means, as far as the adapter can tell. -/
inductive CanonicalHint where
  | available
  | total
  | pending
  | held
  | confirmed
  | unconfirmed
deriving DecidableEq

/-- A balance line as an adapter emits it. No amount means that it is unknown. -/
structure BalanceWire where
  resourceId : String
  category : String
  canonicalHint : Option CanonicalHint
  amount : Option Amount
  provenance : ProvenanceWire

/-- A balance line once the host has stamped its provenance. -/
structure Balance where
  resourceId : String
  category : String
  canonicalHint : Option CanonicalHint
  amount : Option Amount
  provenance : Provenance

/-- Stamps a balance line. -/
def Balance.stamp (wire : BalanceWire) (receivedAt : Rfc3339) (staleness : Staleness) :
    Balance where
  resourceId := wire.resourceId
  category := wire.category
  canonicalHint := wire.canonicalHint
  amount := wire.amount
  provenance := Provenance.stamp wire.provenance receivedAt staleness

/-- A history observation as an adapter emits it: no revision, which is the host's to assign. -/
structure ObservationWire where
  resourceId : String
  localId : String
  providerId : Option String
  supersedesProviderId : Option String
  state : ObservationState
  tombstoneReason : Option String
  surface : String
  posting : Posting
  amount : Amount
  fees : Option Amount
  rawSign : RawSign
  description : String
  providerExtra : List (String × Json)
  provenance : ProvenanceWire

/-- A history observation once the host has stamped its provenance. -/
structure Observation where
  resourceId : String
  localId : String
  providerId : Option String
  supersedesProviderId : Option String
  state : ObservationState
  tombstoneReason : Option String
  surface : String
  posting : Posting
  amount : Amount
  fees : Option Amount
  rawSign : RawSign
  description : String
  providerExtra : List (String × Json)
  provenance : Provenance

/-- Stamps an observation: all of the adapter's fields, and a stamped provenance. -/
def Observation.stamp (wire : ObservationWire) (receivedAt : Rfc3339) (staleness : Staleness) :
    Observation where
  resourceId := wire.resourceId
  localId := wire.localId
  providerId := wire.providerId
  supersedesProviderId := wire.supersedesProviderId
  state := wire.state
  tombstoneReason := wire.tombstoneReason
  surface := wire.surface
  posting := wire.posting
  amount := wire.amount
  fees := wire.fees
  rawSign := wire.rawSign
  description := wire.description
  providerExtra := wire.providerExtra
  provenance := Provenance.stamp wire.provenance receivedAt staleness

/-- What the adapter wrote of a stamped provenance. -/
def Provenance.authored (p : Provenance) : ProvenanceWire where
  adapterId := p.adapterId
  providerId := p.providerId
  surface := p.surface
  observedAt := p.observedAt
  effectiveAt := p.effectiveAt
  completeness := p.completeness

/-- What the adapter wrote of a stamped observation: everything but the host's stamps. -/
def Observation.authored (o : Observation) : ObservationWire where
  resourceId := o.resourceId
  localId := o.localId
  providerId := o.providerId
  supersedesProviderId := o.supersedesProviderId
  state := o.state
  tombstoneReason := o.tombstoneReason
  surface := o.surface
  posting := o.posting
  amount := o.amount
  fees := o.fees
  rawSign := o.rawSign
  description := o.description
  providerExtra := o.providerExtra
  provenance := o.provenance.authored

/-- Stamping keeps what the adapter wrote. -/
@[simp]
lemma Observation.authored_stamp (wire : ObservationWire) (receivedAt : Rfc3339)
    (staleness : Staleness) : (Observation.stamp wire receivedAt staleness).authored = wire := rfl

/-- Every stamped observation is the stamp of what the adapter wrote. -/
lemma Observation.stamp_authored (o : Observation) :
    Observation.stamp o.authored o.provenance.receivedAt o.provenance.staleness = o := rfl

/-- The total order of a chain: receipt time, then surface, then arrival, texts bytewise. -/
def foldOrderKey (receivedAt : Rfc3339) (surface : String) (arrivalIndex : ℕ) :
    String ×ₗ String ×ₗ ℕ :=
  toLex (receivedAt.text, toLex (surface, arrivalIndex))

/-- The outcome of an attempt to read one resource. -/
inductive ReadOutcome where
  | fetched (pageEmpty : Bool)
  | notFetched
  | stale (asOf : Rfc3339)
  | rateLimited (retryAfterMs : ℕ)
  | unavailable
  | reauthRequired
  | revoked
  | gone
  | scaRequired
deriving DecidableEq

/-- One observation a resource could not deliver because of its size. -/
structure Degraded where
  localId : Option String
  bytes : ℕ
deriving DecidableEq

/-- How to start or resume a paginated read. -/
inductive PageRequest where
  | cursor (cursor : String)
  | window (resourceId : String) (asset : Option AssetId) (start stop : Rfc3339)
deriving DecidableEq

/-- How a durable cursor should be advanced. -/
inductive CursorResumable where
  | exact
  | batchRestart
  | none
deriving DecidableEq

/-- Paging continuation for one resource's read. -/
structure PageReply where
  cursorResumable : CursorResumable
  next : Option PageRequest
deriving DecidableEq

/-- One entry of a reply's `statuses`. -/
structure ResourceStatus where
  resourceId : String
  outcome : ReadOutcome
  degraded : List Degraded
  page : Option PageReply
  historyStart : Option Rfc3339
deriving DecidableEq

/-- A resource as `resources.list` describes it. -/
structure ResourceDescriptor where
  resourceId : String
  providerId : String
  kind : String
  label : String
  providerExtra : Option (List (String × Json))

end Sumer.Wire
