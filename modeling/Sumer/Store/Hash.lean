import Mathlib.Data.List.Sort
import Sumer.Wire.Observation

set_option relaxedAutoImplicit false
set_option autoImplicit false

/-!
# The content hash

`content_hash` (`core/store/src/hash.rs`): SHA-256 over what the adapter wrote. The JSON text, the
digest and the text of a stored page request are third-party code and come as parameters.

## Main definitions

* `Sumer.Store.Crates`: the third-party functions the store calls.
* `Sumer.Store.contentHash`: the hash by which two reports of one record are compared.

## Main results

* `Sumer.Store.contentHash_congr`: the hash reads nothing but what the adapter wrote.
-/

namespace Sumer.Store

open Sumer.Wire Sumer.Money

/-- What the store uses of third-party code: `serde_json` and `sha2`. -/
structure Crates where
  /-- `serde_json::Value::to_string`. -/
  jsonText : Json → String
  /-- The lowercase hex SHA-256 of some bytes. -/
  sha256Hex : List UInt8 → String
  /-- `serde_json::to_string` of a page request. -/
  pageText : PageRequest → String
  /-- `serde_json::from_str` of a page request. -/
  parsePage : String → Option PageRequest

/-- The text of a page request, of those that are handed out, is read back as that request. -/
def Crates.PageRoundTrip (c : Crates) (offers : PageRequest → Prop) : Prop :=
  ∀ p, offers p → c.parsePage (c.pageText p) = some p

/-- A JSON object with the given members. Objects keep their members in key order. -/
def object (fields : List (String × Json)) : Json :=
  .obj (fields.insertionSort fun a b => a.1 ≤ b.1)

/-- A text, or `null`. -/
def optStr (value : Option String) : Json :=
  match value with
  | some s => .str s
  | none => .null

/-- An amount as its asset and exact decimal text, or `null`. -/
def moneyJson (amount : Option Amount) : Json :=
  match amount with
  | some amount => object [("asset", .str amount.asset.text), ("amount", .str amount.toText)]
  | none => .null

/-- The fields the content hash covers, in the order the source puts them. -/
def hashedFields (o : Observation) : List (String × Json) :=
  [("resource_id", .str o.resourceId),
    ("local_id", .str o.localId),
    ("provider_id", optStr o.providerId),
    ("supersedes_provider_id", optStr o.supersedesProviderId),
    ("state", .str o.state.spelling),
    ("tombstone_reason", optStr o.tombstoneReason),
    ("surface", .str o.surface),
    ("posting", .str o.posting.spelling),
    ("amount", moneyJson (some o.amount)),
    ("fees", moneyJson o.fees),
    ("raw_sign", .str o.rawSign.spelling),
    ("description", .str o.description),
    ("provider_extra", .obj o.providerExtra),
    ("observed_at", .str o.provenance.observedAt.text),
    ("effective_at", optStr (o.provenance.effectiveAt.map Rfc3339.text)),
    ("completeness", .str o.provenance.completeness.spelling)]

/-- Lowercase hex SHA-256 of the canonical JSON of the hashed fields. -/
def contentHash (c : Crates) (o : Observation) : String :=
  c.sha256Hex (asBytes (c.jsonText (object (hashedFields o))))

/-- SHA-256 over a resource definition: its kind and its extra fields, not its label. -/
def resourceFingerprint (c : Crates) (descriptor : ResourceDescriptor) : String :=
  c.sha256Hex (asBytes (c.jsonText (object
    [("kind", .str descriptor.kind), ("provider_extra", .obj (descriptor.providerExtra.getD []))])))

/-- **The hash reads nothing but what the adapter wrote**: neither receipt time nor staleness. -/
lemma contentHash_congr (c : Crates) {a b : Observation} (h : a.authored = b.authored) :
    contentHash c a = contentHash c b := by
  have hstamp (o : Observation) : contentHash c o =
      contentHash c (Observation.stamp o.authored a.provenance.receivedAt a.provenance.staleness) :=
    rfl
  rw [hstamp a, hstamp b, h]

/-- Among the hashed fields are the state and the resource. -/
lemma of_hashedFields {a b : Observation} (h : hashedFields a = hashedFields b) :
    a.state = b.state ∧ a.resourceId = b.resourceId := by
  simp only [hashedFields, List.cons.injEq, Prod.mk.injEq, true_and, Json.str.injEq] at h
  refine ⟨?_, h.1⟩
  have hstate := h.2.2.2.2.1
  cases ha : a.state <;> cases hb : b.state <;> simp_all [ObservationState.spelling]

end Sumer.Store
