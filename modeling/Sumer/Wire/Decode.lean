import Sumer.Lib.Record
import Sumer.Money.Parse
import Sumer.Wire.Json

set_option relaxedAutoImplicit false
set_option autoImplicit false

/-!
# Reading the wire types

How a JSON document is read as a type of the wire (`core/wire/src/observation.rs`,
`core/wire/src/shape.rs`, `core/money/src/amount.rs`): an object and never an array, no key unknown
or twice, and every value checked. The members of an object stand in the order of the text; an
object that is kept as a value is kept as a map. Of several faults in one object, which one is
reported is left open.

## Main definitions

* `Sumer.Wire.object`, `Sumer.Wire.required`, `Sumer.Wire.omittable`: the members of a type.
* `Sumer.Wire.validatePlainText`: the rule for descriptions.
* `Sumer.Wire.ObservationWire.decode`, `Sumer.Wire.BalanceWire.decode`,
  `Sumer.Wire.ResourceStatus.decode`: the types of a reply.
-/

namespace Sumer.Wire

open Sumer.Money

/-- Why a document is not of a type. -/
inductive DecodeError where
  | invalidType (expecting : String)
  | fault (fault : Record.Fault)
  | missingField (key : String)
  | unknownVariant (name : String)
  | money (e : MoneyError)
  | timestamp (e : Rfc3339Error)
  | custom (text : String)
deriving DecidableEq

/-! ### Documents -/

mutual

/-- A document that is kept as a value: its objects are maps. -/
def Json.value : Json → Json
  | .arr items => .arr (itemValues items)
  | .obj members => .obj (Record.toMap (memberValues members))
  | .null => .null
  | .bool b => .bool b
  | .num literal => .num literal
  | .str s => .str s

/-- The items of an array. -/
def itemValues : List Json → List Json
  | [] => []
  | item :: items => item.value :: itemValues items

/-- The members of an object. -/
def memberValues : List (String × Json) → List (String × Json)
  | [] => []
  | (key, value) :: members => (key, value.value) :: memberValues members

end

/-- An object, with known fields and no other. -/
def object (expecting : String) (fields : List String) :
    Json → Except DecodeError (List (String × Json))
  | .obj members => (Record.collect fields members).mapError .fault
  | _ => .error (.invalidType expecting)

section Members

variable {α : Type}

/-- A value, or `null`. -/
def nullable (decode : Json → Except DecodeError α) : Json → Except DecodeError (Option α)
  | .null => .ok none
  | j => (decode j).map some

/-- A member that is required. -/
def required (members : List (String × Json)) (key : String)
    (decode : Json → Except DecodeError α) : Except DecodeError α :=
  match members.lookup key with
  | some j => decode j
  | none => .error (.missingField key)

/-- A member with a default. -/
def defaulted (members : List (String × Json)) (key : String) (default : α)
    (decode : Json → Except DecodeError α) : Except DecodeError α :=
  match members.lookup key with
  | some j => decode j
  | none => .ok default

/-- A member that may be left out. -/
def omittable (members : List (String × Json)) (key : String)
    (decode : Json → Except DecodeError α) : Except DecodeError (Option α) :=
  defaulted members key none (nullable decode)

/-- An array. -/
def sequence (decode : Json → Except DecodeError α) : Json → Except DecodeError (List α)
  | .arr elements => elements.mapM decode
  | _ => .error (.invalidType "a sequence")

end Members

/-- A string. -/
def string : Json → Except DecodeError String
  | .str s => .ok s
  | _ => .error (.invalidType "a string")

/-- A truth value. -/
def boolean : Json → Except DecodeError Bool
  | .bool b => .ok b
  | _ => .error (.invalidType "a boolean")

/-- A number of so many bits, written with digits alone. -/
def unsigned (bits : ℕ) : Json → Except DecodeError ℕ
  | .num literal =>
    if literal.toList.isEmpty || !literal.toList.all Char.isDigit then
      .error (.invalidType ("u" ++ toString bits))
    else if Nat.ofDigitChars 10 literal.toList 0 < 2 ^ bits then
      .ok (Nat.ofDigitChars 10 literal.toList 0)
    else .error (.invalidType ("u" ++ toString bits))
  | _ => .error (.invalidType ("u" ++ toString bits))

/-- The name of a variant without a body: as a string, or as the key of `null`. -/
def variant : Json → Except DecodeError String
  | .str name => .ok name
  | .obj [(name, .null)] => .ok name
  | _ => .error (.invalidType "a variant")

/-- One of some variants, by its spelling. -/
def oneOf {α : Type} (variants : List (String × α)) (j : Json) : Except DecodeError α := do
  let name ← variant j
  match variants.lookup name with
  | some x => .ok x
  | none => .error (.unknownVariant name)

/-- A map. -/
def valueMap : Json → Except DecodeError (List (String × Json))
  | .obj members => .ok (Record.toMap (memberValues members))
  | _ => .error (.invalidType "a map")

/-! ### Values -/

/-- A timestamp. -/
def decodeTimestamp (j : Json) : Except DecodeError Rfc3339 := do
  let s ← string j
  (Rfc3339.new s).mapError .timestamp

/-- An asset identifier. -/
def decodeAssetId (j : Json) : Except DecodeError AssetId := do
  let s ← string j
  (AssetId.new s).mapError .money

/-- An amount: an asset, and a decimal text. -/
def decodeAmount (j : Json) : Except DecodeError Amount := do
  let members ← object "an object with string fields asset and amount" ["asset", "amount"] j
  let asset ← required members "asset" string
  let amount ← required members "amount" string
  let asset ← (AssetId.new asset).mapError .money
  (Amount.parse asset amount).mapError .money

/-- The byte that a description is refused for. -/
def plainTextFault (b : UInt8) : Bool :=
  (b < 0x20 && b != ascii '\t') || b == 0x7F || b == ascii '<' || b == ascii '>'

/-- `validate_plain_text`: the offset of the first byte that is a control byte or delimits a
tag. -/
def validatePlainText (s : String) : Except ℕ Unit :=
  match (asBytes s).findIdx? plainTextFault with
  | some i => .error i
  | none => .ok ()

/-- A description. -/
def plainText (j : Json) : Except DecodeError String := do
  let s ← string j
  match validatePlainText s with
  | .error at' => .error (.custom
    ("description contains an angle bracket or a control byte at offset " ++ toString at'))
  | .ok () => .ok s

/-- `Completeness` is read from its spelling; another text is refused with the spellings there are.
-/
def Completeness.decode : Json → Except DecodeError Completeness :=
  oneOf [("complete", .complete), ("partial", .partialRecord), ("unknown", .unknown)]

/-- `ObservationState` is read from its spelling, as `Completeness` is. -/
def ObservationState.decode : Json → Except DecodeError ObservationState :=
  oneOf [("active", .active), ("tombstoned", .tombstoned)]

/-- `Posting` is read from its spelling, as `Completeness` is. -/
def Posting.decode : Json → Except DecodeError Posting :=
  oneOf [("pending", .pending), ("posted", .posted), ("unknown", .unknown)]

/-- `RawSign` is read from its spelling, as `Completeness` is. -/
def RawSign.decode : Json → Except DecodeError RawSign :=
  oneOf [("provider_positive", .providerPositive), ("provider_negative", .providerNegative)]

/-- `CanonicalHint` is read from its spelling, as `Completeness` is. -/
def CanonicalHint.decode : Json → Except DecodeError CanonicalHint :=
  oneOf [("available", .available), ("total", .total), ("pending", .pending), ("held", .held),
    ("confirmed", .confirmed), ("unconfirmed", .unconfirmed)]

/-- `CursorResumable` is read from its spelling, as `Completeness` is. -/
def CursorResumable.decode : Json → Except DecodeError CursorResumable :=
  oneOf [("exact", .exact), ("batch_restart", .batchRestart), ("none", .none)]

/-! ### Observations -/

/-- The members of `ProvenanceWire` that its struct names: an error about an unknown one lists them
in this order. -/
def provenanceFields : List String :=
  ["adapter_id", "provider_id", "surface", "observed_at", "effective_at", "completeness"]

/-- Provenance: what the host stamps is no field. -/
def ProvenanceWire.decode (j : Json) : Except DecodeError ProvenanceWire := do
  let members ← object "provenance: an object, never a positional array" provenanceFields j
  let adapterId ← required members "adapter_id" string
  let providerId ← required members "provider_id" string
  let surface ← required members "surface" string
  let observedAt ← required members "observed_at" decodeTimestamp
  let effectiveAt ← omittable members "effective_at" decodeTimestamp
  let completeness ← required members "completeness" Completeness.decode
  return { adapterId, providerId, surface, observedAt, effectiveAt, completeness }

/-- The members of `BalanceWire` that its struct names, in the order of the struct. -/
def balanceFields : List String :=
  ["resource_id", "category", "canonical_hint", "amount", "provenance"]

/-- A balance line. Its amount is not left out, and `null` when it is unknown. -/
def BalanceWire.decode (j : Json) : Except DecodeError BalanceWire := do
  let members ← object "a balance line: an object" balanceFields j
  let resourceId ← required members "resource_id" string
  let category ← required members "category" string
  let canonicalHint ← omittable members "canonical_hint" CanonicalHint.decode
  let amount ← required members "amount" (nullable decodeAmount)
  let provenance ← required members "provenance" ProvenanceWire.decode
  return { resourceId, category, canonicalHint, amount, provenance }

/-- The members of `ObservationWire` that its struct names, in the order of the struct. -/
def observationFields : List String :=
  ["resource_id", "local_id", "provider_id", "supersedes_provider_id", "state",
    "tombstone_reason", "surface", "posting", "amount", "fees", "raw_sign", "description",
    "provider_extra", "provenance"]

/-- A history observation. -/
def ObservationWire.decode (j : Json) : Except DecodeError ObservationWire := do
  let members ← object "a history observation: an object" observationFields j
  let resourceId ← required members "resource_id" string
  let localId ← required members "local_id" string
  let providerId ← omittable members "provider_id" string
  let supersedesProviderId ← omittable members "supersedes_provider_id" string
  let state ← required members "state" ObservationState.decode
  let tombstoneReason ← omittable members "tombstone_reason" string
  let surface ← required members "surface" string
  let posting ← required members "posting" Posting.decode
  let amount ← required members "amount" decodeAmount
  let fees ← omittable members "fees" decodeAmount
  let rawSign ← required members "raw_sign" RawSign.decode
  let description ← required members "description" plainText
  let providerExtra ← defaulted members "provider_extra" [] valueMap
  let provenance ← required members "provenance" ProvenanceWire.decode
  return {
    resourceId, localId, providerId, supersedesProviderId, state, tombstoneReason, surface, posting,
    amount, fees, rawSign, description, providerExtra, provenance }

/-! ### Status entries -/

/-- A provider's evidence: nothing reads it. -/
def decodeProviderDetail (j : Json) : Except DecodeError Unit := do
  let members ← object "provider_detail: an object" ["code", "message", "raw"] j
  let _ ← required members "code" string
  let _ ← required members "message" string
  let _ ← required members "raw" .ok
  return ()

/-- A record that was omitted. -/
def Degraded.decode (j : Json) : Except DecodeError Degraded := do
  let members ← object "a `degraded` entry: an object with `bytes` and an optional `local_id`"
    ["local_id", "bytes"] j
  let localId ← omittable members "local_id" string
  let bytes ← required members "bytes" (unsigned 64)
  return { localId, bytes }

/-- The outcomes without a body. -/
def bareOutcome : String → Except DecodeError ReadOutcome
  | "not_fetched" => .ok .notFetched
  | "unavailable" => .ok .unavailable
  | "reauth_required" => .ok .reauthRequired
  | "revoked" => .ok .revoked
  | "gone" => .ok .gone
  | "sca_required" => .ok .scaRequired
  | other => .error (.unknownVariant other)

/-- The body of an outcome, by its name. -/
def outcomeBody (name : String) (body : Json) : Except DecodeError ReadOutcome :=
  if name = "fetched" then do
    let members ← object "a `fetched` body: an object" ["page_empty"] body
    return .fetched (← required members "page_empty" boolean)
  else if name = "stale" then do
    let members ← object "a `stale` body: an object" ["as_of"] body
    return .stale (← required members "as_of" decodeTimestamp)
  else if name = "rate_limited" then do
    let members ← object "a `rate_limited` body: an object" ["retry_after_ms"] body
    return .rateLimited (← required members "retry_after_ms" (unsigned 64))
  else .error (.unknownVariant name)

/-- An outcome: exactly one variant, as a string or with its body. -/
def ReadOutcome.decode : Json → Except DecodeError ReadOutcome
  | .str name => bareOutcome name
  | .obj [] => .error (.custom "an outcome object names one outcome")
  | .obj [(name, body)] => outcomeBody name body
  | .obj ((name, body) :: _ :: _) => do
    let _ ← outcomeBody name body
    .error (.custom "an outcome names exactly one variant, never several")
  | _ => .error
    (.invalidType "a read outcome: a bare string, or an object naming exactly one outcome")

/-- A page request: a `kind`, and the fields of that kind. -/
def PageRequest.decode : Json → Except DecodeError PageRequest
  | .obj members =>
    let rest := members.filter fun m => m.1 != "kind"
    match members.filter fun m => m.1 == "kind" with
    | [] => .error (.missingField "kind")
    | [(_, kind)] => do
      let kind ← string kind
      if kind = "cursor" then
        let members ← object "a page request" ["cursor"] (.obj rest)
        return .cursor (← required members "cursor" string)
      else if kind = "window" then
        let members ← object "a page request" ["resource_id", "asset", "start", "end"] (.obj rest)
        let resourceId ← required members "resource_id" string
        let asset ← omittable members "asset" decodeAssetId
        let start ← required members "start" decodeTimestamp
        let stop ← required members "end" decodeTimestamp
        return .window resourceId asset start stop
      else .error (.unknownVariant kind)
    | _ => .error (.fault (.duplicateField "kind"))
  | _ => .error (.invalidType "a page request: an object with a `kind`")

/-- The members of `PageReply` that its struct names, in the order of the struct. -/
def pageReplyFields : List String :=
  ["cursor_resumable", "next", "window_capped_to", "page_size_reduced_to"]

/-- A page reply. The host reads the cursor family and what comes next. -/
def PageReply.decode (j : Json) : Except DecodeError PageReply := do
  let members ← object "a page reply: an object" pageReplyFields j
  let cursorResumable ← required members "cursor_resumable" CursorResumable.decode
  let next ← omittable members "next" PageRequest.decode
  let _ ← omittable members "window_capped_to" decodeTimestamp
  let _ ← omittable members "page_size_reduced_to" (unsigned 32)
  return { cursorResumable, next }

/-- A resource that is served. -/
def ResourceDescriptor.decode (j : Json) : Except DecodeError ResourceDescriptor := do
  let members ← object "a resource descriptor: an object"
    ["resource_id", "provider_id", "kind", "label", "provider_extra"] j
  let resourceId ← required members "resource_id" string
  let providerId ← required members "provider_id" string
  let kind ← required members "kind" string
  let label ← required members "label" string
  let providerExtra ← omittable members "provider_extra" valueMap
  return { resourceId, providerId, kind, label, providerExtra }

/-- The members of `ResourceStatus` that its struct names, in the order of the struct. -/
def statusFields : List String :=
  ["resource_id", "outcome", "degraded", "provider_detail", "page", "credential_expires_at",
    "strong_auth_expires_at", "history_start"]

/-- A status entry. The evidence and the two clocks of a credential are checked, and not read. -/
def ResourceStatus.decode (j : Json) : Except DecodeError ResourceStatus := do
  let members ← object "a status entry: an object" statusFields j
  let resourceId ← required members "resource_id" string
  let outcome ← required members "outcome" ReadOutcome.decode
  let degraded ← defaulted members "degraded" [] (sequence Degraded.decode)
  let _ ← omittable members "provider_detail" decodeProviderDetail
  let page ← omittable members "page" PageReply.decode
  let _ ← omittable members "credential_expires_at" decodeTimestamp
  let _ ← omittable members "strong_auth_expires_at" decodeTimestamp
  let historyStart ← omittable members "history_start" decodeTimestamp
  return { resourceId, outcome, degraded, page, historyStart }

end Sumer.Wire
