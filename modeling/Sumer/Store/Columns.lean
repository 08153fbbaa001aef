import Sumer.Wire.Json
import Sumer.Store.Content

set_option relaxedAutoImplicit false
set_option autoImplicit false

/-!
# Observations as columns

The bottom of the store: an observation as the thirty columns of its row, what `append_observation`
binds to them, what `RawObservation::from_row` reads by position and what `into_stored` makes of it
(`core/store/src/store.rs`). SQLite returns the values it was given; the text of a JSON value and
its parser are parameters.

## Main definitions

* `Sumer.Store.SqlValue`, `Sumer.Store.SqlRow`: values, and a row by column name.
* `Sumer.Store.insertObservation`: the row that an append writes.
* `Sumer.Store.RawObservation.fromRow`, `Sumer.Store.RawObservation.intoStored`: reading one back.
* `Sumer.Store.Statement`: the statements that write the table.

## Main results

* `Sumer.Store.readRow_seenRow`: a row is read back as it was appended.
* `Sumer.Store.observations_survive`: so are all observations, after any statements.
-/

namespace Sumer.Store

open Sumer.Wire Sumer.Money Sumer.Host

/-- A value of SQLite. -/
inductive SqlValue where
  | null
  | integer (n : ℤ)
  | text (s : String)
deriving DecidableEq

/-- A text, or `NULL`. -/
def optText (value : Option String) : SqlValue := value.elim .null .text

/-- A row, by column name. -/
abbrev SqlRow := List (String × SqlValue)

/-- The value of a column. -/
def SqlRow.column (row : SqlRow) (name : String) : SqlValue := (List.lookup name row).getD .null

/-- What reading a row uses of third-party code: `{:?}` of a text, what `serde_json` says of a text
that spells no variant, and its parser of objects. -/
structure RowCrates where
  debug : String → String
  noVariant : String → String
  parseObject : String → Option (List (String × Json))

/-- Why a row is unreadable. -/
inductive ReadError where
  | sqlite (column : ℕ)
  | json
  | money (e : MoneyError)
  | corruptRow (message : String)
deriving DecidableEq

/-- The wire spelling of a staleness. -/
def staleSpelling : Staleness → String
  | .live => "live"
  | .cached => "cached"
  | .unavailable => "unavailable"

/-- A marker of staleness is read back as the one it was written for. -/
lemma staleSpelling_injective : Function.Injective staleSpelling := by
  intro s t heq
  cases s <;> cases t <;> first | rfl | exact absurd heq (by decide)

/-! ### Writing -/

/-- The largest `i64`. -/
def I64_MAX : ℕ := 2 ^ 63 - 1

/-- The columns an insert names. -/
def insertColumns : List String :=
  ["adapter_id", "resource_id", "local_id", "revision", "crawl_id", "last_seen_crawl",
    "derivation", "fingerprint", "content_hash", "provider_id", "supersedes_provider_id",
    "state", "tombstone_reason", "surface", "posting", "amount_asset", "amount",
    "fees_asset", "fees", "raw_sign", "description", "provider_extra",
    "prov_adapter_id", "prov_provider_id", "prov_surface", "observed_at", "effective_at",
    "completeness", "received_at", "staleness"]

/-- The parameter each of them takes: a new row was last seen by the crawl that appends it. -/
def insertPlaceholders : List ℕ :=
  [1, 2, 3, 4, 5, 5, 6, 7, 8, 9, 10, 11, 12, 13, 14, 15, 16, 17, 18, 19, 20, 21, 22, 23, 24, 25, 26,
    27, 28, 29]

/-- The parameters, in order. -/
def Append.params (c : Crates) (append : Append) : List SqlValue :=
  let o := append.observation
  [.text append.adapterId, .text o.resourceId, .text o.localId,
    .integer (min append.revision I64_MAX), .integer append.crawlId, .text append.derivation,
    optText append.fingerprint, .text append.contentHash, optText o.providerId,
    optText o.supersedesProviderId, .text o.state.spelling, optText o.tombstoneReason,
    .text o.surface, .text o.posting.spelling, .text o.amount.asset.text, .text o.amount.toText,
    optText (o.fees.map fun f => f.asset.text), optText (o.fees.map Amount.toText),
    .text o.rawSign.spelling, .text o.description, .text (c.jsonText (.obj o.providerExtra)),
    .text o.provenance.adapterId, .text o.provenance.providerId, .text o.provenance.surface,
    .text o.provenance.observedAt.text, optText (o.provenance.effectiveAt.map Rfc3339.text),
    .text o.provenance.completeness.spelling, .text o.provenance.receivedAt.text,
    .text (staleSpelling o.provenance.staleness)]

/-- The row that `append_observation` inserts under a rowid. -/
def insertObservation (c : Crates) (observationId : ℕ) (append : Append) : SqlRow :=
  ("observation_id", .integer observationId) ::
    insertColumns.zip (insertPlaceholders.map fun i => (append.params c).getD (i - 1) .null)

/-- Sets columns of a row. -/
def SqlRow.set (row : SqlRow) (values : List (String × SqlValue)) : SqlRow :=
  row.map fun p => (p.1, (List.lookup p.1 values).getD p.2)

/-- What seeing a record again sets in its row. -/
def seenColumns (crawlId : ℕ) (derivation : String) (fingerprint : Option String) :
    List (String × SqlValue) :=
  [("last_seen_crawl", .integer crawlId), ("derivation", .text derivation),
    ("fingerprint", optText fingerprint)]

/-! ### Reading -/

/-- The columns a select names, in order. -/
def OBSERVATION_COLUMNS : List String :=
  ["observation_id", "revision", "crawl_id", "last_seen_crawl", "derivation", "fingerprint",
    "content_hash", "resource_id", "local_id", "provider_id", "supersedes_provider_id", "state",
    "tombstone_reason", "surface", "posting", "amount_asset", "amount", "fees_asset", "fees",
    "raw_sign", "description", "provider_extra", "prov_adapter_id", "prov_provider_id",
    "prov_surface", "observed_at", "effective_at", "completeness", "received_at", "staleness"]

/-- The values a select returns of a row. -/
def selectColumns (row : SqlRow) : List SqlValue := OBSERVATION_COLUMNS.map row.column

/-- An integer. -/
def SqlValue.asInteger : SqlValue → Option ℤ
  | .integer n => some n
  | _ => none

/-- A text. -/
def SqlValue.asText : SqlValue → Option String
  | .text s => some s
  | _ => none

/-- A text that may be `NULL`. -/
def SqlValue.asOptText : SqlValue → Option (Option String)
  | .text s => some (some s)
  | .null => some none
  | .integer _ => none

/-- `row.get`: a column by its position, if it has the type. -/
def get {α : Type} (as : SqlValue → Option α) (row : List SqlValue) (i : ℕ) : Except ReadError α :=
  match row[i]?.bind as with
  | some v => .ok v
  | none => .error (.sqlite i)

/-- The raw column values, before they are turned back into a typed observation. -/
structure RawObservation where
  observationId : ℤ
  revision : ℤ
  crawlId : ℤ
  lastSeenCrawl : ℤ
  derivation : String
  fingerprint : Option String
  contentHash : String
  resourceId : String
  localId : String
  providerId : Option String
  supersedesProviderId : Option String
  state : String
  tombstoneReason : Option String
  surface : String
  posting : String
  amountAsset : String
  amount : String
  feesAsset : Option String
  fees : Option String
  rawSign : String
  description : String
  providerExtra : String
  provAdapterId : String
  provProviderId : String
  provSurface : String
  observedAt : String
  effectiveAt : Option String
  completeness : String
  receivedAt : String
  staleness : String
deriving DecidableEq

/-- `RawObservation::from_row`. -/
def RawObservation.fromRow (row : List SqlValue) : Except ReadError RawObservation := do
  return {
    observationId := ← get SqlValue.asInteger row 0
    revision := ← get SqlValue.asInteger row 1
    crawlId := ← get SqlValue.asInteger row 2
    lastSeenCrawl := ← get SqlValue.asInteger row 3
    derivation := ← get SqlValue.asText row 4
    fingerprint := ← get SqlValue.asOptText row 5
    contentHash := ← get SqlValue.asText row 6
    resourceId := ← get SqlValue.asText row 7
    localId := ← get SqlValue.asText row 8
    providerId := ← get SqlValue.asOptText row 9
    supersedesProviderId := ← get SqlValue.asOptText row 10
    state := ← get SqlValue.asText row 11
    tombstoneReason := ← get SqlValue.asOptText row 12
    surface := ← get SqlValue.asText row 13
    posting := ← get SqlValue.asText row 14
    amountAsset := ← get SqlValue.asText row 15
    amount := ← get SqlValue.asText row 16
    feesAsset := ← get SqlValue.asOptText row 17
    fees := ← get SqlValue.asOptText row 18
    rawSign := ← get SqlValue.asText row 19
    description := ← get SqlValue.asText row 20
    providerExtra := ← get SqlValue.asText row 21
    provAdapterId := ← get SqlValue.asText row 22
    provProviderId := ← get SqlValue.asText row 23
    provSurface := ← get SqlValue.asText row 24
    observedAt := ← get SqlValue.asText row 25
    effectiveAt := ← get SqlValue.asOptText row 26
    completeness := ← get SqlValue.asText row 27
    receivedAt := ← get SqlValue.asText row 28
    staleness := ← get SqlValue.asText row 29 }

section Reading

variable (t : RowCrates)

/-- A stored timestamp. -/
def readTimestamp (text : String) : Except ReadError Rfc3339 :=
  match Rfc3339.new text with
  | .ok ts => .ok ts
  | .error e => .error (.corruptRow ("timestamp " ++ t.debug text ++
      ": invalid RFC 3339 timestamp at offset " ++ toString e.offset))

/-- A stored amount. -/
def readMoney (asset text : String) : Except ReadError Amount :=
  match AssetId.new asset with
  | .error e => .error (.money e)
  | .ok asset =>
    match Amount.parse asset text with
    | .error e => .error (.money e)
    | .ok amount => .ok amount

/-- One of the small enumerations, from its spelling. -/
def fromSpelling {α : Type} (variants : List α) (spelling : α → String) (text : String) :
    Except ReadError α :=
  match variants.find? fun v => spelling v == text with
  | some v => .ok v
  | none => .error (.corruptRow ("enum " ++ t.debug text ++ ": " ++ t.noVariant text))

/-- Stored evidence. -/
def readExtra (text : String) : Except ReadError (List (String × Json)) :=
  match t.parseObject text with
  | some extra => .ok extra
  | none => .error .json

/-- Stored fees: an asset and a text, or none. -/
def readFees : Option String → Option String → Except ReadError (Option Amount)
  | some asset, some text => (readMoney asset text).map some
  | _, _ => .ok none

/-- `RawObservation::into_stored`, for a row of an adapter. -/
def RawObservation.intoStored (adapterId : String) (raw : RawObservation) :
    Except ReadError StoredObservation := do
  let observedAt ← readTimestamp t raw.observedAt
  let effectiveAt ← raw.effectiveAt.mapM (readTimestamp t)
  let completeness ← fromSpelling t [.complete, .partialRecord, .unknown] Completeness.spelling
    raw.completeness
  let receivedAt ← readTimestamp t raw.receivedAt
  let staleness ← fromSpelling t [.live, .cached, .unavailable] staleSpelling raw.staleness
  let provenance := Provenance.stamp
    ⟨raw.provAdapterId, raw.provProviderId, raw.provSurface, observedAt, effectiveAt, completeness⟩
    receivedAt staleness
  let state ← fromSpelling t [.active, .tombstoned] ObservationState.spelling raw.state
  let posting ← fromSpelling t [.pending, .posted, .unknown] Posting.spelling raw.posting
  let amount ← readMoney raw.amountAsset raw.amount
  let fees ← readFees raw.feesAsset raw.fees
  let rawSign ← fromSpelling t [.providerPositive, .providerNegative] RawSign.spelling raw.rawSign
  let providerExtra ← readExtra t raw.providerExtra
  if raw.revision < 0 then
    throw (.corruptRow ("revision " ++ toString raw.revision))
  return {
    adapterId
    revision := raw.revision.toNat
    crawlId := raw.crawlId.toNat
    lastSeenCrawl := raw.lastSeenCrawl.toNat
    derivation := raw.derivation
    fingerprint := raw.fingerprint
    contentHash := raw.contentHash
    observation := {
      resourceId := raw.resourceId
      localId := raw.localId
      providerId := raw.providerId
      supersedesProviderId := raw.supersedesProviderId
      state
      tombstoneReason := raw.tombstoneReason
      surface := raw.surface
      posting
      amount
      fees
      rawSign
      description := raw.description
      providerExtra
      provenance } }

/-- One row, read back for an adapter. -/
def readRow (adapterId : String) (row : SqlRow) : Except ReadError StoredObservation := do
  let raw ← RawObservation.fromRow (selectColumns row)
  raw.intoStored t adapterId

/-- `observations_for_adapter`, over rows in rowid order. -/
def readObservations (rows : List SqlRow) (adapterId : String) :
    Except ReadError (List StoredObservation) :=
  (rows.filter fun row => decide (row.column "adapter_id" = .text adapterId)).mapM
    (readRow t adapterId)

end Reading

/-! ### One row -/

section Row

variable {t : RowCrates} {c : Crates}

/-- A text that may be absent is read back. -/
@[simp]
lemma asOptText_optText (value : Option String) : (optText value).asOptText = some value := by
  cases value <;> rfl

/-- The row of an append, as it was last seen. -/
def seenRow (c : Crates) (observationId : ℕ) (append : Append) (crawlId : ℕ) (derivation : String)
    (fingerprint : Option String) : SqlRow :=
  (insertObservation c observationId append).set (seenColumns crawlId derivation fingerprint)

/-- A new row was last seen when it was appended. -/
lemma insertObservation_eq (observationId : ℕ) (append : Append) :
    insertObservation c observationId append =
      seenRow c observationId append append.crawlId append.derivation append.fingerprint := by
  simp [seenRow, SqlRow.set, seenColumns, insertObservation, insertColumns, insertPlaceholders,
    Append.params, List.lookup_cons]

/-- Of several times that a row was seen again, only the last one counts: its columns overwrite
those of the earlier ones. -/
lemma seenRow_set (observationId : ℕ) (append : Append) (crawlId crawlId' : ℕ)
    (derivation derivation' : String) (fingerprint fingerprint' : Option String) :
    (seenRow c observationId append crawlId derivation fingerprint).set
        (seenColumns crawlId' derivation' fingerprint') =
      seenRow c observationId append crawlId' derivation' fingerprint' := by
  simp [seenRow, SqlRow.set, seenColumns, insertObservation, insertColumns, insertPlaceholders,
    Append.params, List.lookup_cons]

/-- A row keeps the adapter that it was appended for. -/
lemma column_adapterId (observationId : ℕ) (append : Append) (crawlId : ℕ) (derivation : String)
    (fingerprint : Option String) :
    (seenRow c observationId append crawlId derivation fingerprint).column "adapter_id" =
      .text append.adapterId := by
  simp [SqlRow.column, seenRow, SqlRow.set, seenColumns, insertObservation, insertColumns,
    insertPlaceholders, Append.params, List.lookup_cons]

/-- The values a select returns of a row. -/
lemma selectColumns_seenRow (observationId : ℕ) (append : Append) (crawlId : ℕ)
    (derivation : String) (fingerprint : Option String) :
    selectColumns (seenRow c observationId append crawlId derivation fingerprint) =
      let o := append.observation
      [.integer observationId, .integer (min append.revision I64_MAX), .integer append.crawlId,
        .integer crawlId, .text derivation, optText fingerprint,
        .text append.contentHash, .text o.resourceId, .text o.localId, optText o.providerId,
        optText o.supersedesProviderId, .text o.state.spelling, optText o.tombstoneReason,
        .text o.surface, .text o.posting.spelling, .text o.amount.asset.text,
        .text o.amount.toText, optText (o.fees.map fun f => f.asset.text),
        optText (o.fees.map Amount.toText), .text o.rawSign.spelling, .text o.description,
        .text (c.jsonText (.obj o.providerExtra)), .text o.provenance.adapterId,
        .text o.provenance.providerId, .text o.provenance.surface,
        .text o.provenance.observedAt.text, optText (o.provenance.effectiveAt.map Rfc3339.text),
        .text o.provenance.completeness.spelling, .text o.provenance.receivedAt.text,
        .text (staleSpelling o.provenance.staleness)] := by
  simp [selectColumns, OBSERVATION_COLUMNS, SqlRow.column, seenRow, SqlRow.set, seenColumns,
    insertObservation, insertColumns, insertPlaceholders, Append.params, List.lookup_cons]

/-- The raw values of a row. -/
def Append.raw (c : Crates) (observationId : ℕ) (append : Append) (crawlId : ℕ)
    (derivation : String) (fingerprint : Option String) : RawObservation where
  observationId := observationId
  revision := min append.revision I64_MAX
  crawlId := append.crawlId
  lastSeenCrawl := crawlId
  derivation := derivation
  fingerprint := fingerprint
  contentHash := append.contentHash
  resourceId := append.observation.resourceId
  localId := append.observation.localId
  providerId := append.observation.providerId
  supersedesProviderId := append.observation.supersedesProviderId
  state := append.observation.state.spelling
  tombstoneReason := append.observation.tombstoneReason
  surface := append.observation.surface
  posting := append.observation.posting.spelling
  amountAsset := append.observation.amount.asset.text
  amount := append.observation.amount.toText
  feesAsset := append.observation.fees.map fun f => f.asset.text
  fees := append.observation.fees.map Amount.toText
  rawSign := append.observation.rawSign.spelling
  description := append.observation.description
  providerExtra := c.jsonText (.obj append.observation.providerExtra)
  provAdapterId := append.observation.provenance.adapterId
  provProviderId := append.observation.provenance.providerId
  provSurface := append.observation.provenance.surface
  observedAt := append.observation.provenance.observedAt.text
  effectiveAt := append.observation.provenance.effectiveAt.map Rfc3339.text
  completeness := append.observation.provenance.completeness.spelling
  receivedAt := append.observation.provenance.receivedAt.text
  staleness := staleSpelling append.observation.provenance.staleness

/-- **Every column comes back where it was put.** -/
lemma fromRow_seenRow (observationId : ℕ) (append : Append) (crawlId : ℕ) (derivation : String)
    (fingerprint : Option String) :
    RawObservation.fromRow
        (selectColumns (seenRow c observationId append crawlId derivation fingerprint)) =
      .ok (append.raw c observationId crawlId derivation fingerprint) := by
  rw [selectColumns_seenRow, RawObservation.fromRow]
  simp only [get, List.getElem?_cons_succ, List.getElem?_cons_zero, Option.bind_some,
    SqlValue.asInteger, SqlValue.asText, asOptText_optText]
  rfl

/-- A timestamp is read back from its text, which it was checked to be. -/
lemma readTimestamp_text (ts : Rfc3339) : readTimestamp t ts.text = .ok ts := by
  rw [readTimestamp, Rfc3339.new_text]

/-- An amount is read back from the text of its asset and its own text, with its scale. -/
lemma readMoney_toText (a : Amount) : readMoney a.asset.text a.toText = .ok a := by
  rw [readMoney, AssetId.new_text]
  dsimp only
  rw [a.parse_toText]

/-- One of the small enumerations is read back. -/
lemma fromSpelling_spelling {α : Type} {variants : List α} {spelling : α → String}
    (hinj : Function.Injective spelling) {v : α} (hv : v ∈ variants) :
    fromSpelling t variants spelling (spelling v) = .ok v := by
  have hsome : (variants.find? fun w => spelling w == spelling v).isSome = true :=
    List.find?_isSome.mpr ⟨v, hv, beq_self_eq_true _⟩
  obtain ⟨w, hw⟩ := Option.isSome_iff_exists.mp hsome
  have hspelling := List.find?_some hw
  rw [fromSpelling, hw, hinj (beq_iff_eq.mp hspelling)]

/-- **A row is read back as it was appended**, when its evidence is.

**Proof sketch.** Column by column. The texts of a timestamp, of an amount of money and of a
spelling are read back as what they were written from, the two columns that may be missing are
missing on both sides, and the evidence is read back by the hypothesis on the parser. A revision
above the largest integer of the table is stored as that integer, which is not negative, so the row
that is read has it. -/
lemma readRow_seenRow (observationId : ℕ) (append : Append) (crawlId : ℕ) (derivation : String)
    (fingerprint : Option String)
    (hextra : t.parseObject (c.jsonText (.obj append.observation.providerExtra)) =
      some append.observation.providerExtra) :
    readRow t append.adapterId (seenRow c observationId append crawlId derivation fingerprint) =
      .ok { append.row with
        revision := min append.revision I64_MAX
        lastSeenCrawl := crawlId
        derivation := derivation
        fingerprint := fingerprint } := by
  have heffective : (append.observation.provenance.effectiveAt.map Rfc3339.text).mapM
      (readTimestamp t) = .ok append.observation.provenance.effectiveAt := by
    cases append.observation.provenance.effectiveAt with
    | none => rfl
    | some ts => simp [readTimestamp_text]
  have hfees : readFees (append.observation.fees.map fun f => f.asset.text)
      (append.observation.fees.map Amount.toText) = .ok append.observation.fees := by
    cases append.observation.fees with
    | none => rfl
    | some fees => simp [readFees, readMoney_toText, Except.map]
  have hcompleteness (v : Completeness) : fromSpelling t [.complete, .partialRecord, .unknown]
      Completeness.spelling v.spelling = .ok v :=
    fromSpelling_spelling Completeness.spelling_injective (by cases v <;> simp)
  have hstaleness (v : Staleness) : fromSpelling t [.live, .cached, .unavailable]
      staleSpelling (staleSpelling v) = .ok v :=
    fromSpelling_spelling staleSpelling_injective (by cases v <;> simp)
  have hstate (v : ObservationState) : fromSpelling t [.active, .tombstoned]
      ObservationState.spelling v.spelling = .ok v :=
    fromSpelling_spelling ObservationState.spelling_injective (by cases v <;> simp)
  have hposting (v : Posting) : fromSpelling t [.pending, .posted, .unknown]
      Posting.spelling v.spelling = .ok v :=
    fromSpelling_spelling Posting.spelling_injective (by cases v <;> simp)
  have hsign (v : RawSign) : fromSpelling t [.providerPositive, .providerNegative]
      RawSign.spelling v.spelling = .ok v :=
    fromSpelling_spelling RawSign.spelling_injective (by cases v <;> simp)
  have hextra' : readExtra t (c.jsonText (.obj append.observation.providerExtra)) =
      .ok append.observation.providerExtra := by
    rw [readExtra, hextra]
  have hrevision : ¬ min (append.revision : ℤ) I64_MAX < 0 := by omega
  have hnat : (min (append.revision : ℤ) I64_MAX).toNat = min append.revision I64_MAX := by omega
  rw [readRow, fromRow_seenRow]
  simp only [bind, Except.bind, RawObservation.intoStored, Append.raw, readTimestamp_text,
    heffective, hcompleteness, hstaleness, hstate, hposting, readMoney_toText, hfees, hsign,
    hextra', if_neg hrevision, hnat]
  rfl

end Row

/-! ### The table -/

/-- A statement that writes the table of observations. -/
inductive Statement where
  | append (append : Append)
  | stampSeen (adapterId localId : String) (revision crawlId : ℕ) (derivation : String)
    (fingerprint : Option String)

/-- Runs one statement. Rows are never deleted, so that the next rowid is one more than their
number. -/
def runStatement (c : Crates) (rows : List SqlRow) : Statement → List SqlRow
  | .append append => rows ++ [insertObservation c (rows.length + 1) append]
  | .stampSeen adapterId localId revision crawlId derivation fingerprint =>
    rows.map fun row =>
      if row.column "adapter_id" = .text adapterId ∧ row.column "local_id" = .text localId ∧
          row.column "revision" = .integer (min revision I64_MAX) then
        row.set (seenColumns crawlId derivation fingerprint)
      else row

/-- Runs statements in order. -/
def runStatements (c : Crates) (rows : List SqlRow) (statements : List Statement) : List SqlRow :=
  statements.foldl (runStatement c) rows

/-- What a statement appends. -/
def Statement.appended : Statement → Option Append
  | .append new => some new
  | .stampSeen .. => none

section Table

variable {t : RowCrates} {c : Crates}

/-- The rows are those of some appends, each as it was last seen. -/
def Holds (c : Crates) (rows : List SqlRow) (appends : List Append) : Prop :=
  List.Forall₂ (fun row append => ∃ observationId crawlId derivation fingerprint,
    row = seenRow c observationId append crawlId derivation fingerprint) rows appends

/-- Writing what was seen keeps the rows those of their appends. -/
lemma Holds.map {rows : List SqlRow} {appends : List Append} (h : Holds c rows appends)
    {f : SqlRow → SqlRow} (hf : ∀ row, f row = row ∨ ∃ crawlId derivation fingerprint,
      f row = row.set (seenColumns crawlId derivation fingerprint)) :
    Holds c (rows.map f) appends := by
  rw [Holds, List.forall₂_map_left_iff]
  refine h.imp fun row append => ?_
  rintro ⟨observationId, crawlId, derivation, fingerprint, rfl⟩
  rcases hf (seenRow c observationId append crawlId derivation fingerprint) with hsame | hset
  · exact ⟨observationId, crawlId, derivation, fingerprint, hsame⟩
  · obtain ⟨crawlId', derivation', fingerprint', hset⟩ := hset
    refine ⟨observationId, crawlId', derivation', fingerprint', ?_⟩
    rw [hset, seenRow_set]

/-- What one statement does to the appends that the table holds. -/
lemma Holds.runStatement {rows : List SqlRow} {appends : List Append} (h : Holds c rows appends)
    (statement : Statement) :
    Holds c (Store.runStatement c rows statement) (appends ++ statement.appended.toList) := by
  cases statement with
  | append new =>
    refine List.rel_append h (List.Forall₂.cons ?_ .nil)
    exact ⟨_, _, _, _, insertObservation_eq _ new⟩
  | stampSeen adapterId localId revision crawlId derivation fingerprint =>
    rw [Statement.appended, Option.toList_none, List.append_nil]
    refine h.map fun row => ?_
    split_ifs
    · exact Or.inr ⟨crawlId, derivation, fingerprint, rfl⟩
    · exact Or.inl rfl

/-- What a run of statements leaves in the table: what it appended, in order. -/
lemma Holds.runStatements {rows : List SqlRow} {appends : List Append} (h : Holds c rows appends)
    (statements : List Statement) :
    Holds c (Store.runStatements c rows statements)
      (appends ++ statements.filterMap Statement.appended) := by
  induction statements generalizing rows appends with
  | nil => simpa [Store.runStatements] using h
  | cons statement statements ih =>
    have hnext := ih (h.runStatement statement)
    cases happended : statement.appended with
    | none => simpa [happended, Store.runStatements] using hnext
    | some append => simpa [happended, Store.runStatements] using hnext

/-- **The rows of an adapter are read back as its appends**, each as it was last seen. -/
lemma Holds.readObservations {rows : List SqlRow} {appends : List Append} (h : Holds c rows appends)
    (hextra : ∀ append ∈ appends,
      t.parseObject (c.jsonText (.obj append.observation.providerExtra)) =
        some append.observation.providerExtra) (adapterId : String) :
    ∃ stored, Store.readObservations t rows adapterId = .ok stored ∧
      stored.map (fun r => (r.adapterId, r.contentHash, r.observation)) =
        (appends.filter (·.adapterId == adapterId)).map fun append =>
          (append.adapterId, append.contentHash, append.observation) := by
  induction h with
  | nil => exact ⟨[], rfl, rfl⟩
  | @cons row append rows appends hrow hrest ih =>
    obtain ⟨stored, hstored, hmap⟩ := ih fun a ha => hextra a (List.mem_cons_of_mem _ ha)
    obtain ⟨observationId, crawlId, derivation, fingerprint, rfl⟩ := hrow
    rw [Store.readObservations] at hstored ⊢
    simp only [List.filter_cons, column_adapterId, SqlValue.text.injEq, decide_eq_true_eq]
    by_cases hadapter : append.adapterId = adapterId
    · subst hadapter
      rw [if_pos rfl, List.mapM_cons, hstored,
        readRow_seenRow _ _ _ _ _ (hextra append List.mem_cons_self)]
      refine ⟨_, rfl, ?_⟩
      rw [List.map_cons, hmap, if_pos (beq_self_eq_true _), List.map_cons]
      rfl
    · rw [if_neg hadapter, if_neg (by simpa using hadapter)]
      exact ⟨stored, hstored, hmap⟩

end Table

/-- **Observations survive storage exactly.** After any statements on a new table, of whose evidence
the text is read back, the observations of an adapter are read back field for field as they were
appended, in order, under their hashes, and so is the fold of them. A stored hash that was that of
its observation is that of the observation read back, and of every later report with the same
content, whatever stamps it has.

**Proof sketch.** The table holds, row by row, what was appended (`Holds`), and each statement keeps
this: an append adds a row, a stamp rewrites columns that are not read back into the observation.
The rows of one adapter are then read back in order. The fold sees the observations only, and the
stored hash is compared through them. -/
theorem observations_survive (c : Crates) (t : RowCrates) (statements : List Statement)
    (hextra : ∀ append ∈ statements.filterMap Statement.appended,
      t.parseObject (c.jsonText (.obj append.observation.providerExtra)) =
        some append.observation.providerExtra) (adapterId : String) :
    ∃ stored, readObservations t (runStatements c [] statements) adapterId = .ok stored ∧
      stored.map (fun r => (r.contentHash, r.observation)) =
        ((statements.filterMap Statement.appended).filter (·.adapterId == adapterId)).map
          (fun append => (append.contentHash, append.observation)) ∧
      replay (stored.map StoredObservation.observation) =
        replay (((statements.filterMap Statement.appended).filter (·.adapterId == adapterId)).map
          Append.observation) ∧
      ((∀ append ∈ statements.filterMap Statement.appended,
          append.contentHash = contentHash c append.observation) →
        ∀ r ∈ stored, r.contentHash = contentHash c r.observation ∧
          ∀ o : Observation, o.authored = r.observation.authored →
            contentHash c o = r.contentHash) := by
  have hholds : Holds c (runStatements c [] statements)
      (statements.filterMap Statement.appended) := by
    have hnone : Holds c [] [] := .nil
    have hrun := hnone.runStatements statements
    rwa [List.nil_append] at hrun
  obtain ⟨stored, hstored, hmap⟩ := hholds.readObservations hextra adapterId
  have hpairs : stored.map (fun r => (r.contentHash, r.observation)) =
      ((statements.filterMap Statement.appended).filter (·.adapterId == adapterId)).map
        (fun append => (append.contentHash, append.observation)) := by
    have hsnd := congrArg (List.map Prod.snd) hmap
    simpa [List.map_map, Function.comp_def] using hsnd
  refine ⟨stored, hstored, hpairs, ?_, fun hhashes r hr => ?_⟩
  · have hobservations := congrArg (List.map Prod.snd) hpairs
    simp only [List.map_map, Function.comp_def] at hobservations
    exact congrArg replay hobservations
  · have hmem : (r.contentHash, r.observation) ∈
        stored.map fun r => (r.contentHash, r.observation) := List.mem_map_of_mem hr
    rw [hpairs] at hmem
    obtain ⟨append, happend, heq⟩ := List.mem_map.mp hmem
    obtain ⟨hhash, hobs⟩ := Prod.mk.inj heq
    have hown : r.contentHash = contentHash c r.observation := by
      rw [← hhash, ← hobs]
      exact hhashes append (List.mem_of_mem_filter happend)
    exact ⟨hown, fun o ho => (contentHash_congr c ho).trans hown.symm⟩

/-- Evidence, and what reads it back. -/
def Sample.memo : List (String × Json) := [("memo", .str "x")]

/-- Third-party code for the sample rows: a map is written as pairs that no other map has. -/
def Sample.rowCrates : RowCrates where
  debug text := "\"" ++ text ++ "\""
  noVariant text := "unknown variant " ++ text
  parseObject text := if text = "\x7b\"memo\":\"x\"\x7d" then some Sample.memo else none

/-- A record with evidence, appended and seen again. -/
def Sample.noted : Observation := { Sample.unnamed with providerExtra := Sample.memo }

/-- The statements of a short session: a row, an older row in its place, and a derivation. -/
def Sample.statements : List Statement :=
  [.append ⟨"bank", 1, 1, "d", none, contentHash Sample.textCrates Sample.noted, Sample.noted⟩,
    .stampSeen "bank" "L1" 1 2 "d" (some "f")]

/-- The record is read back after it was seen again.

**Proof sketch.** The memo is written as a text that the parser, a small one, reads back, by
evaluation. Of the statements one appends, so one record is read back, and it is the one that was
appended. -/
theorem observations_survive_sample :
    ∃ stored, readObservations Sample.rowCrates
        (runStatements Sample.textCrates [] Sample.statements) "bank" = .ok stored ∧
      stored.map StoredObservation.observation = [Sample.noted] := by
  have hextra : ∀ append ∈ Sample.statements.filterMap Statement.appended,
      Sample.rowCrates.parseObject
        (Sample.textCrates.jsonText (.obj append.observation.providerExtra)) =
          some append.observation.providerExtra := by
    intro append happend
    have heq : append = ⟨"bank", 1, 1, "d", none, contentHash Sample.textCrates Sample.noted,
        Sample.noted⟩ := List.mem_singleton.mp happend
    have htext : Sample.textCrates.jsonText (.obj Sample.noted.providerExtra) =
        "\x7b\"memo\":\"x\"\x7d" := by
      decide +kernel
    have hparse : Sample.rowCrates.parseObject "\x7b\"memo\":\"x\"\x7d" = some Sample.memo := by
      simp [Sample.rowCrates]
    rw [heq]
    exact (congrArg Sample.rowCrates.parseObject htext).trans hparse
  obtain ⟨stored, hstored, hpairs, -⟩ :=
    observations_survive Sample.textCrates Sample.rowCrates Sample.statements hextra "bank"
  have hlist : ((Sample.statements.filterMap Statement.appended).filter
      (·.adapterId == "bank")).map (fun append => (append.contentHash, append.observation)) =
      [(contentHash Sample.textCrates Sample.noted, Sample.noted)] := rfl
  rw [hlist] at hpairs
  refine ⟨stored, hstored, ?_⟩
  have hobservations := congrArg (List.map Prod.snd) hpairs
  rwa [List.map_map] at hobservations

end Sumer.Store
