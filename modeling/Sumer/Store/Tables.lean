import Sumer.Host.Fold
import Sumer.Store.Hash

set_option relaxedAutoImplicit false
set_option autoImplicit false

/-!
# The tables

The SQLite tables a sweep reads and writes, and the statements over them
(`core/store/src/schema.rs`, `core/store/src/store.rs`). A table is the list of its rows in rowid
order; rows are never deleted, so an insert appends. A statement that a constraint rejects is an
error and leaves nothing behind.

## Main definitions

* `Sumer.Store.Db`: the tables.
* `Sumer.Store.Db.openCrawl`, `Sumer.Store.Db.setCrawlCursor`, `Sumer.Store.Db.finishCrawl`,
  `Sumer.Store.Db.resumableCrawl`: crawls.
* `Sumer.Store.Db.appendObservation`, `Sumer.Store.Db.stampSeen`: observations.
* `Sumer.Store.Db.appendRetraction`, `Sumer.Store.Db.retractionHighWater`: retractions.
-/

namespace Sumer.Store

open Sumer.Wire

/-- The errors of the store. -/
inductive StoreError where
  | sqlite (message : String)
  | json
  | host (message : String)
deriving DecidableEq

/-- The error of a second row for one revision of one chain. -/
def uniqueRevision : StoreError :=
  .sqlite "UNIQUE constraint failed: adapter_id, local_id, revision"

/-- The error of a reference to a row that does not exist. -/
def foreignKey : StoreError := .sqlite "FOREIGN KEY constraint failed"

/-- A connected adapter. -/
structure AdapterRow where
  adapterId : String
  argv : List String
  localIdDerivation : Option String
  needsReauth : Bool
  balanceRead : ℕ
deriving DecidableEq

/-- A resource of an adapter, and what the last sweeps recorded about its definition. -/
structure ResourceRow where
  adapterId : String
  resourceId : String
  kind : String
  label : String
  fingerprint : Option String
  lastProviderId : Option String
deriving DecidableEq

/-- One crawl of one resource. -/
structure CrawlRow where
  crawlId : ℕ
  adapterId : String
  resourceId : String
  startedAt : String
  startPage : Option String
  nextPage : Option String
  localIdDerivation : String
  fingerprint : Option String
  drained : Bool
  complete : Bool
  disqualifiedReason : Option String
deriving DecidableEq

/-- One stored observation: the record, and the host-side columns that say which sweep put it
there and under what software rules. -/
structure StoredObservation where
  adapterId : String
  revision : ℕ
  crawlId : ℕ
  lastSeenCrawl : ℕ
  derivation : String
  fingerprint : Option String
  contentHash : String
  observation : Observation

/-- One retraction: the host's record of an absence. -/
structure RetractionRow where
  adapterId : String
  localId : String
  revision : ℕ
  reason : String
  crawlId : ℕ
  retractedAt : String
deriving DecidableEq

/-- One noted discrepancy. -/
structure DiscrepancyRow where
  adapterId : String
  resourceId : String
  kind : String
  crawlId : ℕ
  detail : String
  notedAt : String
deriving DecidableEq

/-- The tables, each in rowid order. -/
@[ext]
structure Db where
  adapters : List AdapterRow
  resources : List ResourceRow
  crawls : List CrawlRow
  observations : List StoredObservation
  retractions : List RetractionRow
  discrepancies : List DiscrepancyRow

/-- The tables of a new profile. -/
def Db.empty : Db := ⟨[], [], [], [], [], []⟩

/-- An `UPDATE`: the rows that match are changed in place. -/
def update {α : Type} (p : α → Bool) (f : α → α) (rows : List α) : List α :=
  rows.map fun r => if p r then f r else r

/-! ### Adapters and resources -/

/-- Inserts an adapter, or changes the argv of the one there is. -/
def Db.upsertAdapter (db : Db) (adapterId : String) (argv : List String) : Db :=
  if db.adapters.any (·.adapterId == adapterId) then
    { db with adapters := update (·.adapterId == adapterId) ({ · with argv := argv }) db.adapters }
  else { db with adapters := db.adapters ++ [⟨adapterId, argv, none, false, 0⟩] }

/-- Records the derivation the last hello reported. -/
def Db.setAdapterDerivation (db : Db) (adapterId derivation : String) : Db :=
  { db with
    adapters := update (·.adapterId == adapterId)
      ({ · with localIdDerivation := some derivation }) db.adapters }

/-- Records whether a credential must be renewed. -/
def Db.setNeedsReauth (db : Db) (adapterId : String) (needs : Bool) : Db :=
  { db with
    adapters := update (·.adapterId == adapterId) ({ · with needsReauth := needs }) db.adapters }

/-- Opens a balance read: the adapter's read counter goes up by one and is returned. -/
def Db.openBalanceRead (db : Db) (adapterId : String) : Except StoreError (Db × ℕ) :=
  match db.adapters.find? (·.adapterId == adapterId) with
  | none => .error (.sqlite "query returned no rows")
  | some row =>
    .ok ({ db with
      adapters := update (·.adapterId == adapterId)
        (fun r => { r with balanceRead := r.balanceRead + 1 }) db.adapters }, row.balanceRead + 1)

/-- Inserts a resource of a connected adapter, or changes the kind and label of the one there
is. -/
def Db.upsertResource (db : Db) (adapterId resourceId kind label : String) :
    Except StoreError Db :=
  let same := fun r : ResourceRow => r.adapterId == adapterId && r.resourceId == resourceId
  if db.resources.any same then
    .ok { db with
      resources := update same ({ · with kind := kind, label := label }) db.resources }
  else if db.adapters.any (·.adapterId == adapterId) then
    .ok { db with
      resources := db.resources ++ [⟨adapterId, resourceId, kind, label, none, none⟩] }
  else .error foreignKey

/-- The row of one resource. -/
def Db.resource (db : Db) (adapterId resourceId : String) : Option ResourceRow :=
  db.resources.find? fun r => r.adapterId == adapterId && r.resourceId == resourceId

/-- Records a resource definition. `providerId` is `none` for a sweep that must not adopt the
vantage it read from; the old one is kept then. -/
def Db.setResourceDefinition (db : Db) (adapterId resourceId fingerprint : String)
    (providerId : Option String) : Db :=
  { db with
    resources := update (fun r => r.adapterId == adapterId && r.resourceId == resourceId)
      (fun r => { r with
        fingerprint := some fingerprint
        lastProviderId := providerId.or r.lastProviderId }) db.resources }

/-! ### Crawls -/

/-- The rowid the next crawl gets: one more than the largest. -/
def Db.nextCrawlId (db : Db) : ℕ := ((db.crawls.map CrawlRow.crawlId).max?).getD 0 + 1

/-- Opens a crawl, retiring every earlier crawl's resume point for this resource. The two
statements are one transaction. -/
def Db.openCrawl (db : Db) (adapterId resourceId startedAt : String) (startPage : Option String)
    (derivation : String) (fingerprint : Option String) : Db × ℕ :=
  let crawlId := db.nextCrawlId
  let retired := update (fun r => r.adapterId == adapterId && r.resourceId == resourceId)
    ({ · with nextPage := none }) db.crawls
  ({ db with
    crawls := retired ++
      [{ crawlId, adapterId, resourceId, startedAt, startPage, nextPage := startPage,
         localIdDerivation := derivation, fingerprint, drained := false, complete := false,
         disqualifiedReason := none }] }, crawlId)

/-- Writes a crawl's resume point. -/
def Db.setCrawlCursor (db : Db) (crawlId : ℕ) (nextPage : Option String) : Db :=
  { db with
    crawls := update (fun r => decide (r.crawlId = crawlId))
      ({ · with nextPage := nextPage }) db.crawls }

/-- Closes a crawl's books. A drained crawl offers no cursor; the others keep theirs. -/
def Db.finishCrawl (db : Db) (crawlId : ℕ) (drained complete : Bool)
    (disqualifiedReason : Option String) : Db :=
  { db with
    crawls := update (fun r => decide (r.crawlId = crawlId))
      (fun r => { r with
        drained := drained
        complete := complete
        disqualifiedReason := disqualifiedReason
        nextPage := if drained then none else r.nextPage }) db.crawls }

/-- The crawl a `--resume` would continue: the most recent one for this resource that never
drained and still holds a cursor. -/
def Db.resumableCrawl (db : Db) (adapterId resourceId : String) : Option CrawlRow :=
  latest CrawlRow.crawlId (db.crawls.filter fun r =>
    r.adapterId == adapterId && r.resourceId == resourceId && !r.drained && r.nextPage.isSome)

/-- Whether a crawl exists: what the foreign keys on `crawl_id` ask. -/
def Db.hasCrawl (db : Db) (crawlId : ℕ) : Bool :=
  db.crawls.any fun r => decide (r.crawlId = crawlId)

/-! ### Observations -/

/-- Every stored observation of one adapter, in stored order. -/
def Db.observationsForAdapter (db : Db) (adapterId : String) : List StoredObservation :=
  db.observations.filter fun r => r.adapterId == adapterId

/-- What a new observation row is made of. -/
structure Append where
  adapterId : String
  revision : ℕ
  crawlId : ℕ
  derivation : String
  fingerprint : Option String
  contentHash : String
  observation : Observation

/-- The row an append inserts. -/
def Append.row (append : Append) : StoredObservation where
  adapterId := append.adapterId
  revision := append.revision
  crawlId := append.crawlId
  lastSeenCrawl := append.crawlId
  derivation := append.derivation
  fingerprint := append.fingerprint
  contentHash := append.contentHash
  observation := append.observation

/-- Appends one observation under the revision the fold assigned. -/
def Db.appendObservation (db : Db) (append : Append) : Except StoreError Db :=
  if db.observations.any (fun r => r.adapterId == append.adapterId &&
      r.observation.localId == append.observation.localId &&
        decide (r.revision = append.revision)) then
    .error uniqueRevision
  else if db.hasCrawl append.crawlId then
    .ok { db with observations := db.observations ++ [append.row] }
  else .error foreignKey

/-- Records that a crawl saw a record again, on the row of the given revision, and under which
software rules. -/
def Db.stampSeen (db : Db) (adapterId localId : String) (revision crawlId : ℕ)
    (derivation : String) (fingerprint : Option String) : Db :=
  { db with
    observations := update (fun r => r.adapterId == adapterId &&
        r.observation.localId == localId && decide (r.revision = revision))
      ({ · with lastSeenCrawl := crawlId, derivation := derivation, fingerprint := fingerprint })
      db.observations }

/-! ### Retractions and discrepancies -/

/-- Appends a retraction. -/
def Db.appendRetraction (db : Db) (row : RetractionRow) : Except StoreError Db :=
  if db.hasCrawl row.crawlId then .ok { db with retractions := db.retractions ++ [row] }
  else .error foreignKey

/-- The highest retraction revision per `local_id` of one adapter. -/
def Db.retractionHighWater (db : Db) (adapterId localId : String) : Option ℕ :=
  ((db.retractions.filter fun r => r.adapterId == adapterId && r.localId == localId).map
    RetractionRow.revision).max?

/-- Appends a discrepancy. -/
def Db.appendDiscrepancy (db : Db) (row : DiscrepancyRow) : Except StoreError Db :=
  if db.hasCrawl row.crawlId then .ok { db with discrepancies := db.discrepancies ++ [row] }
  else .error foreignKey

end Sumer.Store
