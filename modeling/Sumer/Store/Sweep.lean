import Sumer.Host.Error
import Sumer.Host.Paging
import Sumer.Host.Time
import Sumer.Store.Tables

set_option relaxedAutoImplicit false
set_option autoImplicit false

/-!
# The parts of a sweep

What one `history.read` for one resource does with its pages (`core/store/src/sweep.rs`): the
gate that decides whether an absence is evidence, the ingestion of one page, the live set, and
the derivation of retractions. Code that runs inside a transaction takes the tables and returns
them, or an error that rolls everything back.

## Main definitions

* `Sumer.Store.Gate.disqualifier`, `Sumer.Store.judgePage`: the nine conditions.
* `Sumer.Store.ingestPage`: append or stamp the observations of one page.
* `Sumer.Store.liveSet`, `Sumer.Store.liveRecords`: what is live under a resource.
* `Sumer.Store.deriveRetractions`: what a complete sweep retracts.
-/

namespace Sumer.Store

open Sumer.Wire Sumer.Host

/-- A hard stop on the page loop. -/
def MAX_PAGES : ℕ := 100000

/-! ### Retraction reasons and discrepancy kinds -/

/-- A crawl that is void since the derivation of its ids changed. -/
def REASON_DERIVATION : String := "derivation_changed"

/-- A crawl that is void since its resource was redefined. -/
def REASON_DEFINITION : String := "resource_definition_changed"

/-- A record that a complete sweep did not have. -/
def REASON_ABSENT : String := "absent_from_complete_sweep"

/-- The adapter names its records by another rule than before. -/
def KIND_DERIVATION : String := "derivation_changed"

/-- A resource is defined in another way than before. -/
def KIND_DEFINITION : String := "resource_definition_changed"

/-- A sweep looks at a resource from another vantage than the one before it. -/
def KIND_VANTAGE : String := "vantage_changed"

/-- A sweep that is complete and has not one record, over a resource that has some. -/
def KIND_EMPTY : String := "empty_sweep"

/-- A record that is absent since the history does not go back to it. -/
def KIND_HISTORY_START : String := "history_start_exempt"

/-! ### Inputs and reports -/

/-- `resume` continues a crawl from its persisted cursor; `confirmEmpty` is the only way to
retract everything a resource holds. -/
structure SweepOptions where
  resume : Bool
  confirmEmpty : Bool
deriving DecidableEq

/-- A discrepancy as a report lists it. -/
structure Discrepancy where
  kind : String
  detail : String
deriving DecidableEq

/-- What one sweep did. -/
structure SweepReport where
  adapterId : String
  resourceId : String
  crawlId : Option ℕ
  appendedNew : ℕ
  revised : ℕ
  unchanged : ℕ
  retracted : ℕ
  complete : Bool
  disqualifiedReason : Option String
  discrepancies : List Discrepancy
  error : Option String
  contractViolation : Option String
deriving DecidableEq

/-- A report of nothing yet. -/
def SweepReport.empty (adapterId resourceId : String) : SweepReport :=
  { adapterId, resourceId, crawlId := none, appendedNew := 0, revised := 0, unchanged := 0,
    retracted := 0, complete := false, disqualifiedReason := none, discrepancies := [],
    error := none, contractViolation := none }

/-- Everything about a resource that is fixed before the first page. -/
structure SweepInput where
  adapterId : String
  resourceId : String
  helloDerivation : String
  fingerprint : String
  providerId : String
  historyStart : Option Rfc3339
  connectionViolation : Option String
  options : SweepOptions

/-- Whether a failure means that the connection broke the wire contract, as opposed to failing
honestly. -/
def brokeTheContract : HostError → Bool
  | .wire body => body.code = .invalidRequest
  | .protocolViolation _ => true
  | .timeout => false
  | .adapterCrashed _ => false
  | .spawn _ => false
  | .idsExhausted => false

/-! ### The gate -/

/-- What the page loop observed, judged once at the end. -/
structure Gate where
  beganAtStartOfHistory : Bool
  drained : Bool
  everyPageFetched : Bool
  anonymousDegrade : Bool
  everyCursorExact : Bool
  helloDerivation : String
  foreignProvenance : Bool
  notFetched : Option String
  connectionViolation : Option String

/-- `none` if all nine conditions hold, otherwise the first that failed. -/
def Gate.disqualifier (gate : Gate) : Option String :=
  if gate.connectionViolation.isSome then gate.connectionViolation
  else if !gate.beganAtStartOfHistory then some "did not begin at the start of available history"
  else if !gate.drained then some "did not drain to next: null"
  else if !gate.everyPageFetched then
    some (gate.notFetched.getD "a page did not report fetched")
  else if gate.anonymousDegrade then some "an anonymous degraded record"
  else if !gate.everyCursorExact then some "a page cursor was not exact-resumable"
  else if gate.helloDerivation.isEmpty then some "no hello local_id_derivation on the crawl"
  else if gate.foreignProvenance then
    some "an observation's provenance named another adapter"
  else none

/-- The wire name of an outcome. -/
def outcomeName : ReadOutcome → String
  | .fetched _ => "fetched"
  | .notFetched => "not_fetched"
  | .stale _ => "stale"
  | .rateLimited _ => "rate_limited"
  | .unavailable => "unavailable"
  | .reauthRequired => "reauth_required"
  | .revoked => "revoked"
  | .gone => "gone"
  | .scaRequired => "sca_required"

/-- Whether an outcome is `fetched`. -/
def isFetched : ReadOutcome → Bool
  | .fetched _ => true
  | _ => false

/-- Folds one page's status into the gate. Every degraded entry counts: a named one exempts its
id, an anonymous one disqualifies the sweep. -/
def judgePage (gate : Gate) (exemptIds : List String) (status : ResourceStatus)
    (pageNumber : ℕ) : Gate × List String :=
  let fetched := isFetched status.outcome
  ({ gate with
      everyPageFetched := gate.everyPageFetched && fetched
      notFetched :=
        if fetched then gate.notFetched
        else gate.notFetched.or
          (some (outcomeName status.outcome ++ " on page " ++ toString (pageNumber + 1)))
      anonymousDegrade := gate.anonymousDegrade || status.degraded.any (·.localId.isNone)
      everyCursorExact := gate.everyCursorExact &&
        status.page.all fun page => decide (page.cursorResumable = .exact) },
    exemptIds ++ status.degraded.filterMap Degraded.localId)

/-- The observations of a page that are this adapter's own and of this resource. -/
def keptObservations (input : SweepInput) (observations : List Observation) : List Observation :=
  observations.filter fun o =>
    o.provenance.adapterId == input.adapterId && o.resourceId == input.resourceId

/-- Whether some observation of a page names another adapter. -/
def namesAnotherAdapter (input : SweepInput) (observations : List Observation) : Bool :=
  observations.any fun o => o.provenance.adapterId != input.adapterId

/-! ### Ingesting a page -/

/-- The software rules a chain's head was last reported under. -/
structure HeadMeta where
  derivation : String
  fingerprint : Option String
deriving DecidableEq

/-- Whether a retraction currently buries a chain of the given highest revision. -/
def isBuried (highWater : String → Option ℕ) (localId : String) (revision : ℕ) : Bool :=
  (highWater localId).any fun retracted => decide (retracted ≥ revision)

/-- How many records a page added, changed or repeated. -/
structure PageCounts where
  appendedNew : ℕ
  revised : ℕ
  unchanged : ℕ
deriving DecidableEq

/-- What the ingestion of a page works on. -/
structure Ingesting where
  db : Db
  fold : Fold
  headMeta : String → Option HeadMeta
  counts : PageCounts

/-- The head of the chain of an observation, by the fold in memory. -/
def Ingesting.head (s : Ingesting) (adapterId : String) (observation : Observation) :
    Option RevisionedObservation :=
  (s.fold.chain adapterId observation.localId).getLast?

/-- The revision that names the row to stamp: the head's own. -/
def Ingesting.stampedRevision (s : Ingesting) (adapterId : String) (observation : Observation) :
    ℕ :=
  ((s.head adapterId observation).map RevisionedObservation.revision).getD 1

/-- Whether an observation says what the head of its chain already says, of a chain that no
retraction buries. -/
def Ingesting.alreadyHeld (c : Crates) (buried : String → Option ℕ) (s : Ingesting)
    (adapterId : String) (observation : Observation) : Bool :=
  let hash := contentHash c observation
  let headHash := (s.head adapterId observation).map fun h => contentHash c h.observation
  let currentlyRetracted := (s.fold.highestRevision adapterId observation.localId).any
    (isBuried buried observation.localId)
  !currentlyRetracted && headHash == some hash

/-- Appends one observation, or stamps the chain's head when it says the same thing again and no
retraction buries the chain. -/
def ingestOne (c : Crates) (input : SweepInput) (crawlId : ℕ) (buried : String → Option ℕ)
    (s : Ingesting) (observation : Observation) : Except StoreError Ingesting :=
  let headMeta := Function.update s.headMeta observation.localId
    (some ⟨input.helloDerivation, some input.fingerprint⟩)
  if s.alreadyHeld c buried input.adapterId observation then
    .ok { s with
      db := s.db.stampSeen input.adapterId observation.localId
        (s.stampedRevision input.adapterId observation) crawlId input.helloDerivation
        (some input.fingerprint)
      headMeta := headMeta
      counts := { s.counts with unchanged := s.counts.unchanged + 1 } }
  else
    let (fold, revision) := s.fold.ingest observation
    let append : Append :=
      { adapterId := input.adapterId, revision, crawlId, derivation := input.helloDerivation,
        fingerprint := some input.fingerprint, contentHash := contentHash c observation,
        observation }
    match s.db.appendObservation append with
    | .error e => .error e
    | .ok db =>
      .ok {
        db := db
        fold := fold
        headMeta := headMeta
        counts :=
          if revision = 1 then { s.counts with appendedNew := s.counts.appendedNew + 1 }
          else { s.counts with revised := s.counts.revised + 1 } }

/-- Appends or dedups one page's observations, in order. -/
def ingestPage (c : Crates) (input : SweepInput) (crawlId : ℕ) (buried : String → Option ℕ)
    (s : Ingesting) (observations : List Observation) : Except StoreError Ingesting :=
  observations.foldlM (ingestOne c input crawlId buried) s

/-! ### The live set -/

/-- The live set of one resource: active fold heads that are not buried, sorted by `local_id`,
each with its chain's highest revision. -/
def liveSet (fold : Fold) (highWater : String → Option ℕ) (adapterId resourceId : String) :
    List (String × ℕ × Observation) :=
  let heads := fold.liveSet.filter fun p =>
    p.1.1 == adapterId && p.2.observation.resourceId == resourceId
  let live := heads.filterMap fun p =>
    (fold.highestRevision adapterId p.1.2).bind fun revision =>
      if isBuried highWater p.1.2 revision then none
      else some (p.1.2, revision, p.2.observation)
  live.insertionSort fun a b => a.1 ≤ b.1

/-- The fold of an adapter's stored observations. -/
def loadFold (db : Db) (adapterId : String) : Fold :=
  replay ((db.observationsForAdapter adapterId).map StoredObservation.observation)

/-- The live set of one resource, as `history` reads it. -/
def liveRecords (db : Db) (adapterId resourceId : String) : List (String × ℕ × Observation) :=
  liveSet (loadFold db adapterId) (db.retractionHighWater adapterId) adapterId resourceId

/-! ### Deriving retractions -/

/-- What a derivation did. -/
structure RetractionOutcome where
  retracted : ℕ
  discrepancies : List Discrepancy

/-- What the derivation works on. -/
structure Deriving where
  db : Db
  retracted : ℕ
  derivationChanged : ℕ
  definitionChanged : ℕ
  historyStartExempt : ℕ

/-- Whether `history_start` leaves a record in this sweep's reach. A date that cannot be ordered
exempts. -/
def inReach (historyStart : Option Rfc3339) (head : Observation) : Bool :=
  match historyStart with
  | none => true
  | some start =>
    notBefore (head.provenance.effectiveAt.getD head.provenance.observedAt) start

/-- Why a record is retracted, by the software rules its head was last reported under. -/
def retractionReason (input : SweepInput) (rules : Option HeadMeta) : String :=
  if rules.any (·.derivation != input.helloDerivation) then REASON_DERIVATION
  else if rules.any (·.fingerprint != some input.fingerprint) then REASON_DEFINITION
  else REASON_ABSENT

/-- Retracts one live record, unless the sweep observed it or something exempts it. -/
def deriveOne (input : SweepInput) (crawlId : ℕ) (headMeta : String → Option HeadMeta)
    (observedIds exemptIds : List String) (now : Rfc3339) (s : Deriving)
    (record : String × ℕ × Observation) : Except StoreError Deriving :=
  let (localId, revision, head) := record
  if localId ∈ observedIds then .ok s
  else if localId ∈ exemptIds then .ok s
  else if !inReach input.historyStart head then
    .ok { s with historyStartExempt := s.historyStartExempt + 1 }
  else
    let reason := retractionReason input (headMeta localId)
    match s.db.appendRetraction
      { adapterId := input.adapterId, localId, revision, reason, crawlId,
        retractedAt := now.text } with
    | .error e => .error e
    | .ok db =>
      .ok { s with
        db := db
        retracted := s.retracted + 1
        derivationChanged := s.derivationChanged + if reason = REASON_DERIVATION then 1 else 0
        definitionChanged := s.definitionChanged + if reason = REASON_DEFINITION then 1 else 0 }

/-- The discrepancies of a sweep that went through its live records: one for each kind that
occurred at all. -/
def noted (s : Deriving) : List Discrepancy :=
  let software (count : ℕ) (kind what : String) : List Discrepancy :=
    if count = 0 then []
    else [⟨kind, "the " ++ what ++ " changed; " ++ toString count ++
      " record(s) that can no longer be re-emitted were retired under " ++ kind ++
      ", naming the software change rather than the provider"⟩]
  software s.derivationChanged KIND_DERIVATION "derivation" ++
    software s.definitionChanged KIND_DEFINITION "resource definition" ++
    if s.historyStartExempt = 0 then []
    else [⟨KIND_HISTORY_START, toString s.historyStartExempt ++
      " live record(s) predate the adapter's reported history_start " ++
      "and were exempted from retraction"⟩]

/-- Writes one discrepancy row. -/
def noteDiscrepancy (input : SweepInput) (crawlId : ℕ) (now : Rfc3339) (db : Db)
    (d : Discrepancy) : Except StoreError Db :=
  db.appendDiscrepancy
    { adapterId := input.adapterId, resourceId := input.resourceId, kind := d.kind, crawlId,
      detail := d.detail, notedAt := now.text }

/-- The discrepancy of a complete but empty sweep against a nonempty live set. -/
def emptySweep (live : List (String × ℕ × Observation)) : Discrepancy :=
  ⟨KIND_EMPTY, "a complete sweep returned no observations against " ++ toString live.length ++
    " live record(s); nothing retracted -- re-run with --confirm-empty to retract them all"⟩

/-- The retraction derivation, run inside the final page's transaction. -/
def deriveRetractions (db : Db) (input : SweepInput) (crawlId : ℕ) (fold : Fold)
    (headMeta : String → Option HeadMeta) (observedIds exemptIds : List String) (now : Rfc3339) :
    Except StoreError (Db × RetractionOutcome) :=
  let live := liveSet fold (db.retractionHighWater input.adapterId) input.adapterId
    input.resourceId
  let previousVantage := (db.resource input.adapterId input.resourceId).bind
    ResourceRow.lastProviderId
  match previousVantage.filter (· != input.providerId) with
  | some previous => do
    let d : Discrepancy := ⟨KIND_VANTAGE, previous ++ " -> " ++ input.providerId⟩
    let db ← noteDiscrepancy input crawlId now db d
    pure (db, ⟨0, [d]⟩)
  | none =>
    if observedIds.isEmpty && !live.isEmpty && !input.options.confirmEmpty then do
      let d := emptySweep live
      let db ← noteDiscrepancy input crawlId now db d
      pure (db, ⟨0, [d]⟩)
    else do
      let s ← live.foldlM (deriveOne input crawlId headMeta observedIds exemptIds now)
        ⟨db, 0, 0, 0, 0⟩
      let db ← (noted s).foldlM (noteDiscrepancy input crawlId now) s.db
      pure (db, ⟨s.retracted, noted s⟩)

/-! ### The resume point -/

/-- Where `--resume` picks up. A cursor is dropped when the derivation or the resource definition
has moved since the crawl that wrote it. -/
def resumePoint (db : Db) (input : SweepInput) : Option String :=
  match db.resumableCrawl input.adapterId input.resourceId with
  | none => none
  | some crawl =>
    if crawl.localIdDerivation ≠ input.helloDerivation then none
    else if crawl.fingerprint ≠ some input.fingerprint then none
    else crawl.nextPage

end Sumer.Store
