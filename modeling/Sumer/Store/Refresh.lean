import Sumer.Store.Retraction

set_option relaxedAutoImplicit false
set_option autoImplicit false

/-!
# Refreshing an adapter

`refresh_adapter` (`core/store/src/refresh.rs`): what one connection to an adapter contributes to
the store. It lists the resources, reads their status and balances, and sweeps them one after the
other in the order of the listing. The statements before the sweeps commit one by one, so that a
refresh that stops keeps what it had written. Balance lines are not modelled; only whether their
transaction failed is.

## Main definitions

* `Sumer.Store.Session`: what an adapter answers over one connection.
* `Sumer.Store.refreshAdapter`: a refresh of one adapter.
* `Sumer.Store.SweptFrom`: sweeps of one adapter, each on the tables the one before it left.

## Main results

* `Sumer.Store.refreshAdapter_swept`: a refresh is writes outside sweeps and then such sweeps.
* `Sumer.Store.refreshAdapter_reachable`: what a refresh leaves is reachable.
-/

namespace Sumer.Store

open Sumer.Wire Sumer.Host

/-- What an adapter answers over one connection, and what happens around each of the sweeps. -/
structure Session where
  helloAdapterId : String
  helloDerivation : String
  listed : Except HostError (List ResourceDescriptor)
  statuses : Except HostError (List ResourceStatus)
  /-- A reply comes with the error, if any, of the transaction that stores its lines. -/
  balances : Except HostError (Option StoreError)
  script : ℕ → Script

/-- What a refresh knows when it starts to sweep. -/
structure Prepared where
  listed : List ResourceDescriptor
  statuses : List ResourceStatus
  connectionViolation : Option String
  errors : List String

/-- One sweep of a refresh, with the tables it found. -/
structure Swept where
  before : Db
  input : SweepInput
  out : SweepRun

/-- How a refresh of an adapter ended. -/
inductive RefreshEnded where
  | done (errors : List String)
  | failed (error : StoreError)
  | killed

/-- A refresh that has ended: the tables it left and the sweeps it ran. -/
structure RefreshRun where
  db : Db
  sweeps : List Swept
  ended : RefreshEnded

/-- The debug text of an id that has nothing to escape. -/
def debugId (id : String) : String := "\"" ++ id ++ "\""

/-- The error of a connection that announces another adapter than the one it was opened for. -/
def helloMismatch (announced opened : String) : StoreError :=
  .host ("hello announced adapter_id " ++ debugId announced ++ " on the connection opened for " ++
    debugId opened)

/-- Whether some resource needs a credential renewed. -/
def needsReauth (statuses : List ResourceStatus) : Bool :=
  statuses.any fun s =>
    match s.outcome with
    | .reauthRequired | .scaRequired | .revoked => true
    | _ => false

/-- `status.read`'s `history_start` for one resource, if it reported one. -/
def historyStart (statuses : List ResourceStatus) (resourceId : String) : Option Rfc3339 :=
  (statuses.find? (·.resourceId == resourceId)).bind ResourceStatus.historyStart

/-- Writes down the resources of a listing, up to the first one that fails. -/
def upsertResources (adapterId : String) : Db → List ResourceDescriptor → Db × Option StoreError
  | db, [] => (db, none)
  | db, descriptor :: rest =>
    match db.upsertResource adapterId descriptor.resourceId descriptor.kind descriptor.label with
    | .error e => (db, some e)
    | .ok db => upsertResources adapterId db rest

/-- What a refresh does before its sweeps. -/
def prepareRefresh (db : Db) (adapterId : String) (session : Session) :
    Db × Except StoreError Prepared :=
  match db.openBalanceRead adapterId with
  | .error e => (db, .error e)
  | .ok (db, _) =>
    if session.helloAdapterId ≠ adapterId then
      (db, .error (helloMismatch session.helloAdapterId adapterId))
    else
      match session.listed with
      | .error e => (db, .error (.host ("resources.list failed: " ++ e.display)))
      | .ok listed =>
        match upsertResources adapterId db listed with
        | (db, some e) => (db, .error e)
        | (db, none) =>
          match session.statuses with
          | .error e => (db, .error (.host ("status.read failed: " ++ e.display)))
          | .ok statuses =>
            let db := db.setNeedsReauth adapterId (needsReauth statuses)
            match session.balances with
            | .ok (some e) => (db, .error e)
            | .ok none => (db, .ok ⟨listed, statuses, none, []⟩)
            | .error e =>
              (db, .ok ⟨listed, statuses,
                if brokeTheContract e then
                  some ("balances.read broke the wire contract: " ++ e.display)
                else none,
                ["balances.read failed: " ++ e.display]⟩)

/-- What is fixed about the sweep of one listed resource. -/
def sweepInput (c : Crates) (adapterId : String) (options : SweepOptions) (session : Session)
    (statuses : List ResourceStatus) (descriptor : ResourceDescriptor)
    (connectionViolation : Option String) : SweepInput where
  adapterId := adapterId
  resourceId := descriptor.resourceId
  helloDerivation := session.helloDerivation
  fingerprint := resourceFingerprint c descriptor
  providerId := descriptor.providerId
  historyStart := historyStart statuses descriptor.resourceId
  connectionViolation := connectionViolation
  options := options

/-- Sweeps one resource after the other. A violation that one sweep reports taints those after it;
an error ends the refresh. -/
def sweepEach (c : Crates) (inputOf : ResourceDescriptor → Option String → SweepInput)
    (errors : List String) :
    Db → Option String → List (ResourceDescriptor × Script) → RefreshRun
  | db, _, [] => ⟨db, [], .done errors⟩
  | db, violation, (descriptor, script) :: rest =>
    let input := inputOf descriptor violation
    let out := sweepResource c db input script
    match out.ended with
    | .failed e => ⟨out.db, [⟨db, input, out⟩], .failed e⟩
    | .killed => ⟨out.db, [⟨db, input, out⟩], .killed⟩
    | .reported report =>
      let later := sweepEach c inputOf errors out.db (violation.or report.contractViolation) rest
      { later with sweeps := ⟨db, input, out⟩ :: later.sweeps }

/-- Everything one connected adapter contributes to a refresh. -/
def refreshAdapter (c : Crates) (db : Db) (adapterId : String) (options : SweepOptions)
    (session : Session) : RefreshRun :=
  match prepareRefresh db adapterId session with
  | (db, .error e) => ⟨db, [], .failed e⟩
  | (db, .ok p) =>
    sweepEach c (sweepInput c adapterId options session p.statuses) p.errors db
      p.connectionViolation (p.listed.zipIdx.map fun d => (d.1, session.script d.2))

/-! ### A refresh is a sequence of steps -/

/-- Sweeps of one adapter, the first on the tables `db`, each on those the one before it left, the
last of which are `db'`. -/
inductive SweptFrom (c : Crates) (adapterId : String) : Db → List Swept → Db → Prop
  | nil (db : Db) : SweptFrom c adapterId db [] db
  | cons {db db' : Db} {input : SweepInput} {script : Script} {rest : List Swept}
      (hadapter : input.adapterId = adapterId)
      (hrest : SweptFrom c adapterId (sweepResource c db input script).db rest db') :
      SweptFrom c adapterId db (⟨db, input, sweepResource c db input script⟩ :: rest) db'

section Refresh

variable {c : Crates} {db db' : Db} {a : String}

/-- Writing resources down is writing outside sweeps. -/
lemma upsertResources_writes (db : Db) (listed : List ResourceDescriptor) :
    ∃ ws : List MetaWrite, (upsertResources a db listed).1 = ws.foldl MetaWrite.apply db := by
  induction listed generalizing db with
  | nil => exact ⟨[], rfl⟩
  | cons descriptor rest ih =>
    rw [upsertResources]
    cases hup : db.upsertResource a descriptor.resourceId descriptor.kind descriptor.label with
    | error e => exact ⟨[], rfl⟩
    | ok db₁ =>
      have hwrite : (MetaWrite.upsertResource a descriptor.resourceId descriptor.kind
          descriptor.label).apply db = db₁ := by
        simp [MetaWrite.apply, hup]
      obtain ⟨ws, hws⟩ := ih db₁
      refine ⟨.upsertResource a descriptor.resourceId descriptor.kind descriptor.label :: ws, ?_⟩
      rw [List.foldl_cons, hwrite]
      exact hws

/-- What a refresh does before its sweeps is writing outside sweeps.

**Proof sketch.** Opening the read is such a write, and so is the upsert of each resource that was
listed, in order. The refresh may stop after the first of them, at the greeting or at the listing,
and then the rest is not written. -/
lemma prepareRefresh_writes (db : Db) (session : Session) :
    ∃ ws : List MetaWrite, (prepareRefresh db a session).1 = ws.foldl MetaWrite.apply db := by
  unfold prepareRefresh
  cases hopen : db.openBalanceRead a with
  | error e => exact ⟨[], rfl⟩
  | ok opened =>
    have hread : (MetaWrite.openBalanceRead a).apply db = opened.1 := by
      simp [MetaWrite.apply, hopen]
    by_cases hhello : session.helloAdapterId ≠ a
    · exact ⟨[.openBalanceRead a], by simp [hhello, hread]⟩
    simp only [hhello, if_false]
    cases session.listed with
    | error e => exact ⟨[.openBalanceRead a], by simp [hread]⟩
    | ok listed =>
      obtain ⟨ws, hws⟩ := upsertResources_writes (a := a) opened.1 listed
      have hstop : (upsertResources a opened.1 listed).1 =
          (MetaWrite.openBalanceRead a :: ws).foldl MetaWrite.apply db := by
        rw [List.foldl_cons, hread, hws]
      dsimp only
      split
      · rename_i db₁ e hup
        exact ⟨_, by rw [← hstop, hup]⟩
      · rename_i db₁ hup
        have hlisted : db₁ = (MetaWrite.openBalanceRead a :: ws).foldl MetaWrite.apply db := by
          rw [← hstop, hup]
        cases session.statuses with
        | error e => exact ⟨_, hlisted⟩
        | ok statuses =>
          have hreauth : db₁.setNeedsReauth a (needsReauth statuses) =
              (MetaWrite.openBalanceRead a :: ws ++
                [MetaWrite.setNeedsReauth a (needsReauth statuses)]).foldl MetaWrite.apply db := by
            rw [List.foldl_append, ← hlisted]
            rfl
          dsimp only
          split <;> exact ⟨_, hreauth⟩

/-- Writes outside sweeps leave crawls, observations and retractions. -/
lemma writes_eq (ws : List MetaWrite) (db : Db) :
    (ws.foldl MetaWrite.apply db).crawls = db.crawls ∧
      (ws.foldl MetaWrite.apply db).observations = db.observations ∧
      (ws.foldl MetaWrite.apply db).retractions = db.retractions := by
  induction ws generalizing db with
  | nil => exact ⟨rfl, rfl, rfl⟩
  | cons w ws ih =>
    obtain ⟨hcrawls, hobs, hret⟩ := w.apply_eq db
    obtain ⟨hcrawls', hobs', hret'⟩ := ih (w.apply db)
    exact ⟨hcrawls'.trans hcrawls, hobs'.trans hobs, hret'.trans hret⟩

/-- The sweeps of a refresh follow one another. -/
lemma sweepEach_swept (inputOf : ResourceDescriptor → Option String → SweepInput)
    (hinput : ∀ descriptor violation, (inputOf descriptor violation).adapterId = a)
    (errors : List String) (db : Db) (violation : Option String)
    (listed : List (ResourceDescriptor × Script)) :
    SweptFrom c a db (sweepEach c inputOf errors db violation listed).sweeps
      (sweepEach c inputOf errors db violation listed).db := by
  induction listed generalizing db violation with
  | nil => exact .nil db
  | cons d rest ih =>
    obtain ⟨descriptor, script⟩ := d
    rw [sweepEach]
    dsimp only
    split
    · exact .cons (hinput _ _) (.nil _)
    · exact .cons (hinput _ _) (.nil _)
    · exact .cons (hinput _ _) (ih _ _)

/-- **A refresh is writes outside sweeps and then sweeps**, each on the tables the one before it
left. -/
lemma refreshAdapter_swept (c : Crates) (db : Db) (a : String) (options : SweepOptions)
    (session : Session) :
    ∃ ws : List MetaWrite, SweptFrom c a (ws.foldl MetaWrite.apply db)
      (refreshAdapter c db a options session).sweeps
      (refreshAdapter c db a options session).db := by
  obtain ⟨ws, hws⟩ := prepareRefresh_writes (a := a) db session
  refine ⟨ws, hws ▸ ?_⟩
  unfold refreshAdapter
  split
  · rename_i db₁ e hprepare
    rw [hprepare]
    exact .nil _
  · rename_i db₁ p hprepare
    rw [hprepare]
    exact sweepEach_swept (sweepInput c a options session p.statuses) (fun _ _ => rfl) _ _ _ _

/-- Sweeps that follow one another are steps of a run. -/
lemma SweptFrom.actions {sweeps : List Swept} (h : SweptFrom c a db sweeps db') :
    ∃ later : List Action, later.foldl (Action.apply c) db = db' := by
  induction h with
  | nil => exact ⟨[], rfl⟩
  | @cons db db' input script rest _ _ ih =>
    obtain ⟨later, hlater⟩ := ih
    exact ⟨.sweep input script :: later, hlater⟩

/-- Sweeps that follow one another keep the tables' invariant. -/
lemma SweptFrom.consistent {sweeps : List Swept} (h : SweptFrom c a db sweeps db')
    (hdb : db.Consistent) : db'.Consistent := by
  induction h with
  | nil => exact hdb
  | cons _ _ ih => exact ih (consistent_sweepWithin _ c hdb _ _)

/-- **What a refresh leaves is reachable**, if what it found was. -/
theorem refreshAdapter_reachable (c : Crates) (actions : List Action) (a : String)
    (options : SweepOptions) (session : Session) :
    ∃ later,
      (refreshAdapter c (run c actions) a options session).db = run c (actions ++ later) := by
  obtain ⟨ws, hswept⟩ := refreshAdapter_swept c (run c actions) a options session
  obtain ⟨later, hlater⟩ := hswept.actions
  refine ⟨ws.map .write ++ later, ?_⟩
  rw [run_append, List.foldl_append, List.foldl_map]
  exact hlater.symm

end Refresh

end Sumer.Store
