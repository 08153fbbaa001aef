import Sumer.Store.Runs
import Sumer.Store.Sample

set_option relaxedAutoImplicit false
set_option autoImplicit false

/-!
# A listing beside a refresh

`live_records` (`core/store/src/sweep.rs`) as `history` calls it while a refresh is running: one
`SELECT` of the adapter's observations and then one of its retraction high-water marks, each of
the last committed state, with no transaction around the two (`core/store/src/store.rs`: the
database is in WAL mode, so that the refresh does not block them).

## Main definitions

* `Sumer.Store.commits`: the states that a sequence of steps commits, one after the other.
* `Sumer.Store.ListingStep`: the steps of a listing and of the commits beside it.

## Main results

* `Sumer.Store.retractions_grow`: what is committed later has all retractions of before.
* `Sumer.Store.mem_liveSet_later`: the live set of some rows under later marks.
* `Sumer.Store.listing_interleaved`: what a listing returns, in every interleaving.
-/

namespace Sumer.Store

open Sumer.Wire Sumer.Host

/-! ### The states a step commits -/

/-- The tables that a turn of the page loop leaves. -/
def tablesAfter : Sweeping ⊕ SweepRun → Db
  | .inl s => s.db
  | .inr r => r.db

/-- The states that a turn of the page loop commits. A page that reaches the limit commits before
the statement that closes its crawl does. -/
def turnCommits (c : Crates) (k : OpenCrawl) (s : Sweeping) (e : Event) : List Db :=
  [tablesAfter (turn c { k with limitFault := true } s e), tablesAfter (turn c k s e)]

/-- The states that the page loop commits. -/
def loopCommits (c : Crates) (k : OpenCrawl) : Sweeping → List Event → List Db
  | _, [] => []
  | s, e :: events =>
    turnCommits c k s e ++
      match turn c k s e with
      | .inl s' => loopCommits c k s' events
      | .inr _ => []

/-- The states that a sweep commits, from the one its open crawl is in. -/
def sweepCommits (c : Crates) (db : Db) (input : SweepInput) (script : Script) : List Db :=
  match openSweep (some MAX_PAGES) c db input script with
  | .error _ => []
  | .ok (k, s) => s.db :: loopCommits c k s script.events

/-- The states that a step commits. -/
def Action.commits (c : Crates) (db : Db) : Action → List Db
  | .write w => [w.apply db]
  | .sweep input script => sweepCommits c db input script

/-- The states that some steps commit, one after the other. -/
def commits (c : Crates) : Db → List Action → List Db
  | _, [] => []
  | db, a :: actions => a.commits c db ++ commits c (a.apply c db) actions

section Commits

variable {c : Crates} {db db₁ : Db} {input : SweepInput} {script : Script} {k : OpenCrawl}
  {s : Sweeping}

/-- The last state the page loop commits is the one the sweep leaves. -/
lemma getLastD_loopCommits (s : Sweeping) (events : List Event) :
    (loopCommits c k s events).getLastD s.db = (loop (turn c k) (cutOff k) s events).db := by
  induction events generalizing s with
  | nil => rfl
  | cons e events ih =>
    simp only [loopCommits, loop, turnCommits]
    cases hturn : turn c k s e with
    | inl s' =>
      simp only [tablesAfter, List.cons_append, List.nil_append, List.getLastD_cons]
      exact ih s'
    | inr r => rfl

/-- The last state a step commits is the one it leaves. -/
lemma Action.getLastD_commits (a : Action) : (a.commits c db).getLastD db = a.apply c db := by
  cases a with
  | write w => rfl
  | sweep input script =>
    simp only [Action.commits, sweepCommits, Action.apply, sweepResource, sweepWithin]
    cases openSweep (some MAX_PAGES) c db input script with
    | error e => rfl
    | ok opened =>
      simp only [List.getLastD_cons]
      exact getLastD_loopCommits opened.2 script.events

/-- **The last state some steps commit is the one they leave.** -/
lemma getLastD_commits (db : Db) (actions : List Action) :
    (commits c db actions).getLastD db = actions.foldl (Action.apply c) db := by
  induction actions generalizing db with
  | nil => rfl
  | cons a actions ih =>
    rw [commits, List.foldl_cons, ← ih, ← a.getLastD_commits]
    simp [List.getLastD_eq_getLast?, List.getLast?_append]

end Commits

/-! ### Retractions are never taken back -/

/-- A later state has all retractions of an earlier one. -/
def Db.ExtendedBy (db later : Db) : Prop := db.retractions <+: later.retractions

/-- A store that extends one that extends a third extends the third. -/
instance : Trans Db.ExtendedBy Db.ExtendedBy Db.ExtendedBy := ⟨List.IsPrefix.trans⟩

section ExtendedBy

variable {c : Crates} {db db₁ : Db} {input : SweepInput} {script : Script} {k : OpenCrawl}
  {s : Sweeping} {events : List Event}

/-- The retractions after a page that is not the last are those after its observations, whether or
not its crawl is then closed at the page limit. -/
lemma retractions_middlePage (read : HistoryRead) (kept : List Observation)
    (next : Option PageRequest) (fault : Bool) :
    (tablesAfter (middlePage c k s read kept next fault)).retractions =
      match ingestInto c k s kept with
      | .error _ => s.db.retractions
      | .ok ingested => if fault then s.db.retractions else ingested.db.retractions := by
  unfold middlePage
  cases ingestInto c k s kept with
  | error e => rfl
  | ok ingested =>
    cases fault with
    | true => rfl
    | false =>
      dsimp only [finishEarly]
      rw [if_neg Bool.false_ne_true, if_neg Bool.false_ne_true]
      split_ifs <;> rfl

/-- The retractions after a last page are those of its transaction, unless the transaction failed or
was not committed. -/
lemma retractions_finalPage (read : HistoryRead) (kept : List Observation) (fault : Bool) :
    (finalPage c k s read kept fault).db.retractions =
      match finalTransaction c k s kept with
      | .error _ => s.db.retractions
      | .ok (db, _, _) => if fault then s.db.retractions else db.retractions := by
  unfold finalPage
  cases finalTransaction c k s kept with
  | error e => rfl
  | ok done => cases fault <;> rfl

/-- Whether the statement that closes a crawl at the page limit fails makes no difference to the
retractions.

**Proof sketch.** The fault is about the close of a crawl that is over its limit, which touches no
retraction; everything else in the turn is the same. -/
lemma retractions_turn_limitFault (c : Crates) (k : OpenCrawl) (s : Sweeping) (e : Event) :
    (tablesAfter (turn c { k with limitFault := true } s e)).retractions =
      (tablesAfter (turn c k s e)).retractions := by
  cases e with
  | violation kind => rfl
  | reply answer fault =>
    cases answer with
    | error e => cases fault <;> rfl
    | ok read =>
      simp only [turn, sweepPage]
      cases read.statuses.find? (·.resourceId == k.input.resourceId) with
      | none => cases fault <;> rfl
      | some status =>
        dsimp only
        cases status.page.bind PageReply.next with
        | none =>
          simp only [tablesAfter, retractions_finalPage]
          rfl
        | some next =>
          simp only [retractions_middlePage]
          rfl

/-- A turn of the page loop takes no retraction back.

**Proof sketch.** A turn that goes on commits a page and no retraction. One that ends the sweep
leaves one of the ends, which adds retractions to those there were, or none. -/
lemma At.extendedBy_turn (h : At c script k db₁ events s) (e : Event) :
    s.db.ExtendedBy (tablesAfter (turn c k s e)) := by
  have hbefore : s.db.retractions = db₁.retractions := by rw [h.db, retractions_afterPages]
  have hstep := turn_at h e
  rw [Db.ExtendedBy, hbefore]
  cases hturn : turn c k s e with
  | inl s' =>
    rw [hturn] at hstep
    show db₁.retractions <+: s'.db.retractions
    rw [hstep.db, retractions_afterPages]
  | inr r =>
    rw [hturn] at hstep
    have hends {events' : List Event} (hends : Ends c script k db₁ events' r) :
        db₁.retractions <+: r.db.retractions := by
      rcases hends.retractions with ⟨-, hsame⟩ | ⟨-, -, hmore⟩
      · rw [hsame]
      · rw [hmore]
        exact List.prefix_append _ _
    exact hstep.elim hends hends

/-- **The page loop takes no retraction back.**

**Proof sketch.** Induction on the events to come. A turn commits at most its page and, in place of
the next one, the close of a sweep that is over its limit; neither takes a retraction back, and the
loop goes on from there. -/
lemma At.isChain_loopCommits (h : At c script k db₁ events s) (later : List Event) :
    (s.db :: loopCommits c k s later).IsChain Db.ExtendedBy := by
  induction later generalizing s events with
  | nil => exact List.isChain_singleton _
  | cons e later ih =>
    have hturn := h.extendedBy_turn e
    have hlimit := retractions_turn_limitFault c k s e
    have hfirst : s.db.ExtendedBy (tablesAfter (turn c { k with limitFault := true } s e)) := by
      rw [Db.ExtendedBy, hlimit]
      exact hturn
    have hsecond : (tablesAfter (turn c { k with limitFault := true } s e)).ExtendedBy
        (tablesAfter (turn c k s e)) := by
      rw [Db.ExtendedBy, hlimit]
    have hrest : (tablesAfter (turn c k s e) :: match turn c k s e with
        | .inl s' => loopCommits c k s' later
        | .inr _ => []).IsChain Db.ExtendedBy := by
      have hstep := turn_at h e
      cases hcase : turn c k s e with
      | inl s' =>
        rw [hcase] at hstep
        exact ih hstep
      | inr r => exact List.isChain_singleton _
    exact (hrest.cons_cons hsecond).cons_cons hfirst

/-- No state that an action commits takes back a retraction of the one before it. -/
lemma Action.isChain_commits (c : Crates) (hdb : db.Consistent) (a : Action) :
    (db :: a.commits c db).IsChain Db.ExtendedBy := by
  cases a with
  | write w =>
    refine (List.isChain_singleton _).cons_cons ?_
    rw [Db.ExtendedBy, (w.apply_eq db).2.2]
  | sweep input script =>
    simp only [Action.commits, sweepCommits]
    cases hopen : openSweep (some MAX_PAGES) c db input script with
    | error e => exact List.isChain_singleton _
    | ok opened =>
      obtain ⟨k, s⟩ := opened
      obtain ⟨hopened, hat⟩ := openSweep_at hdb hopen
      refine (hat.isChain_loopCommits script.events).cons_cons ?_
      rw [Db.ExtendedBy, hopened.retractions]

/-- **What is committed later has all retractions of before.** -/
lemma retractions_grow (c : Crates) (actions later : List Action) :
    (run c actions :: commits c (run c actions) later).IsChain Db.ExtendedBy := by
  induction later generalizing actions with
  | nil => exact List.isChain_singleton _
  | cons a later ih =>
    have hrest := ih (actions ++ [a])
    rw [run_concat] at hrest
    have hfirst := a.isChain_commits c (consistent_run c actions)
    have hlast : (run c actions :: a.commits c (run c actions)).getLast? =
        some (a.apply c (run c actions)) := by
      rw [List.getLast?_cons, ← List.getLastD_eq_getLast?, a.getLastD_commits]
    refine hfirst.append hrest.tail fun d hd d' hd' => ?_
    obtain rfl : a.apply c (run c actions) = d := by simpa [hlast] using hd
    exact hrest.rel_head? hd'

end ExtendedBy

/-! ### Rows under later marks -/

section Later

variable {a r : String} {fold : Fold} {first second : Db}

/-- **The live set of some rows under the marks of a later state**: what is live under the earlier
ones, less what has been retracted since. -/
lemma mem_liveSet_later (h : first.ExtendedBy second) {x : String × ℕ × Observation} :
    x ∈ liveSet fold (second.retractionHighWater a) a r ↔
      x ∈ liveSet fold (first.retractionHighWater a) a r ∧
        ∀ ρ ∈ second.retractions, ρ.adapterId = a → ρ.localId = x.1 → ρ.revision < x.2.1 := by
  have hburied (l : String) (n : ℕ) : isBuried (second.retractionHighWater a) l n = false ↔
      isBuried (first.retractionHighWater a) l n = false ∧
        ∀ ρ ∈ second.retractions, ρ.adapterId = a → ρ.localId = l → ρ.revision < n := by
    simp only [← Bool.not_eq_true, Db.isBuried_iff]
    push Not
    exact ⟨fun hlater => ⟨fun ρ hρ => hlater ρ (h.subset hρ), hlater⟩, And.right⟩
  obtain ⟨l, n, o⟩ := x
  simp only [liveSet, List.mem_insertionSort, List.mem_filterMap, Option.bind_eq_some_iff,
    Option.ite_none_left_eq_some, Option.some.injEq, Prod.mk.injEq, Bool.not_eq_true, hburied]
  constructor
  · rintro ⟨p, hp, rev, hrev, ⟨hfirst, hsecond⟩, rfl, rfl, rfl⟩
    exact ⟨⟨p, hp, rev, hrev, hfirst, rfl, rfl, rfl⟩, hsecond⟩
  · rintro ⟨⟨p, hp, rev, hrev, hfirst, rfl, rfl, rfl⟩, hsecond⟩
    exact ⟨p, hp, rev, hrev, ⟨hfirst, hsecond⟩, rfl, rfl, rfl⟩

end Later

/-! ### A listing -/

/-- Where a listing is in its code. -/
inductive ListingPc where
  | start
  | folded (fold : Fold)
  | listed (live : List (String × ℕ × Observation))

/-- A listing and the commits beside it: the last committed state, and those still to come. -/
structure Listing where
  db : Db
  pending : List Db
  pc : ListingPc

/-- One step: a commit, or one of the two statements of a listing, with what follows it. -/
inductive ListingStep (a r : String) : Listing → Listing → Prop
  | commit (db next : Db) (pending : List Db) (pc : ListingPc) :
      ListingStep a r ⟨db, next :: pending, pc⟩ ⟨next, pending, pc⟩
  | observations (db : Db) (pending : List Db) :
      ListingStep a r ⟨db, pending, .start⟩ ⟨db, pending, .folded (loadFold db a)⟩
  | marks (db : Db) (pending : List Db) (fold : Fold) :
      ListingStep a r ⟨db, pending, .folded fold⟩
        ⟨db, pending, .listed (liveSet fold (db.retractionHighWater a) a r)⟩

/-- Any number of steps. -/
def ListingRuns (a r : String) : Listing → Listing → Prop := Relation.ReflTransGen (ListingStep a r)

/-- What a listing has read, of the states there have been so far. -/
def ListingPc.Reads (a r : String) (states : List Db) (n : ℕ) : ListingPc → Prop
  | .start => True
  | .folded fold => ∃ (i : ℕ) (first : Db), i ≤ n ∧ states[i]? = some first ∧
      fold = loadFold first a
  | .listed live => ∃ (i j : ℕ) (first second : Db), i ≤ j ∧ states[i]? = some first ∧
      states[j]? = some second ∧
        live = liveSet (loadFold first a) (second.retractionHighWater a) a r

section Listing

variable {a r : String} {db : Db} {pending : List Db} {s : Listing}

/-- **What a listing has read**: each of its two statements one of the states, the second none
that is earlier.

**Proof sketch.** Induction on the run. A commit moves the state along the list and leaves what was
read where it was; each of the two statements reads the state of the moment it runs, the second not
before the first. -/
lemma ListingRuns.reads (h : ListingRuns a r ⟨db, pending, .start⟩ s) :
    ∃ n, (db :: pending)[n]? = some s.db ∧ (db :: pending).drop (n + 1) = s.pending ∧
      s.pc.Reads a r (db :: pending) n := by
  induction h with
  | refl => exact ⟨0, rfl, rfl, trivial⟩
  | tail _ hstep ih =>
    obtain ⟨n, hdb, hpending, hreads⟩ := ih
    cases hstep with
    | commit now next later pc =>
      have hnext : (db :: pending)[n + 1]? = some next := by
        rw [← List.head?_drop, hpending]
        rfl
      have hlater : (db :: pending).drop (n + 1 + 1) = later := by
        rw [← List.drop_drop, hpending]
        rfl
      refine ⟨n + 1, hnext, hlater, ?_⟩
      cases pc with
      | start => trivial
      | folded fold =>
        obtain ⟨i, first, hi, hfirst, hfold⟩ := hreads
        exact ⟨i, first, by omega, hfirst, hfold⟩
      | listed live => exact hreads
    | observations now later => exact ⟨n, hdb, hpending, n, now, le_rfl, hdb, rfl⟩
    | marks now later fold =>
      obtain ⟨i, first, hi, hfirst, rfl⟩ := hreads
      exact ⟨n, hdb, hpending, i, n, first, now, hi, hfirst, hdb, rfl⟩

/-- A later state has all retractions of an earlier one. -/
lemma extendedBy_of_le {states : List Db} (h : states.IsChain Db.ExtendedBy) {i j : ℕ}
    {first second : Db} (hij : i ≤ j) (hfirst : states[i]? = some first)
    (hsecond : states[j]? = some second) : first.ExtendedBy second := by
  rcases hij.eq_or_lt with rfl | hlt
  · obtain rfl : first = second := Option.some.inj (hfirst.symm.trans hsecond)
    exact List.prefix_rfl
  · obtain ⟨hj, rfl⟩ := List.getElem?_eq_some_iff.mp hsecond
    obtain ⟨hi, rfl⟩ := List.getElem?_eq_some_iff.mp hfirst
    exact List.pairwise_iff_getElem.mp (List.isChain_iff_pairwise.mp h) i j hi hj hlt

end Listing

/-- **What a listing beside a refresh returns**, in every interleaving. Its two statements read two
committed states, the second not earlier than the first. It lists the live records of the first
state, less those that have been retracted by the second; so every record that is live in both
with the same revision is listed, and none that was not live in the first. If no retraction of the
adapter is committed between the two, or no observation of it, then it lists the live set of one
committed state. -/
theorem listing_interleaved (c : Crates) (actions refresh : List Action) (a r : String)
    {s : Listing} {live : List (String × ℕ × Observation)}
    (h : ListingRuns a r ⟨run c actions, commits c (run c actions) refresh, .start⟩ s)
    (hlive : s.pc = .listed live) :
    let states := run c actions :: commits c (run c actions) refresh
    ∃ (i j : ℕ) (first second : Db), i ≤ j ∧ states[i]? = some first ∧ states[j]? = some second ∧
      (∀ x, x ∈ live ↔ x ∈ liveRecords first a r ∧
        ∀ ρ ∈ second.retractions, ρ.adapterId = a → ρ.localId = x.1 → ρ.revision < x.2.1) ∧
      (∀ x ∈ liveRecords first a r, x ∈ liveRecords second a r → x ∈ live) ∧
      ((∀ ρ ∈ second.retractions, ρ.adapterId = a → ρ ∈ first.retractions) →
        ∀ x, x ∈ live ↔ x ∈ liveRecords first a r) ∧
      ((second.observationsForAdapter a).map StoredObservation.observation =
          (first.observationsForAdapter a).map StoredObservation.observation →
        ∀ x, x ∈ live ↔ x ∈ liveRecords second a r) := by
  intro states
  obtain ⟨n, -, -, hreads⟩ := h.reads
  rw [hlive] at hreads
  obtain ⟨i, j, first, second, hij, hfirst, hsecond, rfl⟩ := hreads
  have hlater := extendedBy_of_le (retractions_grow c actions refresh) hij hfirst hsecond
  have hmem (x : String × ℕ × Observation) := @mem_liveSet_later a r (loadFold first a) _ _ hlater x
  refine ⟨i, j, first, second, hij, hfirst, hsecond, hmem, fun x hx hx' => ?_, fun hsame x => ?_,
    fun hsame x => ?_⟩
  · exact (hmem x).mpr ⟨hx, (mem_liveSet_later List.prefix_rfl).mp hx' |>.2⟩
  · refine (hmem x).trans ⟨And.left, fun hx => ⟨hx, fun ρ hρ ha hl => ?_⟩⟩
    exact ((mem_liveSet_later List.prefix_rfl).mp hx).2 ρ (hsame ρ hρ ha) ha hl
  · rw [liveRecords, loadFold, loadFold, hsame]

/-- A refresh may commit all it has between the two statements of a listing. -/
lemma listing_overtaken (c : Crates) (actions refresh : List Action) (a r : String) :
    ListingRuns a r ⟨run c actions, commits c (run c actions) refresh, .start⟩
      ⟨run c (actions ++ refresh), [], .listed (liveSet (loadFold (run c actions) a)
        ((run c (actions ++ refresh)).retractionHighWater a) a r)⟩ := by
  have hcommits (db : Db) (pending : List Db) (fold : Fold) :
      ListingRuns a r ⟨db, pending, .folded fold⟩ ⟨pending.getLastD db, [], .folded fold⟩ := by
    induction pending generalizing db with
    | nil => exact .refl
    | cons next pending ih =>
      rw [List.getLastD_cons]
      exact .head (.commit db next pending _) (ih next)
  have hall := hcommits (run c actions) (commits c (run c actions) refresh)
    (loadFold (run c actions) a)
  rw [getLastD_commits, ← run_append] at hall
  exact (hall.tail (.marks _ _ _)).head (.observations _ _)

/-- An account with two payments. -/
def rentAndFood : List Action :=
  [.write (.upsertAdapter "bank" []),
    .sweep (Sample.sweep "checking" "d1") (Sample.script Sample.day₁
      [Sample.page "checking" none
        [Sample.record "checking" "x" "api" "rent" .active Sample.day₁,
          Sample.record "checking" "y" "api" "food" .active Sample.day₁]])]

/-- A refresh that no longer finds one of them, and finds another. -/
def foodAndTea : List Action :=
  [.sweep (Sample.sweep "checking" "d1") (Sample.script Sample.day₂
    [Sample.page "checking" none
      [Sample.record "checking" "y" "api" "food" .active Sample.day₂,
        Sample.record "checking" "z" "api" "tea" .active Sample.day₂]])]

/-- The local ids of some records. -/
def localIds (live : List (String × ℕ × Observation)) : List String := live.map Prod.fst

/-- Beside that refresh, a listing may show the payment that stays alone, which no committed state
does: the one that is gone is retracted, and the one that is new is not there yet.

**Proof sketch.** The listing reads the observations before the refresh commits and the marks after
it, and shows the payment that stays alone. Every committed state of the run shows the one that is
gone, or the one that is new as well, by evaluation. -/
theorem listing_torn :
    ¬ ∀ (c : Crates) (actions refresh : List Action) (a r : String) (s : Listing)
        (live : List (String × ℕ × Observation)),
      ListingRuns a r ⟨run c actions, commits c (run c actions) refresh, .start⟩ s →
        s.pc = .listed live →
          ∃ db ∈ Db.empty :: commits c Db.empty (actions ++ refresh),
            ∀ x, x ∈ live ↔ x ∈ liveRecords db a r := by
  intro h
  obtain ⟨db, hdb, hsame⟩ := h Sample.crates rentAndFood foodAndTea "bank" "checking" _ _
    (listing_overtaken Sample.crates rentAndFood foodAndTea "bank" "checking") rfl
  have hids (l : String) : l ∈ localIds (liveSet (loadFold (run Sample.crates rentAndFood) "bank")
      ((run Sample.crates (rentAndFood ++ foodAndTea)).retractionHighWater "bank") "bank"
        "checking") ↔ l ∈ localIds (liveRecords db "bank" "checking") := by
    simp only [localIds, List.mem_map, hsame]
  have hlisted : localIds (liveSet (loadFold (run Sample.crates rentAndFood) "bank")
      ((run Sample.crates (rentAndFood ++ foodAndTea)).retractionHighWater "bank") "bank"
        "checking") = ["y"] := by decide +kernel
  have hnever : ∀ db ∈ Db.empty :: commits Sample.crates Db.empty (rentAndFood ++ foodAndTea),
      "y" ∈ localIds (liveRecords db "bank" "checking") →
        "x" ∈ localIds (liveRecords db "bank" "checking") ∨
          "z" ∈ localIds (liveRecords db "bank" "checking") := by decide +kernel
  rw [hlisted] at hids
  rcases hnever db hdb ((hids "y").mp (by simp)) with hx | hz
  · exact absurd ((hids "x").mpr hx) (by simp)
  · exact absurd ((hids "z").mpr hz) (by simp)

/-- It shows what was live before that refresh and has not been retracted by it. -/
theorem listing_interleaved_torn :
    ∃ (i j : ℕ) (first second : Db), i ≤ j ∧
      (run Sample.crates rentAndFood ::
        commits Sample.crates (run Sample.crates rentAndFood) foodAndTea)[i]? = some first ∧
      (run Sample.crates rentAndFood ::
        commits Sample.crates (run Sample.crates rentAndFood) foodAndTea)[j]? = some second ∧
      ∀ x, x ∈ liveSet (loadFold (run Sample.crates rentAndFood) "bank")
          ((run Sample.crates (rentAndFood ++ foodAndTea)).retractionHighWater "bank") "bank"
            "checking" ↔ x ∈ liveRecords first "bank" "checking" ∧
        ∀ ρ ∈ second.retractions, ρ.adapterId = "bank" → ρ.localId = x.1 →
          ρ.revision < x.2.1 := by
  obtain ⟨i, j, first, second, hij, hfirst, hsecond, hmem, -⟩ :=
    listing_interleaved Sample.crates rentAndFood foodAndTea "bank" "checking"
      (listing_overtaken Sample.crates rentAndFood foodAndTea "bank" "checking") rfl
  exact ⟨i, j, first, second, hij, hfirst, hsecond, hmem⟩

end Sumer.Store
