import Sumer.Store.Heads
import Sumer.Store.Refresh
import Sumer.Store.Sample

set_option relaxedAutoImplicit false
set_option autoImplicit false

/-!
# Reported means live

What a refresh leaves of a record that it reported once, as active: the record is live under the
resource of the report, unless the head of its chain sorts after the report and says otherwise,
or a later sweep of the same resource misses it.

## Main definitions

* `Sumer.Store.GivesWay`: the head of a chain does not stand in the way of a report.
* `Sumer.Store.Swept.Excuses`: a complete sweep leaves a record alone that it did not see.

## Main results

* `Sumer.Store.sweep_chain`: what a sweep makes of one chain.
* `Sumer.Store.sweep_unobserved`: what a complete sweep makes of a record it did not see.
* `Sumer.Store.reported_means_live`: exactly when a record that was reported is live.
-/

namespace Sumer.Store

open Sumer.Wire Sumer.Host

/-- The head of a report's chain does not stand in its way: there is none, or it already says that
the record is active under the resource of the report, or it does not sort after the report. -/
def GivesWay (head : Option StoredObservation) (o : Observation) : Prop :=
  ∀ h, head = some h →
    (h.observation.state = .active ∧ h.observation.resourceId = o.resourceId) ∨ h.key ≤ orderKey o

/-- Why a complete sweep leaves a live record of its resource alone although it did not see it:
the vantage moved, the sweep was empty and unconfirmed, a degraded entry names the record, or
`history_start` puts it out of reach. -/
def Swept.Excuses (s : Swept) (l : String) : Prop :=
  s.before.vantageMoved s.input ≠ none ∨
    (allObserved s.input s.out.committed = [] ∧ s.input.options.confirmEmpty = false) ∨
    l ∈ allExempt s.input s.out.committed ∨
    ∃ head, s.before.headRow s.input.adapterId l = some head ∧
      inReach s.input.historyStart head.observation = false

/-! ### One sweep -/

section Sweep

variable {c : Crates} {db : Db} {input : SweepInput} {script : Script} {l : String}

/-- The high-water mark of a chain that no new retraction is about. -/
lemma Db.retractionHighWater_of_append {db' : Db} {new : List RetractionRow} {a : String}
    (h : db'.retractions = db.retractions ++ new) (hl : l ∉ new.map RetractionRow.localId) :
    db'.retractionHighWater a l = db.retractionHighWater a l := by
  have hnone : new.filter (fun ρ => ρ.adapterId == a && ρ.localId == l) = [] := by
    refine List.filter_eq_nil_iff.mpr fun ρ hρ => ?_
    have hmem := List.mem_map_of_mem (f := RetractionRow.localId) hρ
    simp only [Bool.and_eq_true, beq_iff_eq, not_and]
    rintro - rfl
    exact hl hmem
  rw [retractionHighWater, h, List.filter_append, hnone, List.append_nil, retractionHighWater]

/-- **What a sweep makes of a chain** that it does not retract: it observes the reports of the
record, one after the other. -/
lemma sweep_chain (pageLimit : Option ℕ) (hdb : db.Consistent) (input : SweepInput)
    (script : Script) {new : List RetractionRow}
    (hnew : (sweepWithin pageLimit c db input script).db.retractions = db.retractions ++ new) :
    ∃ crawlId, ∀ l, l ∉ new.map RetractionRow.localId → Db.SameChain input.adapterId l
      (db.observeAll c input crawlId
        (reportsOf l (allKept input (sweepWithin pageLimit c db input script).committed)))
      (sweepWithin pageLimit c db input script).db := by
  rcases sweep_outcome pageLimit c hdb input script with ⟨e, h⟩ | ⟨k, db₁, events, hopen, -, hends⟩
  · refine ⟨0, fun l _ => ?_⟩
    rw [h]
    exact Db.SameChain.refl db
  · obtain rfl : k.input = input := hopen.input_eq
    refine ⟨k.crawlId, fun l hl => ?_⟩
    have hopened := Db.SameChain.of_eq (a := k.input.adapterId) (l := l) hopen.observations
      hopen.retractions
    refine (hopened.observeAll _).trans ⟨?_, ?_⟩
    · rw [Db.chainRows_congr hends.observations, observedTables]
    · rw [Db.retractionHighWater_of_append hnew hl, Db.retractionHighWater_congr
        (Db.retractions_observeAll.trans hopen.retractions)]

/-- **What a sweep makes of the records it saw.** -/
lemma sweep_observed (pageLimit : Option ℕ) (hdb : db.Consistent) (input : SweepInput)
    (script : Script) :
    ∃ crawlId, ∀ l ∈ allObserved input (sweepWithin pageLimit c db input script).committed,
      Db.SameChain input.adapterId l
        (db.observeAll c input crawlId
          (reportsOf l (allKept input (sweepWithin pageLimit c db input script).committed)))
        (sweepWithin pageLimit c db input script).db := by
  obtain ⟨new, hnew, hids, -⟩ := sweep_retracted pageLimit c hdb input script
  obtain ⟨crawlId, hchain⟩ := sweep_chain pageLimit hdb input script hnew
  exact ⟨crawlId, fun l hl => hchain l fun hmem => ((hids l).mp hmem).2.2.2.2.1 hl⟩

/-- **What a complete sweep makes of a record it did not see**: its head stays, and it stays live
where it was, unless the sweep is of that very resource and nothing excuses the record.

**Proof sketch.** A record that no committed page names keeps its chain, so its head stays, and
before the retractions it is live exactly where it was. By `sweep_retracted` it is then retracted if
and only if it was live under the resource of the sweep and nothing excuses it. If it is retracted,
its head is the revision the retraction names, and it is live nowhere, while before it was live
under that resource only; if it is not, its whole chain is as before and so is its liveness. -/
lemma sweep_unobserved (hdb : db.Consistent)
    (hcomplete : (sweepResource c db input script).Complete)
    (hl : l ∉ allObserved input (sweepResource c db input script).committed) :
    (sweepResource c db input script).db.headRow input.adapterId l = db.headRow input.adapterId l ∧
      ∀ r, (sweepResource c db input script).db.Live input.adapterId r l ↔
        db.Live input.adapterId r l ∧
          (input.resourceId = r →
            (⟨db, input, sweepResource c db input script⟩ : Swept).Excuses l) := by
  obtain ⟨new, hnew, hids, -, hrevisions, hframe⟩ :=
    sweep_retracted (some MAX_PAGES) c hdb input script
  have hwithin : sweepWithin (some MAX_PAGES) c db input script = sweepResource c db input script :=
    rfl
  simp only [hwithin] at hnew hids hrevisions hframe
  generalize hout : sweepResource c db input script = out at *
  have hrows := hframe input.adapterId l (Or.inr hl)
  have hhead : out.db.headRow input.adapterId l = db.headRow input.adapterId l := by
    rw [Db.headRow, hrows, Db.headRow]
  have hsame : Db.SameChain input.adapterId l db (out.unretracted db) := ⟨hrows, rfl⟩
  have hbefore := hsame.live
  have hretired : l ∈ new.map RetractionRow.localId ↔ db.Live input.adapterId input.resourceId l ∧
      ¬ (⟨db, input, out⟩ : Swept).Excuses l := by
    rw [hids, hbefore]
    rw [hsame.headRow]
    simp only [Swept.Excuses, UnconfirmedEmpty, not_or, not_and, not_exists, Bool.not_eq_false,
      ne_eq, not_not]
    constructor
    · rintro ⟨-, hvantage, hempty, hlive, -, hnamed, hreach⟩
      refine ⟨hlive, hvantage, fun hnil => ?_, hnamed, fun head hh => ?_⟩
      · exact hempty hnil ⟨l, (hbefore _).mpr hlive⟩
      · exact hreach head hh
    · rintro ⟨hlive, hvantage, hempty, hnamed, hreach⟩
      refine ⟨hcomplete, hvantage, fun hnil _ => hempty hnil, hlive, hl, hnamed, fun head hh => ?_⟩
      exact hreach head hh
  refine ⟨hhead, fun r => ?_⟩
  by_cases hmem : l ∈ new.map RetractionRow.localId
  · obtain ⟨⟨head, hh, -, hresource, -⟩, hexcuses⟩ := hretired.mp hmem
    refine iff_of_false ?_ ?_
    · rintro ⟨-, -, -, -, hburied⟩
      obtain ⟨ρ, hρ, rfl⟩ := List.mem_map.mp hmem
      have hlt := Db.buried_eq_false_iff.mp hburied ρ (hnew ▸ List.mem_append_right _ hρ)
        (hrevisions ρ hρ).1 rfl
      exact absurd (hrevisions ρ hρ).2 hlt.ne
    · rintro ⟨⟨head', hh', -, hresource', -⟩, hr⟩
      obtain rfl := Option.some.inj (hh.symm.trans hh')
      exact hexcuses (hr (hresource.symm.trans hresource'))
  · have hsame : Db.SameChain input.adapterId l db out.db :=
      ⟨hrows, Db.retractionHighWater_of_append hnew hmem⟩
    rw [hsame.live r]
    refine ⟨fun hlive => ⟨hlive, ?_⟩, fun h => h.1⟩
    rintro rfl
    by_contra hexcuses
    exact hmem (hretired.mpr ⟨hlive, hexcuses⟩)

end Sweep

/-! ### The sweeps of a refresh -/

section Swept

variable {c : Crates} {db db' : Db} {a l : String} {sweeps : List Swept}

/-- The sweeps before one, that one, and the sweeps after it. -/
lemma SweptFrom.split {before after : List Swept} {s : Swept}
    (h : SweptFrom c a db (before ++ s :: after) db') :
    SweptFrom c a db before s.before ∧ s.input.adapterId = a ∧
      (∃ script, s.out = sweepResource c s.before s.input script) ∧
      SweptFrom c a s.out.db after db' := by
  induction before generalizing db with
  | nil =>
    cases h with
    | @cons _ _ input script rest hadapter hrest => exact ⟨.nil db, hadapter, ⟨script, rfl⟩, hrest⟩
  | cons t before ih =>
    cases h with
    | @cons _ _ input script rest hadapter hrest =>
      obtain ⟨hbefore, h⟩ := ih hrest
      exact ⟨.cons hadapter hbefore, h⟩

/-- **What complete sweeps make of a record none of them saw.** -/
lemma SweptFrom.unobserved (h : SweptFrom c a db sweeps db') (hdb : db.Consistent)
    (hcomplete : ∀ s ∈ sweeps, s.out.Complete)
    (hl : ∀ s ∈ sweeps, l ∉ allObserved s.input s.out.committed) :
    db'.headRow a l = db.headRow a l ∧
      ∀ r, db'.Live a r l ↔ db.Live a r l ∧ ∀ s ∈ sweeps, s.input.resourceId = r → s.Excuses l := by
  induction h with
  | nil => simp
  | @cons db db' input script rest hadapter _ ih =>
    subst hadapter
    obtain ⟨hhead, hlive⟩ := sweep_unobserved hdb (hcomplete _ List.mem_cons_self)
      (hl _ List.mem_cons_self)
    obtain ⟨hhead', hlive'⟩ := ih (consistent_sweepWithin _ c hdb _ _)
      (fun s hs => hcomplete s (List.mem_cons_of_mem _ hs))
      (fun s hs => hl s (List.mem_cons_of_mem _ hs))
    refine ⟨hhead'.trans hhead, fun r => ?_⟩
    rw [hlive', hlive, List.forall_mem_cons, and_assoc]

/-- Whether an active report makes its record live under its resource, by the head it finds.

**Proof sketch.** The chain is not buried after the report. Its head is the new row, or the old
head; a head that the report repeats says the same as the report. -/
lemma Db.live_observe_iff {input : SweepInput} (crawlId : ℕ) {o : Observation}
    (hdb : db.Consistent) (hactive : o.state = .active)
    (hfaithful : ∀ head, db.headRow input.adapterId o.localId = some head →
      contentHash c head.observation = contentHash c o →
        hashedFields head.observation = hashedFields o) :
    (db.observe c input crawlId o).Live input.adapterId o.resourceId o.localId ↔
      GivesWay (db.headRow input.adapterId o.localId) o := by
  have hburied : (db.observe c input crawlId o).buried input.adapterId o.localId = false :=
    hdb.buried_observe
  cases hhead : db.headRow input.adapterId o.localId with
  | none =>
    refine iff_of_true ⟨_, Db.headRow_observe_of_none hhead, hactive, rfl, hburied⟩ ?_
    intro h hh
    simp at hh
  | some head =>
    have hway : GivesWay (some head) o ↔ (head.observation.state = .active ∧
        head.observation.resourceId = o.resourceId) ∨ head.key ≤ orderKey o := by
      simp [GivesWay]
    rw [hway]
    by_cases hrep : db.repeats c input.adapterId o = true
    · obtain ⟨head', hhead', -, hhash⟩ := Db.exists_head_of_repeats hrep
      obtain rfl := Option.some.inj (hhead.symm.trans hhead')
      obtain ⟨hstate, hresource⟩ := of_hashedFields (hfaithful head hhead hhash)
      refine iff_of_true ?_ (Or.inl ⟨hstate.trans hactive, hresource⟩)
      exact ⟨_, Db.headRow_observe_of_repeats hhead hrep, hstate.trans hactive, hresource, hburied⟩
    · rw [Db.Live, Db.headRow_observe_of_appended hhead hrep, hburied]
      by_cases hkey : head.key ≤ orderKey o
      · simp [hkey, Db.newRow, hactive]
      · simp [hkey]

/-- **Reported means live.** In a refresh of a reachable database whose sweeps are all complete,
let an adapter report a record once, as active. After the refresh the record is live under the
resource of the report and under no other, exactly when the head of its chain before the refresh
gives way to the report and no later sweep of the same resource misses the record.

**Proof sketch.** The sweeps of the refresh are split at the one with the report. The writes of
`prepareRefresh` touch no observation, and the sweeps before the report do not see the record, so
the head that the report meets is the one before the refresh. In the sweep of the report, the chain
of the record is that after ingesting the one report of it, and it is live under the reported
resource exactly when the old head gives way (`Db.live_observe_iff`). By induction over the sweeps
after it (`unobserved`), it stays live exactly when each of them that is of its resource excuses it.
A record is live under one resource at most, since liveness is a property of its head. -/
theorem reported_means_live (c : Crates) (actions : List Action) (a : String)
    (options : SweepOptions) (session : Session) (before : List Swept) (s : Swept)
    (after : List Swept) (o : Observation)
    (hsweeps : (refreshAdapter c (run c actions) a options session).sweeps = before ++ s :: after)
    (hcomplete : ∀ t ∈ before ++ s :: after, t.out.Complete)
    (hreport : reportsOf o.localId (allKept s.input s.out.committed) = [o])
    (honly : ∀ t ∈ before ++ after, o.localId ∉ allObserved t.input t.out.committed)
    (hactive : o.state = .active)
    (hfaithful : ∀ head, (run c actions).headRow a o.localId = some head →
      contentHash c head.observation = contentHash c o →
        hashedFields head.observation = hashedFields o) :
    let out := refreshAdapter c (run c actions) a options session
    (out.db.Live a o.resourceId o.localId ∧
        ∀ r, r ≠ o.resourceId → ¬ out.db.Live a r o.localId) ↔
      GivesWay ((run c actions).headRow a o.localId) o ∧
        ∀ t ∈ after, t.input.resourceId = o.resourceId → t.Excuses o.localId := by
  intro out
  have hdb := consistent_run c actions
  obtain ⟨ws, hswept⟩ := refreshAdapter_swept c (run c actions) a options session
  obtain ⟨-, hobs, hret⟩ := writes_eq ws (run c actions)
  rw [hsweeps] at hswept
  obtain ⟨hbefore, rfl, ⟨script, hout⟩, hafter⟩ := hswept.split
  have hws : (ws.foldl MetaWrite.apply (run c actions)).Consistent :=
    hdb.congr hobs hret (by rw [(writes_eq ws (run c actions)).1])
  -- the head does not move before the report
  have hhead : s.before.headRow s.input.adapterId o.localId =
      (run c actions).headRow s.input.adapterId o.localId := by
    rw [(hbefore.unobserved hws (fun t ht => hcomplete t (by simp [ht]))
      fun t ht => honly t (by simp [ht])).1, Db.headRow_congr hobs]
  have hbeforeConsistent := hbefore.consistent hws
  -- the sweep with the report
  have hmem : o.localId ∈ allObserved s.input s.out.committed := by
    have ho : o ∈ reportsOf o.localId (allKept s.input s.out.committed) := by simp [hreport]
    exact List.mem_map_of_mem (List.mem_filter.mp ho).1
  have hmid : s.out.db.Live s.input.adapterId o.resourceId o.localId ↔
      GivesWay ((run c actions).headRow s.input.adapterId o.localId) o := by
    rw [hout] at hmem hreport ⊢
    obtain ⟨crawlId, hsame⟩ := sweep_observed (c := c) (some MAX_PAGES) hbeforeConsistent s.input
      script
    rw [← hhead, ← Db.live_observe_iff crawlId hbeforeConsistent hactive (hhead ▸ hfaithful)]
    have hlive := (hsame o.localId hmem).live o.resourceId
    rw [show (sweepWithin (some MAX_PAGES) c s.before s.input script) =
      sweepResource c s.before s.input script from rfl, hreport] at hlive
    exact hlive
  -- and those after it
  have hmidConsistent : s.out.db.Consistent :=
    hout ▸ consistent_sweepWithin _ c hbeforeConsistent _ _
  have hend := (hafter.unobserved hmidConsistent (fun t ht => hcomplete t (by simp [ht]))
    fun t ht => honly t (by simp [ht])).2 o.resourceId
  rw [hmid] at hend
  constructor
  · exact fun h => hend.mp h.1
  · intro h
    have hlive := hend.mpr h
    refine ⟨hlive, fun r hr hother => ?_⟩
    obtain ⟨head, hh, -, hresource, -⟩ := hlive
    obtain ⟨head', hh', -, hresource', -⟩ := hother
    obtain rfl := Option.some.inj (hh.symm.trans hh')
    exact hr (hresource'.symm.trans hresource)

end Swept

/-- A refresh of the bank's two resources, checking first: the pages of each. -/
def twoAccounts (now : Rfc3339) (checking savings : List Observation) : Session where
  helloAdapterId := "bank"
  helloDerivation := "d1"
  listed := .ok [⟨"checking", "bank.example", "account", "Checking", none⟩,
    ⟨"savings", "bank.example", "account", "Savings", none⟩]
  statuses := .ok []
  balances := .ok none
  script := fun n =>
    if n = 0 then Sample.script now [Sample.page "checking" none checking]
    else Sample.script now [Sample.page "savings" none savings]

/-- A payment reported under checking at a given time. -/
def paidFromChecking (now : Rfc3339) : List Action :=
  [.write (.upsertAdapter "bank" []),
    .sweep (Sample.sweep "checking" "d1") (Sample.script now
      [Sample.page "checking" none [Sample.record "checking" "x" "api" "rent" .active now]])]

/-- The refresh in which the payment has moved to savings. -/
def movesToSavings (before now : Rfc3339) : RefreshRun :=
  refreshAdapter Sample.crates (run Sample.crates (paidFromChecking before)) "bank" ⟨false, false⟩
    (twoAccounts now [] [Sample.record "savings" "x" "api" "rent" .active now])

/-- What the two sweeps of that refresh report of the payment. -/
def RefreshRun.reportsOfPayment (r : RefreshRun) :
    List (List ((String × ObservationState × String) × (String × String) × String)) :=
  r.sweeps.map fun s => (reportsOf "x" (allKept s.input s.out.committed)).map fun o =>
    ((o.localId, o.state, o.resourceId), ofLex (orderKey o), contentHash Sample.crates o)

/-- The two sweeps of such a refresh. -/
lemma RefreshRun.two_sweeps {r : RefreshRun} {key : String × String} {hash : String}
    (hreports : r.reportsOfPayment = [[], [(("x", .active, "savings"), key, hash)]]) :
    ∃ s₀ s₁ o, r.sweeps = [s₀] ++ s₁ :: [] ∧
      reportsOf o.localId (allKept s₁.input s₁.out.committed) = [o] ∧
      (∀ t ∈ [s₀] ++ [], o.localId ∉ allObserved t.input t.out.committed) ∧ o.localId = "x" ∧
      o.state = .active ∧ o.resourceId = "savings" ∧ orderKey o = toLex key ∧
      contentHash Sample.crates o = hash := by
  obtain ⟨s₀, rest, hsweeps, h₀, hrest⟩ := List.map_eq_cons_iff.mp hreports
  obtain ⟨s₁, rest', rfl, h₁, hrest'⟩ := List.map_eq_cons_iff.mp hrest
  obtain rfl := List.map_eq_nil_iff.mp hrest'
  obtain ⟨o, none', hkept, hfields, hnone⟩ := List.map_eq_cons_iff.mp h₁
  obtain rfl := List.map_eq_nil_iff.mp hnone
  simp only [Prod.mk.injEq] at hfields
  obtain ⟨⟨hl, hstate, hresource⟩, hkey, hhash⟩ := hfields
  refine ⟨s₀, s₁, o, hsweeps, hl.symm ▸ hkept, ?_, hl, hstate, hresource, hkey ▸ rfl, hhash⟩
  intro t ht
  obtain rfl : t = s₀ := by simpa using ht
  rw [hl]
  intro hmem
  obtain ⟨o', ho', heq⟩ := List.mem_map.mp hmem
  have hreport : o' ∈ reportsOf "x" (allKept t.input t.out.committed) :=
    List.mem_filter.mpr ⟨ho', by simp [heq]⟩
  simp [List.map_eq_nil_iff.mp h₀] at hreport

/-- A payment moves to savings on the next day.

**Proof sketch.** The two days are run, and their sweeps, reports and heads are evaluated by the
kernel. The head before the move is dated the day before and has other content, so it gives way; no
sweep comes after the one of savings, so there is nothing that could miss the record. The
equivalence then says that it is live under savings. -/
theorem reported_means_live_savings :
    (movesToSavings Sample.day₁ Sample.day₂).db.Live "bank" "savings" "x" := by
  have hreports : (movesToSavings Sample.day₁ Sample.day₂).reportsOfPayment =
      [[], [(("x", .active, "savings"), (Sample.day₂.text, "api"), contentHash Sample.crates
        (Sample.record "savings" "x" "api" "rent" .active Sample.day₂))]] := by decide +kernel
  have hcomplete : ∀ t ∈ (movesToSavings Sample.day₁ Sample.day₂).sweeps, t.out.Complete := by
    decide +kernel
  have hhead : ((run Sample.crates (paidFromChecking Sample.day₁)).headRow "bank" "x").map
      (fun h => (ofLex h.key, contentHash Sample.crates h.observation)) =
        some ((Sample.day₁.text, "api"), contentHash Sample.crates
          (Sample.record "checking" "x" "api" "rent" .active Sample.day₁)) := by decide +kernel
  have hchanged : contentHash Sample.crates
      (Sample.record "checking" "x" "api" "rent" .active Sample.day₁) ≠ contentHash Sample.crates
        (Sample.record "savings" "x" "api" "rent" .active Sample.day₂) := by decide +kernel
  have hlater : toLex (Sample.day₁.text, "api") ≤ toLex (Sample.day₂.text, "api") := by
    decide +kernel
  obtain ⟨s₀, s₁, o, hsweeps, hreport, honly, hl, hstate, hresource, hkey, hhash⟩ :=
    RefreshRun.two_sweeps hreports
  rw [hsweeps] at hcomplete
  unfold movesToSavings at *
  have hfields (head : StoredObservation)
      (h : (run Sample.crates (paidFromChecking Sample.day₁)).headRow "bank" o.localId =
        some head) : head.key ≤ orderKey o ∧
          contentHash Sample.crates head.observation ≠ contentHash Sample.crates o := by
    rw [hl] at h
    simp only [h, Option.map_some, Option.some.injEq, Prod.mk.injEq] at hhead
    have hfirst : head.key = toLex (Sample.day₁.text, "api") := congrArg toLex hhead.1
    rw [hkey, hhash, hhead.2, hfirst]
    exact ⟨hlater, hchanged⟩
  have hgives : GivesWay ((run Sample.crates (paidFromChecking Sample.day₁)).headRow "bank"
      o.localId) o := fun head h => Or.inr (hfields head h).1
  have hiff := reported_means_live Sample.crates (paidFromChecking Sample.day₁) "bank"
    ⟨false, false⟩ (twoAccounts Sample.day₂ []
      [Sample.record "savings" "x" "api" "rent" .active Sample.day₂]) [s₀] s₁ [] o hsweeps
    hcomplete hreport honly hstate fun head h heq => absurd heq (hfields head h).2
  have hlive := (hiff.mpr ⟨hgives, by simp⟩).1
  rw [hl, hresource] at hlive
  exact hlive

/-- A payment that moves to savings while the clock has stepped back a day is not live there.

**Proof sketch.** The refresh is run: its sweeps are complete, the payment is reported once, as
active, and it is not live under savings, since the clock has stepped back and the older head did
not give way. -/
theorem moved_after_stepped_clock :
    ¬ ∀ (c : Crates) (actions : List Action) (a : String) (options : SweepOptions)
        (session : Session) (before : List Swept) (s : Swept) (after : List Swept)
        (o : Observation),
      (refreshAdapter c (run c actions) a options session).sweeps = before ++ s :: after →
      (∀ t ∈ before ++ s :: after, t.out.Complete) →
      reportsOf o.localId (allKept s.input s.out.committed) = [o] →
      (∀ t ∈ before ++ after, o.localId ∉ allObserved t.input t.out.committed) →
      o.state = .active →
        (refreshAdapter c (run c actions) a options session).db.Live a o.resourceId o.localId ∧
          ∀ r, r ≠ o.resourceId →
            ¬ (refreshAdapter c (run c actions) a options session).db.Live a r o.localId := by
  intro h
  have hreports : (movesToSavings Sample.day₂ Sample.day₁).reportsOfPayment =
      [[], [(("x", .active, "savings"), (Sample.day₁.text, "api"), contentHash Sample.crates
        (Sample.record "savings" "x" "api" "rent" .active Sample.day₁))]] := by decide +kernel
  have hcomplete : ∀ t ∈ (movesToSavings Sample.day₂ Sample.day₁).sweeps, t.out.Complete := by
    decide +kernel
  have hnot : ¬ (movesToSavings Sample.day₂ Sample.day₁).db.Live "bank" "savings" "x" := by
    decide +kernel
  obtain ⟨s₀, s₁, o, hsweeps, hreport, honly, hl, hstate, hresource, -, -⟩ :=
    RefreshRun.two_sweeps hreports
  rw [hsweeps] at hcomplete
  unfold movesToSavings at *
  have hlive := (h Sample.crates (paidFromChecking Sample.day₂) "bank" ⟨false, false⟩
    (twoAccounts Sample.day₁ []
      [Sample.record "savings" "x" "api" "rent" .active Sample.day₁]) [s₀] s₁ [] o hsweeps
    hcomplete hreport honly hstate).1
  rw [hl, hresource] at hlive
  exact hnot hlive

end Sumer.Store
