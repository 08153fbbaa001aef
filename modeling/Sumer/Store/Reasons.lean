import Sumer.Store.Heads
import Sumer.Store.Retraction
import Sumer.Store.Sample

set_option relaxedAutoImplicit false
set_option autoImplicit false

/-!
# Retraction reasons

A retraction names a software change when the record was last reported under other software
rules. The rules are kept on the row of the chain's head, and a sweep that appends a row which
does not become the head leaves the head's rules as they were: the log of what was reported under
which rules and the tables then disagree.

## Main definitions

* `Sumer.Store.lastRules`: the rules a record was last stored or seen under, over a run.
* `Sumer.Store.keepsRules`: whether a sweep's reports of a record reach the row of its head.
* `Sumer.Store.everySweep`: whether every sweep of a run meets a condition.

## Main results

* `Sumer.Store.headRules_observeAll_iff`: exactly when they do.
* `Sumer.Store.headRules_run`: in a run where they always do, the tables are that log.
* `Sumer.Store.retraction_reason`: the reasons of such a run.
-/

namespace Sumer.Store

open Sumer.Wire Sumer.Host

/-- Whether the reports of a record leave their rules on the row of its head: there is no head yet,
or the head has the rules already, or some report sorts at or after it, or some report repeats its
content. A buried chain takes its first report for a new revision in any case. -/
def reachesHead (c : Crates) (rules : HeadMeta) (head : Option StoredObservation) (buried : Bool)
    (reports : List Observation) : Bool :=
  match head with
  | none => !reports.isEmpty
  | some h =>
    decide (h.rules = rules) || reports.any (fun o => decide (h.key ≤ orderKey o)) ||
      (if buried then reports.tail else reports).any fun o =>
        contentHash c o == contentHash c h.observation

section Rules

variable {c : Crates} {input : SweepInput} {crawlId : ℕ} {db : Db} {l : String}

/-- A head that has the rules keeps them. -/
lemma reachesHead_of_rules {h : StoredObservation} (hrules : h.rules = input.rules) (buried : Bool)
    (reports : List Observation) :
    reachesHead c input.rules (some h) buried reports = true := by
  simp [reachesHead, hrules]

/-- **Exactly when a sweep's reports of a record reach the row of its head.**

**Proof sketch.** Induction over the observations. A report that stamps or replaces the head puts
the rules there for good; one that sorts before it leaves a chain that no retraction buries. -/
lemma headRules_observeAll_iff (hdb : db.Consistent) {os : List Observation}
    (hos : ∀ o ∈ os, o.provenance.adapterId = input.adapterId) :
    (db.observeAll c input crawlId os).headRules input.adapterId l = some input.rules ↔
      reachesHead c input.rules (db.headRow input.adapterId l) (db.buried input.adapterId l)
        (reportsOf l os) = true := by
  induction os generalizing db with
  | nil =>
    cases hhead : db.headRow input.adapterId l with
    | none => simp [reachesHead, reportsOf, Db.headRules, hhead]
    | some h =>
      have hrules : db.headRules input.adapterId l = some input.rules ↔ h.rules = input.rules := by
        simp [Db.headRules, hhead, StoredObservation.rules]
      simp [reachesHead, reportsOf, hrules]
  | cons o os ih =>
    have hdb' : (db.observe c input crawlId o).Consistent := hdb.observe (hos o List.mem_cons_self)
    rw [Db.observeAll_cons, ih hdb' fun o' ho' => hos o' (List.mem_cons_of_mem _ ho')]
    by_cases hl : o.localId = l
    · subst hl
      have hreports : reportsOf o.localId (o :: os) = o :: reportsOf o.localId os := by
        simp [reportsOf]
      have hburied : (db.observe c input crawlId o).buried input.adapterId o.localId = false :=
        hdb.buried_observe
      rw [hreports, hburied]
      cases hhead : db.headRow input.adapterId o.localId with
      | none =>
        rw [Db.headRow_observe_of_none hhead]
        exact iff_of_true (reachesHead_of_rules rfl _ _) rfl
      | some h =>
        by_cases hrep : db.repeats c input.adapterId o = true
        · rw [Db.headRow_observe_of_repeats hhead hrep]
          refine iff_of_true (reachesHead_of_rules rfl _ _) ?_
          obtain ⟨head, hhead', hnot, hhash⟩ := Db.exists_head_of_repeats hrep
          obtain rfl := Option.some.inj (hhead.symm.trans hhead')
          simp [reachesHead, hnot, hhash]
        · rw [Db.headRow_observe_of_appended hhead hrep]
          by_cases hkey : h.key ≤ orderKey o
          · rw [if_pos hkey]
            exact iff_of_true (reachesHead_of_rules rfl _ _) (by simp [reachesHead, hkey])
          · rw [if_neg hkey]
            have hnew : db.buried input.adapterId o.localId = false →
                contentHash c o ≠ contentHash c h.observation := by
              intro hnot heq
              exact hrep (by simp [Db.repeats, hnot, hhead, heq])
            cases hwas : db.buried input.adapterId o.localId with
            | true => simp [reachesHead, hkey]
            | false => simp [reachesHead, hkey, hnew hwas]
    · have hreports : reportsOf l (o :: os) = reportsOf l os := by simp [reportsOf, hl]
      have hne : ¬(input.adapterId = input.adapterId ∧ l = o.localId) := fun h => hl h.2.symm
      rw [hreports, Db.buried_observe_of_ne hne, Db.headRow_observe, if_neg hne]

end Rules

/-! ### Runs -/

/-- The rules a record was last stored or seen under, over a run: those of the last sweep that
committed a report of it. -/
def lastRules (c : Crates) (actions : List Action) (a l : String) : Option HeadMeta :=
  along c
    (fun db last action =>
      match action with
      | .write _ => last
      | .sweep input script =>
        if a = input.adapterId ∧ l ∈ allObserved input (sweepResource c db input script).committed
        then some input.rules
        else last)
    none actions

/-- Whether the reports of every record a sweep commits reach the row of its head. -/
def keepsRules (c : Crates) (db : Db) (input : SweepInput) (script : Script) : Bool :=
  let kept := allKept input (sweepResource c db input script).committed
  (kept.map Observation.localId).all fun l =>
    reachesHead c input.rules (db.headRow input.adapterId l) (db.buried input.adapterId l)
      (reportsOf l kept)

/-- Whether every sweep of a run meets a condition on the tables it finds. -/
def everySweep (c : Crates) (condition : Db → SweepInput → Script → Bool) (actions : List Action) :
    Bool :=
  along c
    (fun db ok action =>
      match action with
      | .write _ => ok
      | .sweep input script => ok && condition db input script)
    true actions

section Runs

variable {c : Crates} {actions : List Action}

/-- A write outside sweeps reports no record, so the last rules of each stay. -/
lemma lastRules_write (w : MetaWrite) :
    lastRules c (actions ++ [.write w]) = lastRules c actions := by
  funext a l
  rw [lastRules, along_concat]
  rfl

/-- A sweep reports the records of its pages under its rules. -/
lemma lastRules_sweep (input : SweepInput) (script : Script) (a l : String) :
    lastRules c (actions ++ [.sweep input script]) a l =
      if a = input.adapterId ∧
          l ∈ allObserved input (sweepResource c (run c actions) input script).committed then
        some input.rules
      else lastRules c actions a l := by
  rw [lastRules, along_concat]
  rfl

/-- A condition on every sweep of a run, at one of them. -/
lemma everySweep_of_append {condition : Db → SweepInput → Script → Bool} {before : List Action}
    {after : List Action} (h : everySweep c condition (before ++ after) = true) :
    everySweep c condition before = true := by
  induction after using List.reverseRecOn with
  | nil => simpa using h
  | append_singleton after a ih =>
    rw [← List.append_assoc, everySweep, along_concat] at h
    refine ih ?_
    cases a with
    | write w => exact h
    | sweep input script => exact (Bool.and_eq_true_iff.mp h).1

/-- What a sweep leaves on the heads: its rules on those its reports reach, and the others as they
were. -/
lemma Ends.headRules {db db₁ : Db} {input : SweepInput} {script : Script} {k : OpenCrawl}
    {events : List Event} {r : SweepRun} (h : Ends c script k db₁ events r)
    (hopen : Opened c db input script k db₁) (hdb : db.Consistent) (l : String) :
    (l ∈ allObserved input r.committed →
      (r.db.headRules input.adapterId l = some input.rules ↔
        reachesHead c input.rules (db.headRow input.adapterId l) (db.buried input.adapterId l)
          (reportsOf l (allKept input r.committed)) = true)) ∧
    ∀ a, (a ≠ input.adapterId ∨ l ∉ allObserved input r.committed) →
      r.db.headRules a l = db.headRules a l := by
  constructor
  · intro _
    obtain rfl : k.input = input := hopen.input_eq
    rw [Db.headRules_congr h.observations, observedTables,
      headRules_observeAll_iff (hopen.consistent hdb) fun o ho => provenance_of_mem_allKept ho,
      Db.headRow_congr hopen.observations, Db.buried_congr hopen.observations hopen.retractions]
  · intro a hl
    rw [Db.headRules, Db.headRow, h.chainRows_of_notMem hopen hl, ← Db.headRow, ← Db.headRules]

/-- **A sweep that keeps the rules leaves the tables as the log.** -/
lemma headRules_sweep {input : SweepInput} {script : Script}
    (hkeeps : keepsRules c (run c actions) input script = true)
    (hrun : (run c actions).headRules = lastRules c actions) :
    (sweepResource c (run c actions) input script).db.headRules =
      lastRules c (actions ++ [.sweep input script]) := by
  have hdb := consistent_run c actions
  funext a l
  rw [lastRules_sweep, ← hrun]
  rcases sweep_outcome (some MAX_PAGES) c hdb input script with
    ⟨e, h⟩ | ⟨k, db₁, events, hopen, -, hends⟩
  · have hsame : sweepResource c (run c actions) input script =
        unopened (run c actions) script e := h
    simp [hsame, unopened, allObserved]
  · obtain ⟨hobserved, hframe⟩ := hends.headRules hopen hdb l
    split_ifs with hl
    · rw [hl.1]
      refine (hobserved hl.2).mpr ?_
      exact List.all_eq_true.mp hkeeps l hl.2
    · exact hframe a (by tauto)

/-- **In a run whose sweeps all keep the rules, the tables are the log**: the row of every head
carries the rules its record was last stored or seen under. -/
lemma headRules_run (h : everySweep c (keepsRules c) actions = true) :
    (run c actions).headRules = lastRules c actions := by
  induction actions using List.reverseRecOn with
  | nil => rfl
  | append_singleton actions action ih =>
    have hbefore := ih (everySweep_of_append h)
    rw [everySweep, along_concat] at h
    rw [run_concat]
    cases action with
    | write w =>
      rw [lastRules_write, ← hbefore]
      exact Db.headRules_congr (w.apply_eq _).2.1
    | sweep input script => exact headRules_sweep (Bool.and_eq_true_iff.mp h).2 hbefore

end Runs

/-- The reason law for one retraction, by the rules its record was last reported under. -/
def ReasonLaw (input : SweepInput) (last : Option HeadMeta) (reason : String) : Prop :=
  ∃ rules, last = some rules ∧
    (reason = REASON_DERIVATION ↔ rules.derivation ≠ input.helloDerivation) ∧
    (reason = REASON_DEFINITION ↔ rules.derivation = input.helloDerivation ∧
      rules.fingerprint ≠ some input.fingerprint) ∧
    (reason = REASON_ABSENT ↔ rules.derivation = input.helloDerivation ∧
      rules.fingerprint = some input.fingerprint)

/-- The reason a derivation gives, by the rules it reads. -/
lemma reasonLaw_retractionReason (input : SweepInput) (rules : HeadMeta) :
    ReasonLaw input (some rules) (retractionReason input (some rules)) := by
  refine ⟨rules, rfl, ?_⟩
  by_cases hderivation : rules.derivation = input.helloDerivation
  · by_cases hfingerprint : rules.fingerprint = some input.fingerprint
    · simp [retractionReason, hderivation, hfingerprint, REASON_ABSENT, REASON_DERIVATION,
        REASON_DEFINITION]
    · simp [retractionReason, hderivation, hfingerprint, REASON_ABSENT, REASON_DERIVATION,
        REASON_DEFINITION]
  · simp [retractionReason, hderivation, REASON_ABSENT, REASON_DERIVATION, REASON_DEFINITION]

/-- The reason of a retraction is the one its head's rules give. -/
lemma Ends.reason {c : Crates} {db db₁ : Db} {input : SweepInput} {script : Script} {k : OpenCrawl}
    {events : List Event} {r : SweepRun} {ρ : RetractionRow} (h : Ends c script k db₁ events r)
    (hopen : Opened c db input script k db₁) (hdb : db.Consistent) (hnew : ρ ∉ db.retractions)
    (hρ : ρ ∈ r.db.retractions) :
    ∃ rules, db.headRules input.adapterId ρ.localId = some rules ∧
      ρ.reason = retractionReason input (some rules) := by
  obtain ⟨new, hret, hids, -, hrows⟩ := h.retracted hopen hdb
  have hmem : ρ ∈ new := (List.mem_append.mp (hret ▸ hρ)).resolve_left hnew
  obtain ⟨-, -, -, ⟨head, hhead, -⟩, hseen, -⟩ :=
    (hids ρ.localId).mp (List.mem_map_of_mem hmem)
  have hbefore : db.headRow input.adapterId ρ.localId = some head := by
    rw [← hhead, Db.headRow, ← h.chainRows_of_notMem hopen (Or.inr hseen)]
    rfl
  have hrules : db.headRules input.adapterId ρ.localId = some head.rules := by
    rw [Db.headRules, hbefore]
    rfl
  exact ⟨head.rules, hrules, hrules ▸ (hrows ρ hmem).2.2.2⟩

/-- **The reason law.** In a run whose sweeps all leave their rules on the heads of the records
they report, every retraction names the software change, if any, since the sweep that last stored
or saw its record. A sweep of a reachable database leaves its rules on the head of a record it
reports, as the log has it, exactly when its reports reach that head.

**Proof sketch.** Where every sweep so far has left its rules, the rules on the heads are those of
the log (`headRules_run`), and a retraction names what has changed between the rules on the head and
those of its sweep. For the second part, a sweep writes its rules on the head when it appends or
stamps it, and then the log and the head agree. -/
theorem retraction_reason (c : Crates) :
    (∀ actions, everySweep c (keepsRules c) actions = true →
      ∀ before input script after, actions = before ++ .sweep input script :: after →
        ∀ ρ ∈ (sweepResource c (run c before) input script).db.retractions,
          ρ ∉ (run c before).retractions →
            ReasonLaw input (lastRules c before input.adapterId ρ.localId) ρ.reason) ∧
    ∀ actions input script,
      let out := sweepResource c (run c actions) input script
      ∀ l ∈ allObserved input out.committed,
        (out.db.headRules input.adapterId l =
            lastRules c (actions ++ [.sweep input script]) input.adapterId l ↔
          reachesHead c input.rules ((run c actions).headRow input.adapterId l)
            ((run c actions).buried input.adapterId l)
            (reportsOf l (allKept input out.committed)) = true) := by
  constructor
  · rintro actions h before input script after rfl ρ hρ hnew
    have hlog := headRules_run (everySweep_of_append h)
    rcases sweep_outcome (some MAX_PAGES) c (consistent_run c before) input script with
      ⟨e, hsame⟩ | ⟨k, db₁, events, hopen, -, hends⟩
    · rw [sweepResource, hsame] at hρ
      exact absurd hρ hnew
    · obtain ⟨rules, hrules, hreason⟩ :=
        hends.reason hopen (consistent_run c before) hnew hρ
      rw [← hlog, hrules, hreason]
      exact reasonLaw_retractionReason input rules
  · intro actions input script out l hl
    rcases sweep_outcome (some MAX_PAGES) c (consistent_run c actions) input script with
      ⟨e, hsame⟩ | ⟨k, db₁, events, hopen, -, hends⟩
    · have hnone : out = unopened (run c actions) script e := hsame
      simp [hnone, unopened, allObserved] at hl
    · rw [lastRules_sweep, if_pos ⟨rfl, hl⟩]
      exact (hends.headRules hopen (consistent_run c actions) l).1 hl

/-- Two payments, one of which changes while the clock has stepped back a day and the derivation
has moved from `d1` to `d2`. -/
def steppedBack : List Action :=
  [.sweep (Sample.sweep "checking" "d1") (Sample.script Sample.day₂
      [Sample.page "checking" none
        [Sample.record "checking" "x" "api" "rent" .active Sample.day₂,
          Sample.record "checking" "y" "api" "food" .active Sample.day₂]]),
    .sweep (Sample.sweep "checking" "d2") (Sample.script Sample.day₁
      [Sample.page "checking" none
        [Sample.record "checking" "x" "api" "rent for May" .active Sample.day₁,
          Sample.record "checking" "y" "api" "food" .active Sample.day₁]])]

/-- The provider then drops the first payment: an ordinary disappearance under `d2`. -/
def dropsRent : Script :=
  Sample.script Sample.day₃
    [Sample.page "checking" none [Sample.record "checking" "y" "api" "food" .active Sample.day₃]]

/-- A payment that was reported under `d1` alone disappears under `d2`: its last sweep reached the
head of both payments, and the reason is the derivation, which has moved since.

**Proof sketch.** The first sweep, under the one derivation, reports both payments; the second,
under the other, reports one. The run leaves the rules on every head, by evaluation, so the law
holds of the retraction it writes. -/
theorem retraction_reason_moved :
    ∃ ρ ∈ (sweepResource Sample.crates (run Sample.crates (steppedBack.take 1))
        (Sample.sweep "checking" "d2") dropsRent).db.retractions,
      ρ.localId = "x" ∧ ρ.reason = REASON_DERIVATION ∧
        ReasonLaw (Sample.sweep "checking" "d2")
          (lastRules Sample.crates (steppedBack.take 1) "bank" "x") ρ.reason := by
  have hkeeps : everySweep Sample.crates (keepsRules Sample.crates)
      (steppedBack.take 1 ++ [.sweep (Sample.sweep "checking" "d2") dropsRent]) = true := by
    decide +kernel
  have hretracted : (sweepResource Sample.crates (run Sample.crates (steppedBack.take 1))
      (Sample.sweep "checking" "d2") dropsRent).db.retractions =
        [⟨"bank", "x", 1, REASON_DERIVATION, 2, Sample.day₃.text⟩] := by decide +kernel
  have hnone : (run Sample.crates (steppedBack.take 1)).retractions = [] := by decide +kernel
  have hmem : ⟨"bank", "x", 1, REASON_DERIVATION, 2, Sample.day₃.text⟩ ∈
      (sweepResource Sample.crates (run Sample.crates (steppedBack.take 1))
        (Sample.sweep "checking" "d2") dropsRent).db.retractions := by
    rw [hretracted]
    exact List.mem_singleton_self _
  have hnew : (⟨"bank", "x", 1, REASON_DERIVATION, 2, Sample.day₃.text⟩ : RetractionRow) ∉
      (run Sample.crates (steppedBack.take 1)).retractions := by
    rw [hnone]
    exact List.not_mem_nil
  exact ⟨_, hmem, rfl, rfl,
    (retraction_reason Sample.crates).1 _ hkeeps _ _ _ [] rfl _ hmem hnew⟩

/-- An ordinary disappearance blamed on a derivation that moved one sweep earlier. -/
theorem reason_after_stepped_clock :
    ¬ ∀ (c : Crates) (actions before : List Action) (input : SweepInput) (script : Script)
        (after : List Action), actions = before ++ .sweep input script :: after →
      ∀ ρ ∈ (sweepResource c (run c before) input script).db.retractions,
        ρ ∉ (run c before).retractions →
          ReasonLaw input (lastRules c before input.adapterId ρ.localId) ρ.reason := by
  intro h
  have hretracted : (sweepResource Sample.crates (run Sample.crates steppedBack)
      (Sample.sweep "checking" "d2") dropsRent).db.retractions =
        [⟨"bank", "x", 2, REASON_DERIVATION, 3, Sample.day₃.text⟩] := by decide +kernel
  have hnone : (run Sample.crates steppedBack).retractions = [] := by decide +kernel
  have hlast : lastRules Sample.crates steppedBack "bank" "x" = some ⟨"d2", some "f"⟩ := by
    decide +kernel
  obtain ⟨rules, hrules, hderivation, -⟩ :=
    h Sample.crates _ steppedBack (Sample.sweep "checking" "d2") dropsRent [] rfl
      ⟨"bank", "x", 2, REASON_DERIVATION, 3, Sample.day₃.text⟩ (by simp [hretracted])
      (by simp [hnone])
  obtain rfl := Option.some.inj (hlast.symm.trans hrules)
  exact hderivation.mp rfl rfl

end Sumer.Store
