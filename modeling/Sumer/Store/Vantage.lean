import Sumer.Store.Retraction

set_option relaxedAutoImplicit false
set_option autoImplicit false

/-!
# The vantage of a resource

A resource remembers the provider its records were last reconciled with. A complete sweep that
reads from another provider retracts nothing: it notes the change and adopts the new provider, in
its one transaction. Nothing else writes that column, so the exemption is spent exactly once.

## Main definitions

* `Sumer.Store.Db.vantage`: the provider a resource was last reconciled with.
* `Sumer.Store.CompletesAt`: a step that is a complete sweep of a given resource.

## Main results

* `Sumer.Store.Ends.vantage`, `Sumer.Store.Ends.notes`: what an end does to the column, and what
  it notes.
* `Sumer.Store.vantage_run`: the vantage a complete sweep adopts stays until the next one.
* `Sumer.Store.vantage_law`: changes of vantage over whole runs.
-/

namespace Sumer.Store

open Sumer.Wire Sumer.Host

/-- The provider a resource was last reconciled with. -/
def Db.vantage (db : Db) (a r : String) : Option String :=
  (db.resource a r).bind ResourceRow.lastProviderId

/-- The vantage moved when there is one and it is not the sweep's. -/
lemma Db.vantageMoved_eq_none_iff {db : Db} {input : SweepInput} :
    db.vantageMoved input = none ↔
      ∀ previous, db.vantage input.adapterId input.resourceId = some previous →
        previous = input.providerId := by
  rw [Db.vantageMoved, ← Db.vantage]
  cases db.vantage input.adapterId input.resourceId <;> simp

/-! ### Statements over the resources -/

section Statements

variable {db : Db} {a r : String}

/-- Updating other columns of the resources leaves the vantages.

**Proof sketch.** Induction on the rows. The row that is found is found after the update as well,
since the keys are left alone, and its provider is one that the update leaves. -/
lemma vantage_update {rows : List ResourceRow} (p : ResourceRow → Bool)
    (f : ResourceRow → ResourceRow)
    (hf : ∀ row, (f row).adapterId = row.adapterId ∧ (f row).resourceId = row.resourceId)
    (hv : ∀ row, row.adapterId = a → row.resourceId = r → p row = true →
      (f row).lastProviderId = row.lastProviderId) :
    ((update p f rows).find? fun row => row.adapterId == a && row.resourceId == r).bind
        ResourceRow.lastProviderId =
      (rows.find? fun row => row.adapterId == a && row.resourceId == r).bind
        ResourceRow.lastProviderId := by
  induction rows with
  | nil => rfl
  | cons row rows ih =>
    have hsame : ((if p row then f row else row).adapterId == a &&
        (if p row then f row else row).resourceId == r) =
          (row.adapterId == a && row.resourceId == r) := by
      split_ifs
      · rw [(hf row).1, (hf row).2]
      · rfl
    simp only [update, List.map_cons, List.find?_cons, hsame] at ih ⊢
    cases hmatch : row.adapterId == a && row.resourceId == r with
    | false => exact ih
    | true =>
      simp only [Bool.and_eq_true, beq_iff_eq] at hmatch
      simp only [Option.bind_some]
      by_cases hp : p row = true
      · rw [if_pos hp, hv row hmatch.1 hmatch.2 hp]
      · rw [if_neg hp]

/-- **What the metadata of a final page does to the vantages**: a complete sweep adopts its own
provider, for its own resource.

**Proof sketch.** Closing the books rewrites the provider of the rows of one resource, and only in a
complete sweep. For the resource itself the row found before, if there is one, is the row found
after, with the new provider; for any other the update misses the row that is found. -/
lemma Db.vantage_closeBooks (input : SweepInput) (crawlId : ℕ) (drained complete : Bool)
    (reason : Option String) :
    (db.closeBooks input crawlId drained complete reason).vantage a r =
      if complete ∧ a = input.adapterId ∧ r = input.resourceId ∧ (db.resource a r).isSome then
        some input.providerId
      else db.vantage a r := by
  have hresources : (db.closeBooks input crawlId drained complete reason).resources =
      update (fun row => row.adapterId == input.adapterId && row.resourceId == input.resourceId)
        (fun row => { row with
          fingerprint := some input.fingerprint
          lastProviderId :=
            (if complete then some input.providerId else none).or row.lastProviderId })
        db.resources := rfl
  rw [Db.vantage, Db.resource, hresources]
  by_cases hown : a = input.adapterId ∧ r = input.resourceId
  · obtain ⟨rfl, rfl⟩ := hown
    have hfind := filter_update
      (fun row => row.adapterId == input.adapterId && row.resourceId == input.resourceId)
      (fun row => row.adapterId == input.adapterId && row.resourceId == input.resourceId)
      (fun row : ResourceRow => { row with
        fingerprint := some input.fingerprint
        lastProviderId :=
          (if complete then some input.providerId else none).or row.lastProviderId })
      (fun _ => rfl) db.resources
    rw [Db.vantage, Db.resource, ← List.head?_filter, ← List.head?_filter, hfind]
    cases hrows : db.resources.filter fun row =>
        row.adapterId == input.adapterId && row.resourceId == input.resourceId with
    | nil => simp [update]
    | cons row rows =>
      have hrow : row ∈ db.resources.filter fun row =>
          row.adapterId == input.adapterId && row.resourceId == input.resourceId := by
        rw [hrows]
        exact List.mem_cons_self
      have hmatch := (List.mem_filter.mp hrow).2
      simp only [Bool.and_eq_true, beq_iff_eq] at hmatch
      cases complete <;> simp [update, hmatch]
  · have hnot : ¬(complete = true ∧ a = input.adapterId ∧ r = input.resourceId ∧
        (db.resource a r).isSome = true) := fun h => hown ⟨h.2.1, h.2.2.1⟩
    rw [if_neg hnot]
    refine vantage_update _ _ (fun _ => ⟨rfl, rfl⟩) fun row ha hr hp => ?_
    simp only [Bool.and_eq_true, beq_iff_eq] at hp
    exact absurd ⟨ha.symm.trans hp.1, hr.symm.trans hp.2⟩ hown

/-- No write outside sweeps changes a vantage.

**Proof sketch.** By cases of the write. Only an upsert of a resource touches the table of
resources: it rewrites other columns of a row, or adds one that has no provider yet. -/
lemma MetaWrite.vantage_apply (w : MetaWrite) (db : Db) (a r : String) :
    (w.apply db).vantage a r = db.vantage a r := by
  cases w with
  | upsertAdapter adapterId argv =>
    simp only [MetaWrite.apply, Db.upsertAdapter]
    split <;> rfl
  | setAdapterDerivation adapterId derivation => rfl
  | upsertResource adapterId resourceId kind label =>
    simp only [MetaWrite.apply, Db.upsertResource]
    split_ifs with hany hadapter
    · exact vantage_update _ _ (fun _ => ⟨rfl, rfl⟩) fun _ _ _ _ => rfl
    · simp only [Db.vantage, Db.resource, List.find?_append]
      cases db.resources.find? fun row => row.adapterId == a && row.resourceId == r with
      | some row => rfl
      | none => by_cases hnew : adapterId = a ∧ resourceId = r <;> simp [hnew]
    · rfl
  | setNeedsReauth adapterId needs => rfl
  | openBalanceRead adapterId =>
    simp only [MetaWrite.apply, Db.openBalanceRead]
    cases db.adapters.find? (·.adapterId == adapterId) <;> rfl

end Statements

/-! ### The ends of a sweep -/

section Ends

variable {c : Crates} {db db₁ : Db} {input : SweepInput} {script : Script} {k : OpenCrawl}
  {events : List Event} {out : SweepRun}

/-- A vantage is read off the resources. -/
lemma Db.vantage_congr {db' : Db} (h : db'.resources = db.resources) :
    db'.vantage = db.vantage := by
  funext a r
  simp [vantage, resource, h]

/-- **What any end does to the vantages**: only a complete sweep changes one, its own resource's,
and it adopts its own provider.

**Proof sketch.** By cases of how the sweep ended. One that is not complete leaves the providers as
they were when it opened, though it may write observations and close its books. A complete one
closes its books as complete, over tables with the same resources, and retractions and discrepancies
touch none (`Db.vantage_closeBooks`). -/
lemma Ends.vantage (h : Ends c script k db₁ events out) (hopen : Opened c db input script k db₁)
    (a r : String) :
    out.db.vantage a r =
      if out.Complete ∧ a = input.adapterId ∧ r = input.resourceId ∧ (db.resource a r).isSome then
        some input.providerId
      else db.vantage a r := by
  obtain rfl : k.input = input := hopen.input_eq
  have hbefore (db' : Db) (hdb' : db'.resources = db₁.resources) :
      db'.vantage = db.vantage ∧ db'.resource a r = db.resource a r := by
    have hsame := hdb'.trans hopen.resources
    exact ⟨Db.vantage_congr hsame, by rw [Db.resource, hsame, Db.resource]⟩
  cases h with
  | @cut events s ended hat hended =>
    rw [if_neg fun hc => ?_]
    · exact congrFun₂ (hbefore _ (by simp [Sweeping.stop, hat.db])).1 a r
    · obtain ⟨report, hreport, -⟩ := hc.1
      exact hended report hreport
  | @early events s hat reason report hcomplete =>
    rw [if_neg fun hc => SweepRun.not_complete rfl hcomplete hc.1]
    exact congrFun₂ (hbefore _ (by simp [Sweeping.stop, Db.finishCrawl, hat.db])).1 a r
  | partialSweep hat hstatus hlast reason hgate report hcomplete =>
    rw [if_neg fun hc => SweepRun.not_complete rfl hcomplete hc.1, Db.vantage_closeBooks]
    simpa using congrFun₂ (hbefore _ (resources_finalObserved _ _)).1 a r
  | @complete events s read status hat hstatus hlast hgate report hcomplete =>
    have hresources : (finalObserved c k db₁ s.committed read).resources = db₁.resources :=
      resources_finalObserved _ _
    have hretracted (rows : List RetractionRow) (notes : List DiscrepancyRow) :=
      hbefore ((finalObserved c k db₁ s.committed read).retract rows notes) hresources
    have hdone (db' : Db) : (⟨db', .reported report, some k,
        loadFold (finalObserved c k db₁ s.committed read) k.input.adapterId, s.verdict,
        s.committed ++ [read]⟩ : SweepRun).Complete := ⟨report, rfl, hcomplete⟩
    simp only [completed, Db.vantage_closeBooks, hretracted, hdone]

/-- What a sweep notes beside a change of vantage is not one. -/
lemma kind_of_noted {s : Deriving} {d : Discrepancy} (h : d ∈ noted s) : d.kind ≠ KIND_VANTAGE := by
  simp only [noted, List.mem_append] at h
  have hkinds : d.kind = KIND_DERIVATION ∨ d.kind = KIND_DEFINITION ∨
      d.kind = KIND_HISTORY_START := by
    rcases h with (h | h) | h <;> split_ifs at h <;> simp_all
  rcases hkinds with hkind | hkind | hkind <;> rw [hkind] <;> decide

/-- **What any end notes**: nothing unless the sweep is complete; then a change of vantage and
nothing else, or whatever else there is to note and no change of vantage.

**Proof sketch.** By cases of how the sweep ended. Only a complete one writes discrepancies, those
of the derivation over the tables with all pages observed; observing changes neither the providers
nor the earlier discrepancies. If the vantage has moved, the derivation has the move alone to note,
and if it has not, every note it has is of one of the other kinds. -/
lemma Ends.notes (h : Ends c script k db₁ events out) (hopen : Opened c db input script k db₁) :
    ∃ notes, out.db.discrepancies =
        db.discrepancies ++ notes.map (discrepancyRow input k.crawlId k.now) ∧
      (¬ out.Complete → notes = []) ∧
      (out.Complete → ∀ previous, db.vantageMoved input = some previous →
        notes = [⟨KIND_VANTAGE, previous ++ " -> " ++ input.providerId⟩]) ∧
      (db.vantageMoved input = none → ∀ d ∈ notes, d.kind ≠ KIND_VANTAGE) := by
  obtain rfl : k.input = input := hopen.input_eq
  have hopened : db₁.discrepancies = db.discrepancies := by
    rw [hopen.db_eq]
    rfl
  cases h with
  | @cut events s ended hat hended =>
    refine ⟨[], by simp [Sweeping.stop, hat.db, hopened], fun _ => rfl, ?_, by simp⟩
    rintro ⟨report, hreport, -⟩
    exact absurd hreport (hended report)
  | @early events s hat reason report hcomplete =>
    exact ⟨[], by simp [Sweeping.stop, Db.finishCrawl, hat.db, hopened], fun _ => rfl,
      fun hc => absurd hc (SweepRun.not_complete rfl hcomplete), by simp⟩
  | partialSweep hat hstatus hlast reason hgate report hcomplete =>
    exact ⟨[], by simp [hopened], fun _ => rfl,
      fun hc => absurd hc (SweepRun.not_complete rfl hcomplete), by simp⟩
  | @complete events s read status hat hstatus hlast hgate report hcomplete =>
    have hresources : (finalObserved c k db₁ s.committed read).resources = db.resources :=
      (resources_finalObserved _ _).trans hopen.resources
    have hmoved : (finalObserved c k db₁ s.committed read).vantageMoved k.input =
        db.vantageMoved k.input := by
      rw [Db.vantageMoved, Db.resource, hresources, Db.vantageMoved, Db.resource]
    refine ⟨_, congrArg (· ++ _) ((discrepancies_finalObserved _ _).trans hopened),
      fun hnot => absurd ⟨report, rfl, hcomplete⟩ hnot, ?_, ?_⟩
    · intro _ previous hprevious
      simp only [Db.discrepanciesOf, hmoved, hprevious]
    · intro hstill
      simp only [Db.discrepanciesOf, hmoved, hstill]
      split_ifs
      · simp [emptySweep, KIND_EMPTY, KIND_VANTAGE]
      · intro d hd
        exact kind_of_noted hd

end Ends

/-! ### Runs -/

/-- A step that is a complete sweep of one resource. -/
def CompletesAt (c : Crates) (db : Db) (a r : String) : Action → Prop
  | .write _ => False
  | .sweep input script =>
    input.adapterId = a ∧ input.resourceId = r ∧ (sweepResource c db input script).Complete

section Runs

variable {c : Crates} {db : Db} {a r : String}

/-- A sweep that did not open is not complete. -/
lemma not_complete_unopened (script : Script) (e : StoreError) :
    ¬ (unopened db script e).Complete := by
  rintro ⟨report, hended, -⟩
  cases hended

/-- What a sweep does to the vantages. -/
lemma vantage_sweep (hdb : db.Consistent) (input : SweepInput) (script : Script) (a r : String) :
    (sweepResource c db input script).db.vantage a r =
      if (sweepResource c db input script).Complete ∧ a = input.adapterId ∧ r = input.resourceId ∧
          (db.resource a r).isSome then
        some input.providerId
      else db.vantage a r := by
  rcases sweep_outcome (some MAX_PAGES) c hdb input script with
    ⟨e, h⟩ | ⟨k, db₁, events, hopen, -, hends⟩
  · have hsame : sweepResource c db input script = unopened db script e := h
    rw [hsame, if_neg fun hc => not_complete_unopened script e hc.1]
    rfl
  · exact hends.vantage hopen a r

/-- **One step** changes a vantage only if it is a complete sweep of that resource. -/
lemma vantage_apply (hdb : db.Consistent) {x : Action} (hx : ¬ CompletesAt c db a r x) :
    (x.apply c db).vantage a r = db.vantage a r := by
  cases x with
  | write w => exact w.vantage_apply db a r
  | sweep input script =>
    refine (vantage_sweep hdb input script a r).trans (if_neg ?_)
    rintro ⟨hcomplete, rfl, rfl, -⟩
    exact hx ⟨rfl, rfl, hcomplete⟩

/-- **Between complete sweeps of a resource its vantage stays.** -/
lemma vantage_run {before between : List Action}
    (h : ∀ mid x rest, between = mid ++ x :: rest → ¬ CompletesAt c (run c (before ++ mid)) a r x) :
    (run c (before ++ between)).vantage a r = (run c before).vantage a r := by
  induction between using List.reverseRecOn with
  | nil => rw [List.append_nil]
  | append_singleton between x ih =>
    have hearlier := ih fun mid y rest hy => h mid y (rest ++ [x]) (by simp [hy])
    rw [← List.append_assoc, run_concat, vantage_apply (consistent_run c _) (h between x [] rfl),
      hearlier]

end Runs

/-- **Vantages over whole runs.** The stored provider of a resource changes in no step but a
complete sweep of that resource; a sweep cut short anywhere is such a step only if its last
transaction committed. A complete sweep that reads from another provider than the stored one
retracts nothing, notes the change and nothing else, and adopts its own provider. The next
complete sweep of that resource, if it reads from the provider the last one adopted, finds the
vantage unmoved and notes no change.

**Proof sketch.** The first part is the contrapositive of a step lemma: an action that completes no
sweep of the resource leaves the stored provider (`vantage_apply`), and the database before it is a
reachable one. For the second, the outcome of the sweep is taken apart: a sweep that fails to open
is not complete, and one that ran ends with the provider of its input stored, and with one
discrepancy, the move, since a moved vantage leaves no record absent (`Ends.vantage`). For the
third, the first part carries the provider the first sweep stored through every action in between,
so nothing has moved when the second one opens, and none of the discrepancies it notes is of the
vantage's kind (`Ends.notes`). -/
theorem vantage_law (c : Crates) :
    (∀ actions x a r, (run c (actions ++ [x])).vantage a r ≠ (run c actions).vantage a r →
      CompletesAt c (run c actions) a r x) ∧
    (∀ actions input script previous,
      let db := run c actions
      let out := sweepResource c db input script
      out.Complete → db.vantage input.adapterId input.resourceId = some previous →
        previous ≠ input.providerId →
          out.db.retractions = db.retractions ∧
          (∃ k, out.opened = some k ∧ out.db.discrepancies = db.discrepancies ++
            [⟨input.adapterId, input.resourceId, KIND_VANTAGE, k.crawlId,
              previous ++ " -> " ++ input.providerId, script.now.text⟩]) ∧
          out.db.vantage input.adapterId input.resourceId = some input.providerId) ∧
    ∀ before first script₁ between second script₂,
      let earlier := before ++ .sweep first script₁ :: between
      let out := sweepResource c (run c earlier) second script₂
      (sweepResource c (run c before) first script₁).Complete →
      (∀ mid x rest, between = mid ++ x :: rest →
        ¬ CompletesAt c (run c (before ++ .sweep first script₁ :: mid)) first.adapterId
          first.resourceId x) →
      second.adapterId = first.adapterId → second.resourceId = first.resourceId →
      second.providerId = first.providerId →
        (run c earlier).vantageMoved second = none ∧
          ∃ new, out.db.discrepancies = (run c earlier).discrepancies ++ new ∧
            ∀ d ∈ new, d.kind ≠ KIND_VANTAGE := by
  refine ⟨?_, ?_, ?_⟩
  · intro actions x a r hchanged
    by_contra hx
    refine hchanged ?_
    rw [run_concat]
    exact vantage_apply (consistent_run c actions) hx
  · intro actions input script previous db out hcomplete hprevious hne
    have hdb : db.Consistent := consistent_run c actions
    have hmoved : db.vantageMoved input = some previous := by
      rw [Db.vantageMoved, ← Db.vantage, hprevious]
      simp [hne]
    have hrow : (db.resource input.adapterId input.resourceId).isSome = true := by
      rw [Db.vantage, Option.bind_eq_some_iff] at hprevious
      obtain ⟨row, hrow, -⟩ := hprevious
      rw [hrow]
      rfl
    rcases sweep_outcome (some MAX_PAGES) c hdb input script with
      ⟨e, h⟩ | ⟨k, db₁, events, hopen, -, hends⟩
    · have hsame : out = unopened db script e := h
      exact absurd (hsame ▸ hcomplete) (not_complete_unopened script e)
    · have hvantage := hends.vantage hopen input.adapterId input.resourceId
      rw [if_pos ⟨hcomplete, rfl, rfl, hrow⟩] at hvantage
      obtain ⟨notes, hnotes, -, hchange, -⟩ := hends.notes hopen
      obtain ⟨new, hnew, hids, -⟩ := hends.retracted hopen hdb
      have hnone : new = [] := by
        by_contra hsome
        obtain ⟨ρ, hρ⟩ := List.exists_mem_of_ne_nil _ hsome
        have := ((hids ρ.localId).mp (List.mem_map_of_mem hρ)).2.1
        simp [hmoved] at this
      refine ⟨by rw [hnone, List.append_nil] at hnew; exact hnew, ⟨k, hends.opened, ?_⟩, hvantage⟩
      rw [hchange hcomplete previous hmoved, hopen.now_eq] at hnotes
      exact hnotes
  · intro before first script₁ between second script₂ earlier out hfirst hbetween hadapter hresource
      hprovider
    have hearlier : earlier = (before ++ [.sweep first script₁]) ++ between := by
      simp [earlier]
    have hstays : (run c earlier).vantage first.adapterId first.resourceId =
        (run c (before ++ [.sweep first script₁])).vantage first.adapterId first.resourceId := by
      rw [hearlier]
      refine vantage_run fun mid x rest hx => ?_
      rw [List.append_assoc]
      exact hbetween mid x rest hx
    have hadopted : (run c (before ++ [.sweep first script₁])).vantage first.adapterId
        first.resourceId = if ((run c before).resource first.adapterId first.resourceId).isSome then
          some first.providerId else (run c before).vantage first.adapterId first.resourceId := by
      rw [run_concat]
      refine (vantage_sweep (consistent_run c before) first script₁ _ _).trans ?_
      simp [hfirst]
    have hstill : (run c earlier).vantageMoved second = none := by
      rw [Db.vantageMoved_eq_none_iff, hadapter, hresource, hprovider, hstays, hadopted]
      intro previous hprevious
      split_ifs at hprevious with hrow
      · exact (Option.some.inj hprevious).symm
      · simp [Db.vantage, Option.not_isSome_iff_eq_none.mp hrow] at hprevious
    refine ⟨hstill, ?_⟩
    rcases sweep_outcome (some MAX_PAGES) c (consistent_run c earlier) second script₂ with
      ⟨e, h⟩ | ⟨k, db₁, events, hopen, -, hends⟩
    · have hsame : out = unopened (run c earlier) script₂ e := h
      exact ⟨[], by simp [hsame, unopened], List.forall_mem_nil _⟩
    · obtain ⟨notes, hnotes, -, -, hkinds⟩ := hends.notes hopen
      refine ⟨_, hnotes, fun d hd => ?_⟩
      obtain ⟨note, hnote, rfl⟩ := List.mem_map.mp hd
      exact hkinds hstill note hnote

end Sumer.Store
