import Sumer.Store.Heads
import Sumer.Store.Revival

set_option relaxedAutoImplicit false
set_option autoImplicit false

/-!
# Refreshing unchanged content

When a sweep of content that was swept before appends nothing. An observation is compared with the
head of its chain alone, so a second sweep settles exactly when all reports of a record say the
same thing and the head of its chain says it too.

## Main definitions

* `Sumer.Store.Db.unstamped`: the stored rows without the columns a stamp writes.
* `Sumer.Store.Db.Settled`: every one of some observations repeats the head of its chain.
* `Sumer.Store.Settles`: a sweep after which its own reports are settled, by what it finds.

## Main results

* `Sumer.Store.Db.observeAll_still_iff`: observations append nothing exactly when they are settled.
* `Sumer.Store.Db.hash_head_observeAll_iff`: when the head says what the reports say.
* `Sumer.Store.refresh_idempotent`: when a second sweep of the same content appends nothing.
-/

namespace Sumer.Store

open Sumer.Wire Sumer.Host

/-- A stored row without the columns that a stamp writes. -/
def StoredObservation.unstamped (r : StoredObservation) : String × ℕ × ℕ × String × Observation :=
  (r.adapterId, r.revision, r.crawlId, r.contentHash, r.observation)

/-- The stored rows without the columns that a stamp writes. -/
def Db.unstamped (db : Db) : List (String × ℕ × ℕ × String × Observation) :=
  db.observations.map StoredObservation.unstamped

/-- Every one of some observations repeats the head of its chain. -/
def Db.Settled (c : Crates) (db : Db) (a : String) (os : List Observation) : Prop :=
  ∀ o ∈ os, db.repeats c a o = true

/-- The reports of a record all say the same thing, and the head of its chain says it too, or
there is none yet, or some report does not sort before it. -/
def Settles (c : Crates) (head : Option StoredObservation) (reports : List Observation) : Prop :=
  ∃ hash, (∀ o ∈ reports, contentHash c o = hash) ∧
    ∀ h, head = some h →
      contentHash c h.observation = hash ∨ ∃ o ∈ reports, h.key ≤ orderKey o

section Observe

variable {c : Crates} {input : SweepInput} {crawlId : ℕ} {db : Db} {l : String}

/-- An observation adds its row, unless it repeats the head of its chain. -/
lemma Db.unstamped_observe (o : Observation) :
    (db.observe c input crawlId o).unstamped =
      if db.repeats c input.adapterId o then db.unstamped
      else db.unstamped ++ [(db.newRow c input crawlId o).unstamped] := by
  unfold Db.observe
  split_ifs
  · exact map_update _ (StoredObservation.stamped input crawlId) _ (fun _ => rfl) _
  · simp [Db.unstamped]

/-- Observations only add rows, so there are never fewer after some more of them. -/
lemma Db.length_unstamped_observeAll (os : List Observation) :
    db.unstamped.length ≤ (db.observeAll c input crawlId os).unstamped.length := by
  refine Db.observeAll_invariant (P := fun db' => db.unstamped.length ≤ db'.unstamped.length) ?_
    le_rfl
  intro db' o _ h
  rw [Db.unstamped_observe]
  split_ifs
  · exact h
  · rw [List.length_append]
    omega

/-- A repeated observation leaves every chain as it was, but for the stamps on its head. -/
lemma Db.repeats_observe_of_repeats {o o' : Observation}
    (hrep : db.repeats c input.adapterId o = true) :
    (db.observe c input crawlId o).repeats c input.adapterId o' =
      db.repeats c input.adapterId o' := by
  obtain ⟨head, hhead, -, -⟩ := Db.exists_head_of_repeats hrep
  have hburied : (db.observe c input crawlId o).buried input.adapterId o'.localId =
      db.buried input.adapterId o'.localId := by
    rw [Db.buried, Db.buried, Db.retractionHighWater_congr Db.retractions_observe,
      Db.length_chainRows_observe]
    simp [hrep]
  rw [Db.repeats, Db.repeats, hburied]
  by_cases hl : o'.localId = o.localId
  · rw [hl, Db.headRow_observe_of_repeats hhead hrep, hhead]
    rfl
  · rw [Db.headRow_observe, if_neg fun h => hl h.2]

/-- **Observations append nothing exactly when they are settled.**

**Proof sketch.** Induction over the observations. One that repeats its head changes nothing the
others are compared with; one that does not adds a row, and no later one takes it away. -/
lemma Db.observeAll_still_iff {os : List Observation} :
    (db.observeAll c input crawlId os).unstamped = db.unstamped ↔
      db.Settled c input.adapterId os := by
  induction os generalizing db with
  | nil => simp [Settled]
  | cons o os ih =>
    rw [Db.observeAll_cons, Settled, List.forall_mem_cons]
    by_cases hrep : db.repeats c input.adapterId o = true
    · have hsame : (db.observe c input crawlId o).unstamped = db.unstamped := by
        rw [Db.unstamped_observe, if_pos hrep]
      rw [← hsame, ih]
      simp only [Settled, Db.repeats_observe_of_repeats hrep, hrep, true_and]
    · refine iff_of_false (fun heq => ?_) fun h => hrep h.1
      have hgrows : (db.observe c input crawlId o).unstamped.length ≤
          ((db.observe c input crawlId o).observeAll c input crawlId os).unstamped.length :=
        Db.length_unstamped_observeAll os
      rw [heq, Db.unstamped_observe, if_neg hrep, List.length_append, List.length_singleton]
        at hgrows
      omega

/-- Settled observations stay settled while other settled ones are taken in, because these stamp
rows only. -/
lemma Db.Settled.observeAll {os os' : List Observation} (h : db.Settled c input.adapterId os)
    (h' : db.Settled c input.adapterId os') :
    (db.observeAll c input crawlId os).Settled c input.adapterId os' := by
  induction os generalizing db with
  | nil => exact h'
  | cons o os ih =>
    have hrep := h o List.mem_cons_self
    refine ih (fun o₁ ho₁ => ?_) fun o₁ ho₁ => ?_
    · rw [Db.repeats_observe_of_repeats hrep]
      exact h o₁ (List.mem_cons_of_mem _ ho₁)
    · rw [Db.repeats_observe_of_repeats hrep]
      exact h' o₁ ho₁

/-- The head after reports that all have one hash.

**Proof sketch.** Induction over the reports: once the head has the hash, every report repeats it;
until then every report is appended, and takes over unless it sorts before the head. -/
lemma Db.hash_head_observeAll_iff (crawlId : ℕ) {hash : String} {os : List Observation}
    (hos : ∀ o ∈ os, o.localId = l ∧ contentHash c o = hash) :
    (∀ h, (db.observeAll c input crawlId os).headRow input.adapterId l = some h →
        contentHash c h.observation = hash) ↔
      ∀ h, db.headRow input.adapterId l = some h →
        contentHash c h.observation = hash ∨ ∃ o ∈ os, h.key ≤ orderKey o := by
  induction os generalizing db with
  | nil => simp
  | cons o os ih =>
    obtain ⟨rfl, hhash⟩ := hos o List.mem_cons_self
    rw [Db.observeAll_cons, ih fun o' ho' => hos o' (List.mem_cons_of_mem _ ho')]
    cases hhead : db.headRow input.adapterId o.localId with
    | none =>
      rw [Db.headRow_observe_of_none hhead]
      refine iff_of_true (fun h hh => Or.inl ?_) (by simp)
      rw [← Option.some.inj hh]
      exact hhash
    | some head =>
      by_cases hrep : db.repeats c input.adapterId o = true
      · obtain ⟨head', hhead', -, heq⟩ := Db.exists_head_of_repeats hrep
        obtain rfl := Option.some.inj (hhead.symm.trans hhead')
        rw [Db.headRow_observe_of_repeats hhead hrep]
        refine iff_of_true (fun h hh => Or.inl ?_) fun h hh => Or.inl ?_
        · rw [← Option.some.inj hh]
          exact heq.trans hhash
        · rw [← Option.some.inj hh]
          exact heq.trans hhash
      · rw [Db.headRow_observe_of_appended hhead hrep]
        by_cases hkey : head.key ≤ orderKey o
        · rw [if_pos hkey]
          refine iff_of_true (fun h hh => Or.inl ?_) fun h hh => Or.inr ⟨o, by simp, ?_⟩
          · rw [← Option.some.inj hh]
            exact hhash
          · rw [← Option.some.inj hh]
            exact hkey
        · rw [if_neg hkey]
          simp [hkey]

/-- A record that was observed has a head afterwards. -/
lemma Db.headRow_observeAll_isSome (c : Crates) (crawlId : ℕ) (db : Db)
    {os : List Observation} (hl : l ∈ os.map Observation.localId) :
    ∃ head, (db.observeAll c input crawlId os).headRow input.adapterId l = some head := by
  obtain ⟨o, ho, rfl⟩ := List.mem_map.mp hl
  obtain ⟨o', hstored, hl', -⟩ : ∃ o', (input.adapterId, o') ∈
      (db.observeAll c input crawlId os).stored ∧ o'.localId = o.localId ∧
        contentHash c o' = contentHash c o := Db.stored_of_observed ho
  obtain ⟨row, hrow, heq⟩ := List.mem_map.mp hstored
  simp only [Prod.mk.injEq] at heq
  refine Option.ne_none_iff_exists'.mp fun hnone => ?_
  have hmem : row ∈ (db.observeAll c input crawlId os).chainRows input.adapterId o.localId :=
    Db.mem_chainRows.mpr ⟨hrow, heq.1, by rw [heq.2, hl']⟩
  rw [Db.headRow_eq_none.mp hnone] at hmem
  exact List.not_mem_nil hmem

/-- Whether observations are settled is a matter of their ids and hashes. -/
lemma Db.settled_iff_pairs {a : String} (os : List Observation) :
    db.Settled c a os ↔ ∀ p ∈ os.map fun o => (o.localId, contentHash c o),
      (!db.buried a p.1 && (db.headRow a p.1).any
        fun h => contentHash c h.observation == p.2) = true := by
  simp [Settled, Db.repeats]

/-- **When a second batch of the same content is settled**, on tables that have the heads the first
batch left and bury none of them: exactly when the first batch settles each of its records.

**Proof sketch.** The second batch asks about the same pairs of local id and hash, over heads that
the first batch left, so it is settled exactly when every record of the first batch repeats the head
of its chain after the whole batch. That head is the result of ingesting the reports of that one
chain, in order; its hash is that of all of them exactly when they agree and the head before gave
way or already had it. -/
lemma Db.settled_iff_settles {db₂ : Db} {os os' : List Observation}
    (hhead : ∀ l ∈ os.map Observation.localId, db₂.headRow input.adapterId l =
      (db.observeAll c input crawlId os).headRow input.adapterId l)
    (hburied : ∀ l ∈ os.map Observation.localId, db₂.buried input.adapterId l = false)
    (hsame : os'.map (fun o => (o.localId, contentHash c o)) =
      os.map fun o => (o.localId, contentHash c o)) :
    db₂.Settled c input.adapterId os' ↔
      ∀ l ∈ os.map Observation.localId,
        Settles c (db.headRow input.adapterId l) (reportsOf l os) := by
  -- the second batch asks the same questions as the first
  have hfirst : db₂.Settled c input.adapterId os' ↔ ∀ o ∈ os, ∀ head,
      (db.observeAll c input crawlId os).headRow input.adapterId o.localId = some head →
        contentHash c head.observation = contentHash c o := by
    have hask (o : Observation) (ho : o.localId ∈ os.map Observation.localId) :
        db₂.repeats c input.adapterId o = true ↔ ∀ head,
          (db.observeAll c input crawlId os).headRow input.adapterId o.localId = some head →
            contentHash c head.observation = contentHash c o := by
      obtain ⟨head, hsome⟩ := Db.headRow_observeAll_isSome c crawlId db ho
      rw [Db.repeats, hburied _ ho, hhead _ ho, hsome]
      simp
    rw [Db.settled_iff_pairs, hsame, ← Db.settled_iff_pairs]
    exact forall₂_congr fun o ho => hask o (List.mem_map_of_mem ho)
  rw [hfirst]
  have hchain (l : String) : (db.observeAll c input crawlId os).headRow input.adapterId l =
      (db.observeAll c input crawlId (reportsOf l os)).headRow input.adapterId l :=
    ((Db.SameChain.refl db).observeAll os).headRow
  constructor
  · intro h l hl
    obtain ⟨head, hsome⟩ := Db.headRow_observeAll_isSome c crawlId db hl
    have hreports : ∀ o ∈ reportsOf l os, o.localId = l ∧
        contentHash c o = contentHash c head.observation := by
      intro o ho
      obtain ⟨hmem, heq⟩ := List.mem_filter.mp ho
      obtain rfl : o.localId = l := by simpa using heq
      exact ⟨rfl, (h o hmem head hsome).symm⟩
    refine ⟨contentHash c head.observation, fun o ho => (hreports o ho).2, ?_⟩
    refine (Db.hash_head_observeAll_iff crawlId hreports).mp fun head' hsome' => ?_
    rw [← hchain] at hsome'
    rw [Option.some.inj (hsome'.symm.trans hsome)]
  · intro h o ho head hsome
    obtain ⟨hash, hreports, hold⟩ := h o.localId (List.mem_map_of_mem ho)
    have hmem : o ∈ reportsOf o.localId os := List.mem_filter.mpr ⟨ho, by simp⟩
    rw [hreports o hmem]
    refine (Db.hash_head_observeAll_iff crawlId (fun o' ho' => ⟨?_, hreports o' ho'⟩)).mpr hold head
      (hchain _ ▸ hsome)
    simpa using (List.mem_filter.mp ho').2

end Observe

/-! ### Sweeps -/

/-- What the adapter wrote of the observations a sweep kept. -/
def SweepRun.content (r : SweepRun) (input : SweepInput) : List ObservationWire :=
  (allKept input r.committed).map Observation.authored

section Sweeps

variable {c : Crates} {db : Db} {input : SweepInput} {script : Script}

/-- What is compared of an observation is what the adapter wrote of it. -/
lemma pairs_of_authored {os os' : List Observation}
    (h : os'.map Observation.authored = os.map Observation.authored) :
    os'.map (fun o => (o.localId, contentHash c o)) =
      os.map fun o => (o.localId, contentHash c o) := by
  have hpair (o : Observation) : (o.localId, contentHash c o) =
      (o.authored.localId, contentHash c (Observation.stamp o.authored
        ⟨"2026-01-01T00:00:00Z", by decide⟩ .live)) := by
    rw [contentHash_congr c (Observation.authored_stamp o.authored _ _).symm]
    rfl
  have hmap (os : List Observation) : os.map (fun o => (o.localId, contentHash c o)) =
      (os.map Observation.authored).map fun w => (w.localId, contentHash c (Observation.stamp w
        ⟨"2026-01-01T00:00:00Z", by decide⟩ .live)) := by
    rw [List.map_map]
    exact List.map_congr_left fun o _ => hpair o
  rw [hmap, hmap, h]

/-- The rows a sweep leaves, by what it kept. -/
lemma unstamped_sweep (hdb : db.Consistent) (input : SweepInput) (script : Script) :
    ∃ crawlId, (sweepResource c db input script).db.unstamped = (db.observeAll c input crawlId
      (allKept input (sweepResource c db input script).committed)).unstamped := by
  rcases sweep_outcome (some MAX_PAGES) c hdb input script with
    ⟨e, h⟩ | ⟨k, db₁, events, hopen, -, hends⟩
  · have hsame : sweepResource c db input script = unopened db script e := h
    exact ⟨0, by rw [hsame]; rfl⟩
  · obtain rfl : k.input = input := hopen.input_eq
    refine ⟨k.crawlId, ?_⟩
    have hrows := hends.observations
    rw [observedTables, Db.observeAll_of_eq hopen.observations hopen.retractions] at hrows
    exact congrArg (List.map StoredObservation.unstamped) hrows

/-- **A sweep of settled content changes nothing but stamps**, and leaves it settled.

**Proof sketch.** What the sweep takes in has the content of the settled batch, and being settled
depends on the content alone, so every record repeats its head and is stamped. The heads have the
same content afterwards, so the batch is settled again. -/
lemma settled_sweep (hdb : db.Consistent) {os : List Observation}
    (hsettled : db.Settled c input.adapterId os)
    (hcontent : (sweepResource c db input script).content input = os.map Observation.authored) :
    (sweepResource c db input script).db.unstamped = db.unstamped ∧
      (sweepResource c db input script).db.Settled c input.adapterId os := by
  have hpairs := pairs_of_authored (c := c) hcontent
  have hkept : db.Settled c input.adapterId
      (allKept input (sweepResource c db input script).committed) := by
    rwa [Db.settled_iff_pairs, hpairs, ← Db.settled_iff_pairs]
  constructor
  · obtain ⟨crawlId, hrows⟩ := unstamped_sweep (c := c) hdb input script
    rw [hrows]
    exact Db.observeAll_still_iff.mpr hkept
  · intro o ho
    have hl : o.localId ∈ allObserved input (sweepResource c db input script).committed := by
      have hids := congrArg (List.map Prod.fst) hpairs
      simp only [List.map_map, Function.comp_def] at hids
      rw [allObserved, hids]
      exact List.mem_map_of_mem ho
    obtain ⟨crawlId, hsame⟩ := sweep_observed (c := c) (some MAX_PAGES) hdb input script
    have hreports : db.Settled c input.adapterId (reportsOf o.localId
        (allKept input (sweepResource c db input script).committed)) :=
      fun o' ho' => hkept o' (List.mem_filter.mp ho').1
    exact (hsame o.localId hl).repeats.trans (hreports.observeAll hsettled o ho)

end Sweeps

/-- Steps that keep bringing the same content: writes outside sweeps, and sweeps of one resource
whose adapter writes what it wrote before. -/
def BringsAgain (c : Crates) (before : List Action) (a r : String) (content : List ObservationWire)
    (later : List Action) : Prop :=
  ∀ mid input script rest, later = mid ++ .sweep input script :: rest →
    input.adapterId = a ∧ input.resourceId = r ∧
      (sweepResource c (run c (before ++ mid)) input script).content input = content

/-- **The run lemma**: settled content that is brought again and again changes nothing but
stamps. -/
lemma settled_run {c : Crates} {before later : List Action} {a r : String} {os : List Observation}
    (hlater : BringsAgain c before a r (os.map Observation.authored) later)
    (hsettled : (run c before).Settled c a os) :
    (run c (before ++ later)).unstamped = (run c before).unstamped ∧
      (run c (before ++ later)).Settled c a os := by
  induction later using List.reverseRecOn with
  | nil => exact ⟨by rw [List.append_nil], by rwa [List.append_nil]⟩
  | append_singleton later x ih =>
    obtain ⟨hrows, hstill⟩ := ih fun mid input script rest hmid =>
      hlater mid input script (rest ++ [x]) (by simp [hmid])
    rw [← List.append_assoc, run_concat, ← hrows]
    cases x with
    | write w =>
      obtain ⟨-, hobs, hret⟩ := w.apply_eq (run c (before ++ later))
      refine ⟨congrArg (List.map StoredObservation.unstamped) hobs, fun o ho => ?_⟩
      exact (Db.SameChain.of_eq hobs hret).repeats.trans (hstill o ho)
    | sweep input script =>
      obtain ⟨rfl, -, hcontent⟩ := hlater later input script [] rfl
      exact settled_sweep (consistent_run c _) hstill hcontent

/-- A record that no step reports keeps its chain. -/
lemma headRow_run_of_unobserved {c : Crates} {before between : List Action} {a l : String}
    (h : ∀ mid input script rest, between = mid ++ .sweep input script :: rest →
      input.adapterId = a →
        l ∉ allObserved input (sweepResource c (run c (before ++ mid)) input script).committed) :
    (run c (before ++ between)).headRow a l = (run c before).headRow a l := by
  induction between using List.reverseRecOn with
  | nil => rw [List.append_nil]
  | append_singleton between x ih =>
    rw [← List.append_assoc, run_concat, ← ih fun mid input script rest hmid =>
      h mid input script (rest ++ [x]) (by simp [hmid])]
    cases x with
    | write w => exact congrFun₂ (Db.headRow_congr (w.apply_eq _).2.1) a l
    | sweep input script =>
      obtain ⟨-, -, -, -, -, hframe⟩ :=
        sweep_retracted (some MAX_PAGES) c (consistent_run c (before ++ between)) input script
      have hrows := hframe a l (by
        by_cases ha : input.adapterId = a
        · exact Or.inr (h between input script [] rfl ha)
        · exact Or.inl fun heq => ha heq.symm)
      exact congrArg (latest StoredObservation.key) hrows

/-- **Refreshing unchanged content.** Let a sweep of a reachable database be followed by a second
sweep of the same resource that brings what the adapter wrote in the first, with no report of its
records and no retraction burying one of them in between. The second sweep leaves every stored row
as it was, but for stamps, exactly when the first settles each of its records; and then so do all
further sweeps of that content.

**Proof sketch.** No sweep in between reported one of the records, so the heads that the first sweep
left are still there when the second begins. The second sweep stamps everything, and leaves the
rows, exactly when its content is settled over these heads; and that is so exactly when the first
sweep settled each of its records (`Db.settled_iff_settles`). A settled content stays settled after
a sweep of it, which stamps rows only, so every further sweep leaves them too. -/
theorem refresh_idempotent (c : Crates) (actions between : List Action) (first second : SweepInput)
    (script₁ script₂ : Script) (hadapter : second.adapterId = first.adapterId)
    (hcontent : (sweepResource c (run c (actions ++ .sweep first script₁ :: between)) second
        script₂).content second =
      (sweepResource c (run c actions) first script₁).content first)
    (huntouched : ∀ l ∈ allObserved first (sweepResource c (run c actions) first script₁).committed,
      ∀ mid input script rest, between = mid ++ .sweep input script :: rest →
        input.adapterId = first.adapterId → l ∉ allObserved input
          (sweepResource c (run c (actions ++ [.sweep first script₁] ++ mid)) input
            script).committed)
    (hburied : ∀ l ∈ allObserved first (sweepResource c (run c actions) first script₁).committed,
      (run c (actions ++ .sweep first script₁ :: between)).buried first.adapterId l = false) :
    let kept := allKept first (sweepResource c (run c actions) first script₁).committed
    let earlier := actions ++ .sweep first script₁ :: between
    ((run c (earlier ++ [.sweep second script₂])).unstamped = (run c earlier).unstamped ↔
      ∀ l ∈ kept.map Observation.localId,
        Settles c ((run c actions).headRow first.adapterId l) (reportsOf l kept)) ∧
    ((run c (earlier ++ [.sweep second script₂])).unstamped = (run c earlier).unstamped →
      ∀ later, BringsAgain c (earlier ++ [.sweep second script₂]) first.adapterId
          first.resourceId (kept.map Observation.authored) later →
        (run c (earlier ++ [.sweep second script₂] ++ later)).unstamped =
          (run c earlier).unstamped) := by
  intro kept earlier
  have hfirst := consistent_run c actions
  obtain ⟨crawlId, hchain⟩ := sweep_observed (c := c) (some MAX_PAGES) hfirst first script₁
  -- the heads the first sweep left are still there
  have hhead : ∀ l ∈ kept.map Observation.localId, (run c earlier).headRow first.adapterId l =
      ((run c actions).observeAll c first crawlId kept).headRow first.adapterId l := by
    intro l hl
    have hsplit : earlier = actions ++ [.sweep first script₁] ++ between := by simp [earlier]
    rw [hsplit, headRow_run_of_unobserved (huntouched l hl), run_concat,
      ((Db.SameChain.refl (run c actions)).observeAll kept).headRow]
    exact (hchain l hl).headRow
  have hstill : (run c (earlier ++ [.sweep second script₂])).unstamped =
      (run c earlier).unstamped ↔ (run c earlier).Settled c first.adapterId
        (allKept second (sweepResource c (run c earlier) second script₂).committed) := by
    obtain ⟨crawlId', hrows⟩ := unstamped_sweep (c := c) (consistent_run c earlier) second script₂
    rw [run_concat, Action.apply, hrows, ← hadapter]
    exact Db.observeAll_still_iff
  have hsettles := Db.settled_iff_settles hhead hburied (pairs_of_authored hcontent)
  refine ⟨hstill.trans hsettles, fun hsame later hlater => ?_⟩
  have hsecond := hstill.mp hsame
  have hkept : (run c earlier).Settled c first.adapterId kept := by
    rwa [Db.settled_iff_pairs, ← pairs_of_authored hcontent, ← Db.settled_iff_pairs]
  have hafter : (run c (earlier ++ [.sweep second script₂])).Settled c first.adapterId kept := by
    rw [run_concat, ← hadapter] at *
    exact (settled_sweep (consistent_run c earlier) hkept hcontent).2
  exact (settled_run hlater hafter).1.trans hsame

/-- A sweep whose pages all commit has brought what its script holds. -/
lemma committed_of_length {c : Crates} {db : Db} (hdb : db.Consistent) {input : SweepInput}
    {script : Script} (h : (repliesOf script.events).length ≤
      (sweepResource c db input script).committed.length) :
    (sweepResource c db input script).committed = repliesOf script.events := by
  rcases sweep_outcome (some MAX_PAGES) c hdb input script with
    ⟨e, heq⟩ | ⟨k, db₁, events, -, hbegins, hends⟩
  · have hnone : (sweepResource c db input script).committed = [] :=
      congrArg SweepRun.committed heq
    rw [hnone] at h
    rw [hnone, List.eq_nil_of_length_eq_zero (Nat.le_zero.mp h)]
  · have hcommitted : (sweepResource c db input script).committed = repliesOf events :=
      hends.committed
    rw [hcommitted] at h ⊢
    exact (hbegins.filterMap _).eq_of_length_le h

/-- A payment that one page carries under two surfaces, under the second as described there. -/
def twoSurfaces (now : Rfc3339) (surface description : String) : Script :=
  Sample.script now [Sample.page "checking" none
    [Sample.record "checking" "x" "api" "rent" .active now,
      Sample.record "checking" "x" surface description .active now]]

/-- A profile in which the bank's checking account has been swept once. -/
def sweptOnce (surface description : String) : List Action :=
  [.write (.upsertAdapter "bank" []),
    .sweep (Sample.sweep "checking" "d1") (twoSurfaces Sample.day₁ surface description)]

/-- A sweep of that page which commits has kept the two reports. -/
lemma allKept_twoSurfaces (actions : List Action) (now : Rfc3339) (surface description : String)
    (h : (sweepResource Sample.crates (run Sample.crates actions) (Sample.sweep "checking" "d1")
      (twoSurfaces now surface description)).committed.length = 1) :
    allKept (Sample.sweep "checking" "d1") (sweepResource Sample.crates (run Sample.crates actions)
        (Sample.sweep "checking" "d1") (twoSurfaces now surface description)).committed =
      [Sample.record "checking" "x" "api" "rent" .active now,
        Sample.record "checking" "x" surface description .active now] := by
  have hlength : (repliesOf (twoSurfaces now surface description).events).length ≤
      (sweepResource Sample.crates (run Sample.crates actions) (Sample.sweep "checking" "d1")
        (twoSurfaces now surface description)).committed.length := h.ge
  rw [committed_of_length (consistent_run Sample.crates actions) hlength]
  rfl

/-- A payment reported twice in the same words is appended once.

**Proof sketch.** Both sweeps are run, and both keep the record twice, in the same words. Then
the theorem on refreshes applies with no sweep in between: the content is that of the first,
nothing is buried, there was no head before, and each of the two reports has the hash of the other,
so the first batch settled it. -/
theorem refresh_idempotent_same_words :
    (run Sample.crates (sweptOnce "api" "rent" ++ [.sweep (Sample.sweep "checking" "d1")
        (twoSurfaces Sample.day₂ "api" "rent")])).unstamped =
      (run Sample.crates (sweptOnce "api" "rent")).unstamped := by
  have hfirst : (sweepResource Sample.crates (run Sample.crates
      [.write (.upsertAdapter "bank" [])]) (Sample.sweep "checking" "d1")
        (twoSurfaces Sample.day₁ "api" "rent")).committed.length = 1 := by decide +kernel
  have hsecond : (sweepResource Sample.crates (run Sample.crates (sweptOnce "api" "rent"))
      (Sample.sweep "checking" "d1")
        (twoSurfaces Sample.day₂ "api" "rent")).committed.length = 1 := by decide +kernel
  have hkept := allKept_twoSurfaces _ Sample.day₁ "api" "rent" hfirst
  have hagain := allKept_twoSurfaces _ Sample.day₂ "api" "rent" hsecond
  have hcontent : (sweepResource Sample.crates (run Sample.crates (sweptOnce "api" "rent"))
      (Sample.sweep "checking" "d1") (twoSurfaces Sample.day₂ "api" "rent")).content
        (Sample.sweep "checking" "d1") =
      (sweepResource Sample.crates (run Sample.crates [.write (.upsertAdapter "bank" [])])
        (Sample.sweep "checking" "d1") (twoSurfaces Sample.day₁ "api" "rent")).content
          (Sample.sweep "checking" "d1") := by
    rw [SweepRun.content, SweepRun.content, hagain, hkept]
    rfl
  have hburied : (run Sample.crates (sweptOnce "api" "rent")).buried "bank" "x" = false := by
    decide +kernel
  have hnohead (l : String) : (run Sample.crates [.write (.upsertAdapter "bank" [])]).headRow
      (Sample.sweep "checking" "d1").adapterId l = none := rfl
  have hx : ∀ l ∈ allObserved (Sample.sweep "checking" "d1") (sweepResource Sample.crates
      (run Sample.crates [.write (.upsertAdapter "bank" [])]) (Sample.sweep "checking" "d1")
        (twoSurfaces Sample.day₁ "api" "rent")).committed, l = "x" := by
    rw [allObserved, hkept]
    simp [Sample.record]
  refine (refresh_idempotent Sample.crates [.write (.upsertAdapter "bank" [])] []
    (Sample.sweep "checking" "d1") (Sample.sweep "checking" "d1")
    (twoSurfaces Sample.day₁ "api" "rent") (twoSurfaces Sample.day₂ "api" "rent") rfl
    hcontent
    (fun l _ mid input script rest hmid => by simp at hmid)
    (fun l hl => hx l hl ▸ hburied)).1.mpr ?_
  intro l _
  rw [hnohead, hkept]
  refine ⟨contentHash Sample.crates (Sample.record "checking" "x" "api" "rent" .active
    Sample.day₁), fun o ho => ?_, by simp⟩
  have hmem := (List.mem_filter.mp ho).1
  simp only [List.mem_cons, List.not_mem_nil, or_false, or_self] at hmem
  rw [hmem]

/-- A payment that two surfaces of one page report differently grows by both on every refresh.

**Proof sketch.** The two sweeps are run, in which the page names the record twice with different
descriptions. Each report has another hash than the head that the other one left, so each appends
a row again, and the table has grown, while all the hypotheses of the statement hold at these
inputs. -/
theorem two_surfaces_grow :
    ¬ ∀ (c : Crates) (actions between : List Action) (first second : SweepInput)
        (script₁ script₂ : Script),
      second.adapterId = first.adapterId → second.resourceId = first.resourceId →
      (sweepResource c (run c (actions ++ .sweep first script₁ :: between)) second
          script₂).content second =
        (sweepResource c (run c actions) first script₁).content first →
      (∀ l ∈ allObserved first (sweepResource c (run c actions) first script₁).committed,
        ∀ mid input script rest, between = mid ++ .sweep input script :: rest →
          input.adapterId = first.adapterId → l ∉ allObserved input
            (sweepResource c (run c (actions ++ [.sweep first script₁] ++ mid)) input
              script).committed) →
      (∀ l ∈ allObserved first (sweepResource c (run c actions) first script₁).committed,
        (run c (actions ++ .sweep first script₁ :: between)).buried first.adapterId l = false) →
      (run c (actions ++ .sweep first script₁ :: between ++ [.sweep second script₂])).unstamped =
        (run c (actions ++ .sweep first script₁ :: between)).unstamped := by
  intro h
  have hfirst : (sweepResource Sample.crates (run Sample.crates
      [.write (.upsertAdapter "bank" [])]) (Sample.sweep "checking" "d1")
        (twoSurfaces Sample.day₁ "feed" "Rent, May")).committed.length = 1 := by decide +kernel
  have hsecond : (sweepResource Sample.crates (run Sample.crates (sweptOnce "feed" "Rent, May"))
      (Sample.sweep "checking" "d1")
        (twoSurfaces Sample.day₂ "feed" "Rent, May")).committed.length = 1 := by decide +kernel
  have hkept := allKept_twoSurfaces _ Sample.day₁ "feed" "Rent, May" hfirst
  have hagain := allKept_twoSurfaces _ Sample.day₂ "feed" "Rent, May" hsecond
  have hcontent : (sweepResource Sample.crates (run Sample.crates (sweptOnce "feed" "Rent, May"))
      (Sample.sweep "checking" "d1") (twoSurfaces Sample.day₂ "feed" "Rent, May")).content
        (Sample.sweep "checking" "d1") =
      (sweepResource Sample.crates (run Sample.crates [.write (.upsertAdapter "bank" [])])
        (Sample.sweep "checking" "d1") (twoSurfaces Sample.day₁ "feed" "Rent, May")).content
          (Sample.sweep "checking" "d1") := by
    rw [SweepRun.content, SweepRun.content, hagain, hkept]
    rfl
  have hburied : (run Sample.crates (sweptOnce "feed" "Rent, May")).buried "bank" "x" = false := by
    decide +kernel
  have hgrows : (run Sample.crates (sweptOnce "feed" "Rent, May" ++ [.sweep
        (Sample.sweep "checking" "d1") (twoSurfaces Sample.day₂ "feed" "Rent, May")])
          ).unstamped.length ≠
      (run Sample.crates (sweptOnce "feed" "Rent, May")).unstamped.length := by decide +kernel
  have hx : ∀ l ∈ allObserved (Sample.sweep "checking" "d1") (sweepResource Sample.crates
      (run Sample.crates [.write (.upsertAdapter "bank" [])]) (Sample.sweep "checking" "d1")
        (twoSurfaces Sample.day₁ "feed" "Rent, May")).committed, l = "x" := by
    decide +kernel
  exact hgrows (congrArg List.length (h Sample.crates [.write (.upsertAdapter "bank" [])] []
    (Sample.sweep "checking" "d1") (Sample.sweep "checking" "d1")
    (twoSurfaces Sample.day₁ "feed" "Rent, May") (twoSurfaces Sample.day₂ "feed" "Rent, May")
    rfl rfl
    hcontent
    (fun l _ mid input script rest hmid => by simp at hmid)
    (fun l hl => hx l hl ▸ hburied)))

end Sumer.Store
