import Sumer.Host.Connection

set_option relaxedAutoImplicit false
set_option autoImplicit false

/-!
# Permits

How many requests are in flight at once (`pump`, `Mux::raise_concurrency` in
`core/host/src/mux.rs`). The pump takes a permit before it issues an id and hands it to the reply
task, which drops it as it resolves the call.

## Main definitions

* `Sumer.Host.Conn.holders`: the calls that hold a permit.
* `Sumer.Host.ConnRun`: a run of a connection, with its steps.

## Main results

* `Sumer.Host.Step.permit`: what a step does to the permits.
* `Sumer.Host.inflight_bound`: the bound on pending ids, and the life of a permit.
-/

namespace Sumer.Host

open Sumer.Wire

/-- The call whose permit the pump holds. -/
def Pump.holder : Pump → Option ℕ
  | .permitted n | .cleared n => some n
  | .issued t | .cutShort t => some t.call
  | _ => none

/-- The calls that hold a permit, in the pump or in a reply task. -/
def Conn.holders (s : Conn) : Multiset ℕ :=
  s.pump.holder.toList + s.tasks.map Task.call + s.expired.map Task.call

/-- The permits that a step adds. -/
def ConnAction.raise : ConnAction → Option ℕ
  | .raiseConcurrency extra => some extra
  | _ => none

/-- A run of a connection. -/
inductive ConnRun : List ConnAction → Conn → Prop
  | new : ConnRun [] Conn.new
  | step {actions : List ConnAction} {s s' : Conn} {a : ConnAction} (h : ConnRun actions s)
      (hstep : Step s a s') : ConnRun (actions ++ [a]) s'

/-- All permits that a run has made. -/
def capacity (actions : List ConnAction) : ℕ := 1 + (actions.filterMap ConnAction.raise).sum

/-- The steps that end requests: those of the pump and of reply tasks, and deadlines. -/
def ConnAction.Unwinds : ConnAction → Prop
  | .look | .expireQueued | .write | .tombstoneCut | .receive _ | .expireTask _
  | .tombstoneTask _ => True
  | _ => False

section Permits

variable {s s' : Conn} {a : ConnAction}

/-- **What a step does to the permits**: it takes one for a call, or gives one back for a call
that it resolves, or adds some, or leaves them alone.

**Proof sketch.** A case for each step. The pump takes a permit when it acquires one, and the
requests that hold one are the pump's, the tasks and the expired tasks; a request is handed on among
these without its permit changing hands, and gives it back in the step that resolves its call. -/
lemma Step.permit (h : Step s a s') :
    (∃ n, a = .acquire ∧ s.pump = .alive n ∧ s.permits = s'.permits + 1 ∧
      s'.holders = n ::ₘ s.holders ∧ s'.results = s.results) ∨
    (∃ n result, s'.permits = s.permits + 1 ∧ s.holders = n ::ₘ s'.holders ∧
      s'.results = s.results ++ [(n, result)]) ∨
    s'.permits = s.permits + a.raise.getD 0 ∧ s'.holders = s.holders := by
  have herase {l : List Task} {t : Task} (h : t ∈ l) :
      (l.map Task.call : Multiset ℕ) = {t.call} + ↑((l.erase t).map Task.call) :=
    Multiset.coe_eq_coe.mpr ((List.perm_cons_erase h).map Task.call)
  have hadd (l l' : List ℕ) : ((l ++ l' : List ℕ) : Multiset ℕ) = l + l' := rfl
  have hone (n : ℕ) : (([n] : List ℕ) : Multiset ℕ) = {n} := rfl
  have hnil : (([] : List ℕ) : Multiset ℕ) = 0 := rfl
  unfold Conn.holders
  simp only [← Multiset.singleton_add]
  cases h with
  | acquire hpump hpos =>
    refine Or.inl ⟨_, rfl, hpump, (Nat.sub_add_cancel hpos).symm, ?_, rfl⟩
    simp only [hpump, Pump.holder, Option.toList_some, Option.toList_none, hone, hnil]
    abel
  | lookAgainEnded hpump | expireCleared hpump | idsExhausted hpump | unserializable hpump
  | tombstoneCut hpump =>
    refine Or.inr (Or.inl ⟨_, _, rfl, ?_, rfl⟩)
    simp only [Conn.resolve, Conn.release, Conn.table, hpump, Pump.holder, Option.toList_some,
      Option.toList_none, hone, hnil]
    abel
  | receive h | senderGone h =>
    refine Or.inr (Or.inl ⟨_, _, rfl, ?_, rfl⟩)
    simp only [Conn.resolve, Conn.release, herase h]
    abel
  | tombstoneTask h =>
    refine Or.inr (Or.inl ⟨_, _, rfl, ?_, rfl⟩)
    simp only [Conn.resolve, Conn.release, Conn.table, herase h]
    abel
  | expireTask h =>
    refine Or.inr (Or.inr ⟨rfl, ?_⟩)
    simp only [List.map_append, List.map_cons, List.map_nil, hadd, hone, herase h]
    abel
  | write hpump =>
    refine Or.inr (Or.inr ⟨rfl, ?_⟩)
    simp only [hpump, Pump.holder, Option.toList_some, Option.toList_none, List.map_append,
      List.map_cons, List.map_nil, hadd, hone, hnil]
    abel
  | take hpump | stop hpump | lookEnded hpump | lookAlive hpump | expireQueued hpump
  | lookAgainAlive hpump | issue hpump | cutShort hpump | finishCut hpump | leave hpump =>
    refine Or.inr (Or.inr ⟨rfl, ?_⟩)
    simp only [Conn.resolve, Conn.table, hpump, Pump.holder]
  | _ => exact Or.inr (Or.inr ⟨rfl, rfl⟩)

/-- Whatever a run of actions on a new connection leaves is sound. -/
lemma ConnRun.sound {actions : List ConnAction} (h : ConnRun actions s) : s.Sound := by
  induction h with
  | new => exact Conn.sound_new
  | step _ hstep ih => exact ih.step hstep

/-- One more action adds the permits that it raises the concurrency by, which is none for most. -/
lemma capacity_concat (actions : List ConnAction) (a : ConnAction) :
    capacity (actions ++ [a]) = capacity actions + a.raise.getD 0 := by
  rw [capacity, capacity, List.filterMap_append, List.sum_append]
  cases h : a.raise <;> simp [h, add_assoc]

/-- **No permit is lost and none invented**: those at hand and those held are all there are.

**Proof sketch.** Induction on the run. A step takes a permit and holds it, gives one back, or
raises both sides; the other steps leave the sum (`Step.permit`). -/
lemma ConnRun.permits {actions : List ConnAction} (h : ConnRun actions s) :
    s.permits + s.holders.card = capacity actions := by
  induction h with
  | new => rfl
  | @step actions s s' a _ hstep ih =>
    rw [capacity_concat]
    rcases hstep.permit with
      ⟨n, rfl, -, hpermits, hholders, -⟩ | ⟨n, result, hpermits, hholders, -⟩ |
      ⟨hpermits, hholders⟩
    · rw [hholders, Multiset.card_cons]
      simp only [ConnAction.raise, Option.getD_none]
      omega
    · rw [hholders, Multiset.card_cons] at ih
      have hnone : a.raise.getD 0 = 0 := by
        cases hstep with
        | raiseConcurrency extra =>
          have hsame := congrArg Multiset.card hholders
          simp only [Conn.holders, Multiset.card_cons] at hsame
          omega
        | _ => rfl
      omega
    · rw [hholders]
      omega

/-- A request stays held while its id is pending.

**Proof sketch.** The request is held by the pump, by a task or as an expired task. A step hands it
on from one of these to the next, or lets it go after its id is no longer pending: expiring
tombstones the id, and what a task receives had answered it. A reply that cannot be serialized is
the one exception, and is excluded. -/
lemma Step.holds_of_pending (h : Step s a s') (hs : s.Sound)
    (hserialize : ∀ message, a ≠ .unserializable message) {t : Task} (hholds : s.Holds t)
    (hbefore : s.mux.slots t.id = some .pending) (hafter : s'.mux.slots t.id = some .pending) :
    s'.Holds t := by
  rcases hholds with hpump | htask | hexpired
  · cases h with
    | unserializable => exact absurd rfl (hserialize _)
    | write hissued =>
      rw [hissued] at hpump
      obtain rfl := Option.some.inj hpump
      exact Or.inr (Or.inl (by simp))
    | cutShort hissued =>
      rw [hissued] at hpump
      exact Or.inl hpump
    | tombstoneCut hcut =>
      rw [hcut] at hpump
      obtain rfl := Option.some.inj hpump
      exact absurd hafter (Mux.slots_tombstone_ne _ _)
    | take hother | stop hother | lookEnded hother | lookAlive hother | expireQueued hother
    | acquire hother | lookAgainEnded hother | lookAgainAlive hother | expireCleared hother
    | issue hother | idsExhausted hother | finishCut hother | leave hother =>
      simp [hother, Pump.task] at hpump
    | _ => exact Or.inl hpump
  · cases h with
    | write => exact Or.inr (Or.inl (List.mem_append_left _ htask))
    | @receive t' delivery h hchannel =>
      rcases eq_or_ne t t' with rfl | hne
      · have hanswered := hs.carried t.id delivery (Or.inr hchannel)
        rw [hbefore] at hanswered
        simp at hanswered
      · exact Or.inr (Or.inl ((List.mem_erase_of_ne hne).mpr htask))
    | @senderGone t' h _ _ hslot =>
      rcases eq_or_ne t t' with rfl | hne
      · exact absurd hbefore hslot
      · exact Or.inr (Or.inl ((List.mem_erase_of_ne hne).mpr htask))
    | @expireTask t' h =>
      rcases eq_or_ne t t' with rfl | hne
      · exact Or.inr (Or.inr (by simp))
      · exact Or.inr (Or.inl ((List.mem_erase_of_ne hne).mpr htask))
    | _ => exact Or.inr (Or.inl htask)
  · cases h with
    | expireTask => exact Or.inr (Or.inr (List.mem_append_left _ hexpired))
    | @tombstoneTask t' h =>
      rcases eq_or_ne t t' with rfl | hne
      · exact absurd hafter (Mux.slots_tombstone_ne _ _)
      · exact Or.inr (Or.inr ((List.mem_erase_of_ne hne).mpr hexpired))
    | _ => exact Or.inr (Or.inr hexpired)

/-- **The step lemma for pending ids**: each is held by a request.

**Proof sketch.** An id that was pending before is held by whoever held it, or by whom it was handed
on to (`Step.holds_of_pending`). An id that is pending only now was issued by this step, and then
the pump has it. -/
lemma Step.pending_held (h : Step s a s') (hs : s.Sound)
    (hserialize : ∀ message, a ≠ .unserializable message)
    (hheld : ∀ id, s.mux.slots id = some .pending → ∃ n, s.Holds ⟨n, id⟩) (id : ℕ)
    (hid : s'.mux.slots id = some .pending) : ∃ n, s'.Holds ⟨n, id⟩ := by
  by_cases hbefore : s.mux.slots id = some .pending
  · obtain ⟨n, hholds⟩ := hheld id hbefore
    exact ⟨n, h.holds_of_pending hs hserialize hholds hbefore hid⟩
  rcases h.table with ⟨op, hop, hmux, -, -⟩ | ⟨hmux, -⟩
  · by_cases hissue : op = .issue
    · obtain rfl := hop hissue
      -- the id that is pending now is the one just issued
      have hslots : (s.mux.apply .issue).slots id = some .pending →
          s.mux.issue.2 = some id := by
        rw [Mux.apply, Mux.issue]
        cases checkedSucc s.mux.nextId with
        | none => exact fun h => absurd h hbefore
        | some next =>
          intro h
          rcases eq_or_ne id s.mux.nextId with rfl | hne
          · rfl
          · exact absurd (by simpa [Function.update_of_ne hne] using h) hbefore
      cases h with
      | @issue n id' hpump h =>
        obtain rfl := Option.some.inj (h.symm.trans (hslots hid))
        exact ⟨n, Or.inl rfl⟩
      | idsExhausted hpump h =>
        exact absurd (h.symm.trans (hslots hid)) (Option.some_ne_none id).symm
    · rw [hmux] at hid
      exact absurd hid (Mux.not_pending_apply hs.slots hissue hbefore)
  · exact absurd (hmux ▸ hid) hbefore

/-- The run lemma: while every request can be serialized, a pending id is always held by the request
it was issued for, in the pump, as a task or expired. -/
lemma ConnRun.pending_held {actions : List ConnAction} (h : ConnRun actions s)
    (hserializes : ∀ message, .unserializable message ∉ actions) (id : ℕ)
    (hid : s.mux.slots id = some .pending) : ∃ n, s.Holds ⟨n, id⟩ := by
  induction h generalizing id with
  | new => simp [Conn.new, Mux.new] at hid
  | @step actions s s' a hrun hstep ih =>
    refine hstep.pending_held hrun.sound (fun message heq => hserializes message (by simp [heq]))
      (ih fun message hmem => hserializes message (List.mem_append_left _ hmem)) id hid

/-- No more ids are pending than calls hold a permit. -/
lemma Conn.length_pending_le (hheld : ∀ id, s.mux.slots id = some .pending → ∃ n, s.Holds ⟨n, id⟩) :
    s.mux.pending.length ≤ s.holders.card := by
  have hsub : s.mux.pending ⊆ (s.pump.task.toList ++ s.tasks ++ s.expired).map Task.id := by
    intro id hid
    obtain ⟨n, hpump | htask | hexpired⟩ := hheld id (Mux.mem_pending.mp hid).2
    · exact List.mem_map.mpr ⟨⟨n, id⟩, by simp [hpump], rfl⟩
    · exact List.mem_map.mpr ⟨⟨n, id⟩, by simp [htask], rfl⟩
    · exact List.mem_map.mpr ⟨⟨n, id⟩, by simp [hexpired], rfl⟩
  have hnodup : s.mux.pending.Nodup := List.nodup_range.filter _
  have hle := (hnodup.subperm hsub).length_le
  have hpump : s.pump.task.toList.length ≤ s.pump.holder.toList.length := by
    cases s.pump <;> simp [Pump.task, Pump.holder]
  simp only [List.length_map, List.length_append] at hle
  simp only [Conn.holders, Multiset.card_add, Multiset.coe_card, List.length_map]
  omega

/-- A call holds at most one permit, and none once it is resolved. -/
lemma Conn.Sound.nodup_holders (hs : s.Sound) :
    (s.holders + (s.results.map Prod.fst : Multiset ℕ)).Nodup := by
  obtain ⟨rest, hrest⟩ : ∃ rest : Multiset ℕ,
      (s.pump.call.toList : Multiset ℕ) = s.pump.holder.toList + rest := by
    cases s.pump with
    | permitted | cleared | issued | cutShort => exact ⟨0, (add_zero _).symm⟩
    | _ => exact ⟨_, (zero_add _).symm⟩
  have hcalls : s.calls = (s.holders + (s.results.map Prod.fst : Multiset ℕ)) +
      (s.entering + s.queue + s.dropped + rest) := by
    rw [Conn.calls, hrest, Conn.holders]
    abel
  have hnodup : s.calls.Nodup := hs.calls ▸ Multiset.nodup_range _
  exact Multiset.nodup_of_le (Multiset.le_add_right _ _) (hcalls ▸ hnodup)

/-- Before it takes a permit a call holds none. -/
lemma Conn.Sound.fresh (hs : s.Sound) {n : ℕ} (hpump : s.pump = .alive n) :
    n ∉ s.holders ∧ n ∉ s.results.map Prod.fst := by
  have hcalls : s.calls = (n ::ₘ (s.holders + (s.results.map Prod.fst : Multiset ℕ))) +
      (s.entering + s.queue + s.dropped : Multiset ℕ) := by
    rw [Conn.calls, Conn.holders, hpump, ← Multiset.singleton_add]
    simp only [Pump.call, Pump.holder, Option.toList_some, Option.toList_none,
      Multiset.coe_singleton, Multiset.coe_nil]
    abel
  have hnodup : s.calls.Nodup := hs.calls ▸ Multiset.nodup_range _
  have hcons := Multiset.nodup_of_le (Multiset.le_add_right _ _) (hcalls ▸ hnodup)
  simpa [not_or] using (Multiset.nodup_cons.mp hcons).1

/-- What is left to do until no permit is held. -/
def Conn.toUnwind (s : Conn) : ℕ :=
  (match s.pump with
    | .permitted _ => 5
    | .cleared _ => 4
    | .issued _ => 3
    | .cutShort _ => 1
    | _ => 0) + 2 * s.tasks.length + s.expired.length

/-- A request that holds a permit can always go on.

**Proof sketch.** The request is a task, an expired task or the pump's. A task receives what its
channel has, or expires; an expired one tombstones its id; the pump goes on with the request it
holds. Each of these steps brings it closer to giving its permit back. -/
lemma Conn.exists_unwinds (hholds : s.holders ≠ 0) :
    ∃ a s', a.Unwinds ∧ Step s a s' ∧ s'.toUnwind < s.toUnwind := by
  cases htasks : s.tasks with
  | cons t rest =>
    have ht : t ∈ s.tasks := by simp [htasks]
    have hlength : (s.tasks.erase t).length + 1 = s.tasks.length := by simp [htasks]
    cases hchannel : s.channel t.id with
    | some delivery =>
      refine ⟨.receive t, _, trivial, .receive ht hchannel, ?_⟩
      simp only [toUnwind, Conn.release, Conn.resolve]
      omega
    | none =>
      refine ⟨.expireTask t, _, trivial, .expireTask ht hchannel, ?_⟩
      simp only [toUnwind, List.length_append, List.length_singleton]
      omega
  | nil =>
    cases hexpired : s.expired with
    | cons t rest =>
      have ht : t ∈ s.expired := by simp [hexpired]
      have hlength : (s.expired.erase t).length + 1 = s.expired.length := by simp [hexpired]
      refine ⟨.tombstoneTask t, _, trivial, .tombstoneTask ht, ?_⟩
      simp only [toUnwind, Conn.release, Conn.resolve, Conn.table]
      omega
    | nil =>
      cases hpump : s.pump with
      | permitted n =>
        cases hterm : s.mux.terminal with
        | none =>
          exact ⟨.look, _, trivial, .lookAgainAlive hpump hterm, by simp [toUnwind, hpump]⟩
        | some t =>
          exact ⟨.look, _, trivial, .lookAgainEnded hpump hterm,
            by simp [toUnwind, hpump, Conn.release, Conn.resolve]⟩
      | cleared n =>
        exact ⟨.expireQueued, _, trivial, .expireCleared hpump,
          by simp [toUnwind, hpump, Conn.release, Conn.resolve]⟩
      | issued t =>
        refine ⟨.write, _, trivial, .write hpump, ?_⟩
        simp only [toUnwind, hpump, List.length_append, List.length_singleton]
        omega
      | cutShort t =>
        exact ⟨.tombstoneCut, _, trivial, .tombstoneCut hpump,
          by simp [toUnwind, hpump, Conn.release, Conn.resolve, Conn.table]⟩
      | _ => exact absurd (by simp [holders, htasks, hexpired, hpump, Pump.holder]) hholds

/-- **Permits are given back**: the connection's own steps and deadlines end every request. -/
lemma Conn.exists_unwound (s : Conn) :
    ∃ s', Reaches (fun _ a => a.Unwinds) s s' ∧ s'.holders = 0 := by
  induction hn : s.toUnwind using Nat.strong_induction_on generalizing s with
  | _ n ih =>
    by_cases hholds : s.holders = 0
    · exact ⟨s, .refl, hholds⟩
    · obtain ⟨a, s', ha, hstep, hlt⟩ := s.exists_unwinds hholds
      obtain ⟨s'', hreach, hnone⟩ := ih _ (hn ▸ hlt) s' rfl
      exact ⟨s'', .head ⟨a, hstep, ha⟩ hreach, hnone⟩

/-- Unwinding makes no permits: those that are free and those that are held stay the same in sum,
however far it goes. -/
lemma Reaches.permits_of_unwinds (h : Reaches (fun _ a => a.Unwinds) s s') :
    s'.permits + s'.holders.card = s.permits + s.holders.card := by
  induction h with
  | refl => rfl
  | @tail s₁ s₂ _ hstep ih =>
    obtain ⟨a, hstep, ha⟩ := hstep
    rw [← ih]
    have hnone : a.raise.getD 0 = 0 := by
      cases a <;> first | rfl | exact ha.elim
    rcases hstep.permit with ⟨n, -, -, hpermits, hholders, -⟩ |
      ⟨n, result, hpermits, hholders, -⟩ | ⟨hpermits, hholders⟩
    · rw [hholders, Multiset.card_cons]
      omega
    · rw [hholders, Multiset.card_cons]
      omega
    · rw [hholders]
      omega

end Permits

/-- The concurrency is raised at most once, from the `max_in_flight` that the adapter declared:
the steps of such a run raise nothing yet, or what is missing to that many permits. -/
def RaisesOnce (maxInFlight : ℕ) (actions : List ConnAction) : Prop :=
  actions.filterMap ConnAction.raise = [] ∨
    actions.filterMap ConnAction.raise = [max maxInFlight 1 - 1]

/-- How many requests may be in flight. -/
def window (maxInFlight : ℕ) (actions : List ConnAction) : ℕ :=
  if actions.filterMap ConnAction.raise = [] then 1 else max 1 maxInFlight

/-- **The bound on what is in flight.** In every state of every run, with the concurrency raised
at most once, no more ids are pending than may be. The permits at hand and those held are as many,
and no call holds two. A step takes one permit, for a call that never had one; or gives one back,
as it resolves the call that holds it; or leaves the permits alone, but for the raise. And from
every state the connection's own steps and deadlines give all of them back.

**Proof sketch.** The permits at hand and those held make up the window (`ConnRun.permits`), and
each pending id is held by a call with a permit, so there are no more of them than that. That no
call holds two, or holds one once resolved, is part of soundness. Each step takes, gives back or
leaves the permits (`Step.permit`), and unwinding, which makes none, ends with none held
(`exists_unwound`). -/
theorem inflight_bound (maxInFlight : ℕ) (actions : List ConnAction) (s : Conn)
    (hrun : ConnRun actions s) (hraise : RaisesOnce maxInFlight actions)
    (hserializes : ∀ message, .unserializable message ∉ actions) :
    s.mux.pending.length ≤ window maxInFlight actions ∧
    s.permits + s.holders.card = window maxInFlight actions ∧
    s.holders.Nodup ∧ (∀ n ∈ s.holders, n ∉ s.results.map Prod.fst) ∧
    (∀ a s', Step s a s' →
      (∃ n, n ∉ s.holders ∧ n ∉ s.results.map Prod.fst ∧ s.permits = s'.permits + 1 ∧
        s'.holders = n ::ₘ s.holders) ∨
      (∃ n result, s'.permits = s.permits + 1 ∧ s.holders = n ::ₘ s'.holders ∧
        s'.results = s.results ++ [(n, result)]) ∨
      s'.permits = s.permits + a.raise.getD 0 ∧ s'.holders = s.holders) ∧
    ∃ s', Reaches (fun _ a => a.Unwinds) s s' ∧ s'.holders = 0 ∧
      s'.permits = window maxInFlight actions := by
  have hcapacity : capacity actions = window maxInFlight actions := by
    rw [capacity, window]
    rcases hraise with hnone | honce
    · simp [hnone]
    · simp only [honce, List.sum_singleton, List.cons_ne_nil, if_false]
      omega
  have hpermits := hrun.permits
  have hpending := Conn.length_pending_le (hrun.pending_held hserializes)
  have hnodup := Multiset.nodup_add.mp hrun.sound.nodup_holders
  obtain ⟨s', hreach, hnone⟩ := s.exists_unwound
  have hunwound := hreach.permits_of_unwinds
  rw [hnone, Multiset.card_zero] at hunwound
  refine ⟨by omega, by omega, hnodup.1, fun n hn hresolved => ?_, fun a s' hstep => ?_,
    s', hreach, hnone, by omega⟩
  · exact Multiset.disjoint_left.mp hnodup.2.2 hn hresolved
  · rcases hstep.permit with ⟨n, -, hpump, htaken, hholders, -⟩ | hrest
    · obtain ⟨hfresh, hunresolved⟩ := hrun.sound.fresh hpump
      exact Or.inl ⟨n, hfresh, hunresolved, htaken, hholders⟩
    · exact Or.inr hrest

/-- The steps by which a first call gets its id. -/
def firstSteps : List ConnAction := [.call, .enqueue 0, .take, .look, .acquire, .look, .issue]

/-- A connection whose first call has its id. -/
def firstIssued : Conn := { looked.table .issue with pump := .issued ⟨0, 0⟩ }

/-- That state is reached by those steps. -/
lemma connRun_firstIssued : ConnRun firstSteps firstIssued := by
  have hcall : ConnRun [.call] { Conn.new with nextCall := 1, entering := [0] } :=
    .step .new (.callEnters rfl)
  have henqueue : ConnRun [.call, .enqueue 0] { Conn.new with nextCall := 1, queue := [0] } :=
    .step hcall (.enqueue (by decide) nofun (by decide))
  have htake : ConnRun [.call, .enqueue 0, .take]
      { Conn.new with nextCall := 1, pump := .taken 0 } := .step henqueue (.take rfl rfl)
  have hlook : ConnRun [.call, .enqueue 0, .take, .look]
      { Conn.new with nextCall := 1, pump := .alive 0 } := .step htake (.lookAlive rfl rfl)
  have hacquire : ConnRun [.call, .enqueue 0, .take, .look, .acquire]
      { Conn.new with permits := 0, nextCall := 1, pump := .permitted 0 } :=
    .step hlook (.acquire rfl (by decide))
  have hagain : ConnRun [.call, .enqueue 0, .take, .look, .acquire, .look] looked :=
    .step hacquire (.lookAgainAlive rfl rfl)
  exact .step hagain (.issue rfl rfl)

/-- While the first id is pending nothing else may be, whatever the adapter will declare. -/
theorem inflight_bound_first :
    firstIssued.mux.pending = [0] ∧ firstIssued.mux.pending.length ≤ 1 ∧
      firstIssued.permits + firstIssued.holders.card = 1 := by
  have hbound := inflight_bound 3 firstSteps firstIssued connRun_firstIssued (Or.inl rfl)
    (by intro message hmem; simp [firstSteps] at hmem)
  exact ⟨by decide, hbound.1, hbound.2.1⟩

end Sumer.Host
