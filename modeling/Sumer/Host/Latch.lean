import Sumer.Host.Mux
import Sumer.Lib.Mutex

set_option relaxedAutoImplicit false
set_option autoImplicit false

/-!
# The publication latch

The verdict of a connection and its terminal reason have a lock each (`core/host/src/mux.rs`), and
`Mux::finish` with a violation holds both. Here every call goes through its own acquisitions,
writes and releases, interleaved with those of all other calls in any order.

## Main definitions

* `Sumer.Host.Latch`: the two locks, what they guard, and where every call is.
* `Sumer.Host.LatchStep`: the steps of one call.

## Main results

* `Sumer.Host.Latch.Sound`: what holds after every interleaving, among it that what the locks guard
  is the id table after the operations that took effect so far, with what the owner of the lock has
  already written of its own.
* `Sumer.Host.verdict_terminal_consistent`: the verdict and the terminal reason stay consistent.
-/

namespace Sumer.Host

open Function Sumer.Wire

/-- A call that takes a lock of the connection. -/
inductive LatchCall where
  | op (op : MuxOp)
  | terminal
  /-- `violation`, and `with_violation_held`, whose `f` runs before the lock is released. -/
  | violation

/-- What a call returns. -/
inductive LatchResult where
  | returned
  | finished (won : Bool)
  | terminal (reason : Option Terminal)
  | violation (kind : Option ProtocolViolationKind)
deriving DecidableEq

/-- Where a call is in its code. -/
inductive LatchPc where
  | start
  | verdictHeld
  | innerHeld
  /-- A finish has written the terminal reason. -/
  | latched
  /-- A finish has published what it publishes. -/
  | published
  /-- The result stands, and what is to be sent once `inner` is released. -/
  | leaving (result : LatchResult) (sends : Sends)
  /-- `inner` is not held, and the verdict still is by those who took it. -/
  | sending (result : LatchResult) (sends : Sends)
  | done (result : LatchResult)
deriving DecidableEq

/-- The calls that take the verdict: **of the finishes only those that publish**. -/
def LatchCall.takesVerdict : LatchCall → Bool
  | .op (.finish reason) => reason.published.isSome
  | .op (.recordViolation _) | .violation => true
  | _ => false

/-- The calls that take `inner`. -/
def LatchCall.takesInner : LatchCall → Bool
  | .op (.recordViolation _) | .violation => false
  | _ => true

/-- Where a call takes `inner`: the verdict first, and never the other way round. -/
def LatchCall.beforeInner (c : LatchCall) : LatchPc :=
  if c.takesVerdict then .verdictHeld else .start

/-- A call holds the verdict. -/
def LatchCall.HoldsVerdict (c : LatchCall) : LatchPc → Prop
  | .start | .done _ => False
  | _ => c.takesVerdict = true

/-- A call holds `inner`. -/
def LatchPc.HoldsInner : LatchPc → Prop
  | .innerHeld | .latched | .published | .leaving _ _ => True
  | _ => False

/-- A finish has written, and has not taken effect yet. -/
def LatchPc.writes : LatchPc → Bool
  | .latched | .published => true
  | _ => false

/-- The operations that move slots only. -/
def MuxOp.OnSlots : MuxOp → Prop
  | .finish _ | .recordViolation _ => False
  | _ => True

/-- The reason of a finish. -/
def MuxOp.reason : MuxOp → Option Terminal
  | .finish reason => some reason
  | _ => none

/-- The operation that a call is, if it is one. -/
def LatchCall.toOp : LatchCall → Option MuxOp
  | .op o => some o
  | _ => none

/-- The reason of a call that is a finish. -/
def LatchCall.reason (c : LatchCall) : Option Terminal := c.toOp.bind MuxOp.reason

/-- The result of a call, once it stands. -/
def LatchPc.result : LatchPc → Option LatchResult
  | .leaving result _ | .sending result _ | .done result => some result
  | _ => none

/-- What a call still has to send. -/
def LatchPc.sends : LatchPc → Sends
  | .leaving _ sends | .sending _ sends => sends
  | _ => []

/-- The connection between two steps: what the locks guard, who holds them, where every call is,
and what was sent so far. -/
structure Latch where
  mux : Mux
  verdictLock : Option ℕ
  innerLock : Option ℕ
  pc : ℕ → LatchPc
  sent : Sends
  /-- The finishes, in the order in which they took `inner`. -/
  entered : List ℕ
  /-- The calls that are operations, in the order in which they took effect. -/
  log : List ℕ

/-- A new connection: every call is still to come. -/
def Latch.new : Latch := ⟨Mux.new, none, none, fun _ => .start, [], [], []⟩

/-- A call moves on. -/
def Latch.at (s : Latch) (i : ℕ) (pc : LatchPc) : Latch := { s with pc := update s.pc i pc }

/-- The steps of a call, numbered by the calls of the connection. -/
inductive LatchStep (calls : ℕ → LatchCall) (i : ℕ) : Latch → Latch → Prop
  | lockVerdict {s : Latch} (hpc : s.pc i = .start) (h : (calls i).takesVerdict = true)
      (hfree : s.verdictLock = none) :
      LatchStep calls i s { s.at i .verdictHeld with verdictLock := some i }
  | lockInner {s : Latch} (hpc : s.pc i = (calls i).beforeInner)
      (h : (calls i).takesInner = true) (hfree : s.innerLock = none) :
      LatchStep calls i s { s.at i .innerHeld with
        innerLock := some i
        entered := s.entered ++ if (calls i).reason.isSome then [i] else [] }
  -- finish
  | lose {s : Latch} {reason t : Terminal} (hcall : calls i = .op (.finish reason))
      (hpc : s.pc i = .innerHeld) (hterm : s.mux.terminal = some t) :
      LatchStep calls i s { s.at i (.leaving (.finished false) []) with
        log := s.log ++ [i] }
  | latch {s : Latch} {reason : Terminal} (hcall : calls i = .op (.finish reason))
      (hpc : s.pc i = .innerHeld) (hterm : s.mux.terminal = none) :
      LatchStep calls i s { s.at i .latched with
        mux := { s.mux with terminal := some reason } }
  | publish {s : Latch} {reason : Terminal} (hcall : calls i = .op (.finish reason))
      (hpc : s.pc i = .latched) :
      LatchStep calls i s { s.at i .published with
        mux := { s.mux with verdict := s.mux.verdict.or reason.published } }
  | drain {s : Latch} {reason : Terminal} (hcall : calls i = .op (.finish reason))
      (hpc : s.pc i = .published) :
      LatchStep calls i s { s.at i (.leaving (.finished true)
          (s.mux.pending.map fun id => (id, reason.delivery))) with
        mux := { s.mux with slots := fun id => (s.mux.slots id).map Slot.drained }
        log := s.log ++ [i] }
  -- issue, tombstone, deliver
  | table {s : Latch} {op : MuxOp} (hcall : calls i = .op op) (hop : op.OnSlots)
      (hpc : s.pc i = .innerHeld) :
      LatchStep calls i s { s.at i (.leaving .returned (s.mux.sends op)) with
        mux := s.mux.apply op
        log := s.log ++ [i] }
  -- record_violation, and the readers
  | record {s : Latch} {kind : ProtocolViolationKind}
      (hcall : calls i = .op (.recordViolation kind)) (hpc : s.pc i = .verdictHeld) :
      LatchStep calls i s { s.at i (.sending .returned []) with
        mux := s.mux.recordViolation kind
        log := s.log ++ [i] }
  | readTerminal {s : Latch} (hcall : calls i = .terminal) (hpc : s.pc i = .innerHeld) :
      LatchStep calls i s (s.at i (.leaving (.terminal s.mux.terminal) []))
  | readVerdict {s : Latch} (hcall : calls i = .violation) (hpc : s.pc i = .verdictHeld) :
      LatchStep calls i s (s.at i (.sending (.violation s.mux.verdict) []))
  -- what every call ends with
  | unlockInner {s : Latch} {result : LatchResult} {sends : Sends}
      (hpc : s.pc i = .leaving result sends) :
      LatchStep calls i s { s.at i (.sending result sends) with innerLock := none }
  | send {s : Latch} {result : LatchResult} {x : ℕ × Delivery} {sends : Sends}
      (hpc : s.pc i = .sending result (x :: sends)) :
      LatchStep calls i s { s.at i (.sending result sends) with sent := s.sent ++ [x] }
  | unlockVerdict {s : Latch} {result : LatchResult} (hpc : s.pc i = .sending result []) :
      LatchStep calls i s { s.at i (.done result) with
        verdictLock := if (calls i).takesVerdict then none else s.verdictLock }

/-- The interleavings: any call takes its next step. -/
def LatchRuns (calls : ℕ → LatchCall) : Latch → Latch → Prop :=
  Relation.ReflTransGen fun s s' => ∃ i, LatchStep calls i s s'

/-! ### The table under atomic operations -/

section Operations

variable {m : Mux} {op : MuxOp}

/-- An operation on slots leaves the verdict and the terminal reason. -/
lemma MuxOp.OnSlots.apply (h : op.OnSlots) :
    (m.apply op).verdict = m.verdict ∧ (m.apply op).terminal = m.terminal := by
  cases op with
  | issue =>
    rw [Mux.apply, Mux.issue]
    cases checkedSucc m.nextId <;> exact ⟨rfl, rfl⟩
  | tombstone id =>
    rw [Mux.apply, Mux.tombstone]
    split_ifs <;> exact ⟨rfl, rfl⟩
  | deliver id frame receivedAt =>
    rw [Mux.apply]
    by_cases h : id < m.nextId ∧ m.slots id = some .pending
    · rw [Mux.deliver_of_pending h.1 h.2]
      exact ⟨rfl, rfl⟩
    · rw [(Mux.deliver_of_not_pending h frame receivedAt).1]
      exact ⟨rfl, rfl⟩
  | finish reason => exact h.elim
  | recordViolation kind => exact h.elim

/-- A connection that has ended keeps the reason it ended for: a later one is not recorded. -/
lemma Mux.finish_of_some {t : Terminal} (h : m.terminal = some t) (reason : Terminal) :
    m.apply (.finish reason) = m := by
  simp [Mux.apply, Mux.finish, h]

/-- A connection that ends for the first time records the reason and drains every slot that is still
open. -/
lemma Mux.finish_of_none (h : m.terminal = none) (reason : Terminal) :
    m.apply (.finish reason) =
      { m with
        slots := fun id => (m.slots id).map Slot.drained
        terminal := some reason
        verdict := m.verdict.or reason.published } := by
  simp [Mux.apply, Mux.finish, h]

/-- What holds of the verdict and the terminal reason after any sequence of operations: the reason
is that of the first finish, a violation among the reasons is published, and what is published was
recorded or is the reason. -/
structure Mux.Consistent (m : Mux) (ops : List MuxOp) : Prop where
  first : m.terminal = (ops.filterMap MuxOp.reason).head?
  published : ∀ kind, m.terminal = some (.violation kind) → m.verdict ≠ none
  publishers : ∀ kind, m.verdict = some kind →
    .recordViolation kind ∈ ops ∨ m.terminal = some (.violation kind)

/-- An operation keeps them so.

**Proof sketch.** Issuing, expiring and replying neither end the connection nor record a violation.
A finish after the first one changes nothing; the first one latches its reason, and publishes the
violation that it carries. A violation that is recorded is the published one, unless there is one
already. -/
lemma Mux.Consistent.apply {ops : List MuxOp} (h : m.Consistent ops) (op : MuxOp) :
    (m.apply op).Consistent (ops ++ [op]) := by
  have hslots (hop : op.OnSlots) : (m.apply op).Consistent (ops ++ [op]) := by
    have hnone : op.reason = none := by cases op <;> first | rfl | exact hop.elim
    obtain ⟨hverdict, hterminal⟩ := @MuxOp.OnSlots.apply m op hop
    refine ⟨?_, fun kind => ?_, fun kind => ?_⟩
    · rw [hterminal, List.filterMap_append, List.filterMap_cons_none hnone, List.filterMap_nil,
        List.append_nil, h.first]
    · rw [hterminal, hverdict]
      exact h.published kind
    · rw [hterminal, hverdict]
      intro hkind
      exact (h.publishers kind hkind).imp_left fun hmem => List.mem_append_left _ hmem
  cases op with
  | issue => exact hslots trivial
  | tombstone id => exact hslots trivial
  | deliver id frame receivedAt => exact hslots trivial
  | finish reason =>
    cases hterm : m.terminal with
    | some t =>
      rw [Mux.finish_of_some hterm]
      refine ⟨?_, h.published, fun kind hkind => ?_⟩
      · rw [List.filterMap_append, List.head?_append, ← h.first, hterm]
        rfl
      · exact (h.publishers kind hkind).imp_left fun hmem => List.mem_append_left _ hmem
    | none =>
      rw [Mux.finish_of_none hterm]
      refine ⟨?_, fun kind heq => ?_, fun kind hkind => ?_⟩
      · rw [List.filterMap_append, List.head?_append, ← h.first, hterm]
        rfl
      · obtain rfl : reason = .violation kind := Option.some.inj heq
        cases m.verdict <;> simp [Terminal.published]
      · rcases Option.or_eq_some_iff.mp hkind with hthere | ⟨-, hpublished⟩
        · rcases h.publishers kind hthere with hmem | heq
          · exact Or.inl (List.mem_append_left _ hmem)
          · rw [hterm] at heq
            exact absurd heq nofun
        · right
          cases reason with
          | crashed status => exact absurd hpublished nofun
          | violation kind' =>
            obtain rfl : kind' = kind := Option.some.inj hpublished
            rfl
  | recordViolation kind =>
    refine ⟨?_, fun kind' heq => ?_, fun kind' hkind => ?_⟩
    · show m.terminal = _
      rw [List.filterMap_append, h.first]
      exact (List.append_nil _).symm ▸ rfl
    · cases hverdict : m.verdict <;> simp [Mux.apply, Mux.recordViolation, hverdict]
    · rcases Option.or_eq_some_iff.mp hkind with hthere | ⟨-, hnew⟩
      · exact (h.publishers kind' hthere).imp_left fun hmem => List.mem_append_left _ hmem
      · obtain rfl : kind = kind' := Option.some.inj hnew
        exact Or.inl (List.mem_append_right _ (List.mem_singleton_self _))

/-- **The run lemma**: after any operations in a row, the reason and the verdict come from these
operations. -/
lemma consistent_muxRun (ops : List MuxOp) : (muxRun ops).mux.Consistent ops := by
  induction ops using List.reverseRecOn with
  | nil => exact ⟨rfl, nofun, nofun⟩
  | append_singleton ops op ih =>
    rw [muxRun_concat]
    exact ih.apply op

end Operations

/-! ### Every interleaving -/

section Interleaving

variable {calls : ℕ → LatchCall} {s s' : Latch} {i : ℕ}

/-- The table after the operations that took effect so far. -/
def Latch.settled (calls : ℕ → LatchCall) (s : Latch) : Mux :=
  (muxRun (s.log.filterMap fun i => (calls i).toOp)).mux

/-- What the owner of `inner` has written of a finish that has not taken effect yet. -/
def LatchCall.written (c : LatchCall) (pc : LatchPc) (m : Mux) : Mux :=
  match c, pc with
  | .op (.finish reason), .latched => { m with terminal := some reason }
  | .op (.finish reason), .published =>
    { m with terminal := some reason, verdict := m.verdict.or reason.published }
  | _, _ => m

/-- The owner of `inner`, as long as it is a finish that has not taken effect. -/
def LatchCall.entering (c : LatchCall) (pc : LatchPc) (i : ℕ) : List ℕ :=
  if c.reason.isSome ∧ pc.result = none then [i] else []

/-- **What holds after every interleaving.** -/
structure Latch.Sound (calls : ℕ → LatchCall) (s : Latch) : Prop where
  verdictHeld : Mutex.Held (fun i => (calls i).HoldsVerdict) s.pc s.verdictLock
  innerHeld : Mutex.Held (fun _ => LatchPc.HoldsInner) s.pc s.innerLock
  /-- Only a finish that found no terminal reason writes one. -/
  writer : ∀ i, (s.pc i).writes = true →
    ∃ reason, calls i = .op (.finish reason) ∧ (s.settled calls).terminal = none
  mux : s.mux = s.innerLock.elim (s.settled calls) fun i =>
    (calls i).written (s.pc i) (s.settled calls)
  entered : s.entered = (s.log.filter fun i => (calls i).reason.isSome) ++
    s.innerLock.elim [] fun i => (calls i).entering (s.pc i) i
  /-- What took effect has its result. -/
  logged : ∀ i, i ∈ s.log → ∃ result, (s.pc i).result = some result
  /-- The first finish wins, and no other; one that lost has nothing to send. -/
  finished : ∀ i won, (s.pc i).result = some (.finished won) →
    i ∈ s.entered ∧ (won = true ↔ s.entered.head? = some i) ∧ (won = false → (s.pc i).sends = [])
  told : ∀ i kind, (s.pc i).result = some (.terminal (some (.violation kind))) →
    s.mux.verdict ≠ none

/-- Moving a call on leaves the connection as it is. -/
@[simp]
lemma Latch.at_mux (pc : LatchPc) : (s.at i pc).mux = s.mux := rfl

/-- Moving a call on leaves the order in which the calls entered as it is. -/
@[simp]
lemma Latch.at_entered (pc : LatchPc) : (s.at i pc).entered = s.entered := rfl

/-- Moving a call on writes nothing to the log. -/
@[simp]
lemma Latch.at_log (pc : LatchPc) : (s.at i pc).log = s.log := rfl

/-- Moving a call on moves that call and no other. -/
@[simp]
lemma Latch.at_pc (pc : LatchPc) : (s.at i pc).pc = update s.pc i pc := rfl

/-- When one more operation has taken effect, the table with all locks released is the earlier one
after that operation. -/
lemma settled_log (op : MuxOp) (hcall : calls i = .op op) (hlog : s'.log = s.log ++ [i]) :
    s'.settled calls = (s.settled calls).apply op := by
  have hone : [i].filterMap (fun i => (calls i).toOp) = [op] := by
    simp [hcall, LatchCall.toOp]
  rw [Latch.settled, hlog, List.filterMap_append, hone, muxRun_concat]
  rfl

/-- Away from its writes a call has written nothing. -/
lemma written_eq {c : LatchCall} {pc : LatchPc} (h : pc.writes = false) (m : Mux) :
    c.written pc m = m := by
  unfold LatchCall.written
  split
  · exact absurd h nofun
  · exact absurd h nofun
  · rfl

/-- **A verdict, once set, stays**: no step of any call on the connection takes it back or replaces
it. -/
lemma LatchStep.verdict (h : LatchStep calls i s s') {kind : ProtocolViolationKind}
    (hkind : s.mux.verdict = some kind) : s'.mux.verdict = some kind := by
  cases h with
  | publish hcall hpc => exact Option.or_eq_some_iff.mpr (Or.inl hkind)
  | record hcall hpc => exact Option.or_eq_some_iff.mpr (Or.inl hkind)
  | table hcall hop hpc => exact hop.apply.1.trans hkind
  | _ => exact hkind

/-- **A terminal reason, once set, stays**: no step of any call on the connection takes it back or
replaces it. -/
lemma LatchStep.terminal (h : LatchStep calls i s s') {t : Terminal}
    (ht : s.mux.terminal = some t) : s'.mux.terminal = some t := by
  cases h with
  | latch hcall hpc hterm => exact absurd (hterm.symm.trans ht) nofun
  | table hcall hop hpc => exact hop.apply.2.trans ht
  | _ => exact ht

/-- A step moves only its own call. -/
lemma LatchStep.pc_of_ne (h : LatchStep calls i s s') {j : ℕ} (hj : j ≠ i) : s'.pc j = s.pc j := by
  cases h <;> exact update_of_ne hj _ _

/-- A call that has its result takes no further step, so the result stands.

**Proof sketch.** The steps of another call leave this one where it is. A step of its own starts at
a place in the program, and a call that has its result is at none. -/
lemma LatchStep.result (h : LatchStep calls i s s') {j : ℕ} {result : LatchResult}
    (hresult : (s.pc j).result = some result) : (s'.pc j).result = some result := by
  by_cases hj : j = i
  · subst hj
    cases h with
    | unlockInner hpc =>
      rw [hpc] at hresult
      simpa [LatchPc.result] using hresult
    | send hpc =>
      rw [hpc] at hresult
      simpa [LatchPc.result] using hresult
    | unlockVerdict hpc =>
      rw [hpc] at hresult
      simpa [LatchPc.result] using hresult
    | lockInner hpc =>
      rw [hpc, LatchCall.beforeInner] at hresult
      split_ifs at hresult <;> exact absurd hresult nofun
    | lockVerdict hpc _ _ | lose _ hpc _ | latch _ hpc _ | publish _ hpc | drain _ hpc
    | table _ _ hpc | record _ hpc | readTerminal _ hpc | readVerdict _ hpc =>
      rw [hpc] at hresult
      exact absurd hresult nofun
  · rwa [h.pc_of_ne hj]

/-- Every step keeps the verdict's lock with its owner: it is held exactly by the call whose place
in its program says so.

**Proof sketch.** Only two kinds of steps are about this lock: one takes it when it is free, the
other releases it, if its call takes it at all. Every other step moves from a place that holds it to
one that does, or from one that does not to one that does not. -/
lemma LatchStep.verdictHeld (h : LatchStep calls i s s')
    (hheld : Mutex.Held (fun i => (calls i).HoldsVerdict) s.pc s.verdictLock) :
    Mutex.Held (fun i => (calls i).HoldsVerdict) s'.pc s'.verdictLock := by
  cases h with
  | lockVerdict hpc htakes hfree =>
    rw [hfree] at hheld
    exact hheld.take htakes
  | lockInner hpc htakes hfree =>
    refine hheld.keep hpc ?_
    cases hverdict : (calls i).takesVerdict <;>
      simp [LatchCall.beforeInner, LatchCall.HoldsVerdict, hverdict]
  | unlockVerdict hpc =>
    cases hverdict : (calls i).takesVerdict with
    | true =>
      simp only [if_true]
      exact hheld.release hpc hverdict id
    | false =>
      simp only [Bool.false_eq_true, if_false]
      exact hheld.keep hpc (by simp [LatchCall.HoldsVerdict, hverdict])
  | lose _ hpc _ | latch _ hpc _ | publish _ hpc | drain _ hpc | table _ _ hpc | record _ hpc
  | readTerminal _ hpc | readVerdict _ hpc | unlockInner hpc | send hpc =>
    exact hheld.keep hpc Iff.rfl

/-- Every step keeps the inner lock with its owner: it is held exactly by the call whose place in
its program says so. -/
lemma LatchStep.innerHeld (h : LatchStep calls i s s')
    (hheld : Mutex.Held (fun _ => LatchPc.HoldsInner) s.pc s.innerLock) :
    Mutex.Held (fun _ => LatchPc.HoldsInner) s'.pc s'.innerLock := by
  cases h with
  | lockInner hpc htakes hfree =>
    rw [hfree] at hheld
    exact hheld.take trivial
  | unlockInner hpc => exact hheld.release hpc trivial id
  | lose _ hpc _ | latch _ hpc _ | publish _ hpc | drain _ hpc | table _ _ hpc
  | readTerminal _ hpc | lockVerdict hpc _ _ | record _ hpc | readVerdict _ hpc | send hpc
  | unlockVerdict hpc =>
    exact hheld.keep hpc Iff.rfl

/-- The owner of `inner`, and nobody else, has written of what has not taken effect. -/
lemma Latch.Sound.mux_of_held (hs : s.Sound calls) {here : LatchPc} (hpc : s.pc i = here)
    (hholds : here.HoldsInner) : s.mux = (calls i).written here (s.settled calls) := by
  subst hpc
  rw [hs.mux, (hs.innerHeld i).mp hholds]
  rfl

/-- What the locks guard, while a call has taken `inner` and is not writing. -/
lemma Latch.Sound.mux_eq (hs : s.Sound calls) {here : LatchPc} (hpc : s.pc i = here)
    (hholds : here.HoldsInner) (hwrites : here.writes = false) : s.mux = s.settled calls :=
  (hs.mux_of_held hpc hholds).trans (written_eq hwrites _)

/-- A move that has no part in what a finish writes. -/
lemma Latch.Sound.mux_move {here next : LatchPc} (hs : s.Sound calls) (hpc : s.pc i = here)
    (hhere : here.writes = false) (hnext : next.writes = false) :
    s.mux = s.innerLock.elim (s.settled calls) fun j =>
      (calls j).written (update s.pc i next j) (s.settled calls) := by
  rw [hs.mux]
  cases s.innerLock with
  | none => rfl
  | some j =>
    by_cases hj : j = i
    · subst hj
      simp only [Option.elim_some, update_self, hpc, written_eq hhere, written_eq hnext]
    · simp only [Option.elim_some, update_of_ne hj]

/-- A finish that found no terminal reason is the only one that writes.

**Proof sketch.** The step that begins to write has found no reason while it held the lock. No other
call can write, or finish, while that lock is held, so for a call that is writing there is still
none. -/
lemma LatchStep.writer (h : LatchStep calls i s s') (hs : s.Sound calls) {j : ℕ}
    (hj : (s'.pc j).writes = true) :
    ∃ reason, calls j = .op (.finish reason) ∧ (s'.settled calls).terminal = none := by
  by_cases hji : j = i
  · subst hji
    cases h with
    | latch hcall hpc hterm => exact ⟨_, hcall, hs.mux_eq hpc trivial rfl ▸ hterm⟩
    | publish hcall hpc => exact hs.writer j (hpc ▸ rfl)
    | _ => exact absurd hj (by simp [LatchPc.writes])
  · rw [h.pc_of_ne hji] at hj
    obtain ⟨reason, hcall, hnone⟩ := hs.writer j hj
    refine ⟨reason, hcall, ?_⟩
    have hholds : (s.pc j).HoldsInner := by
      revert hj
      cases s.pc j <;> simp [LatchPc.writes, LatchPc.HoldsInner]
    cases h with
    | lose _ hpc _ | drain _ hpc | table _ _ hpc =>
      exact absurd (hs.innerHeld.unique hholds (hpc ▸ trivial)) hji
    | record hcall' hpc =>
      rw [settled_log _ hcall' rfl]
      exact hnone
    | _ => exact hnone

/-- A violation recorded while a finish without one of its own writes. -/
lemma written_recordViolation {c : LatchCall} (h : c.takesVerdict = false) (pc : LatchPc)
    (kind : ProtocolViolationKind) (m : Mux) :
    c.written pc (m.recordViolation kind) = (c.written pc m).recordViolation kind := by
  unfold LatchCall.written
  split
  · rfl
  · rename_i reason
    have hnone : reason.published = none := by
      simpa [LatchCall.takesVerdict] using h
    simp [Mux.recordViolation, hnone]
  · rfl

/-- **What the locks guard is the settled table, with what its owner has written.**

**Proof sketch.** Steps outside the inner lock leave the table, and what its owner has written, as
they were. The owner's own steps write one field after the other, and these are the fields that
`written` counts as written at that point; the settled table changes only when the step takes effect
and enters the log. A violation that is recorded meanwhile writes the verdict alone, which the owner
has not written: otherwise two calls would hold the verdict's lock. -/
lemma LatchStep.mux (h : LatchStep calls i s s') (hs : s.Sound calls) :
    s'.mux = s'.innerLock.elim (s'.settled calls) fun j =>
      (calls j).written (s'.pc j) (s'.settled calls) := by
  -- what a step of the owner of `inner` comes to
  have howner {next : LatchPc} {m settled : Mux} (hholds : (s.pc i).HoldsInner)
      (hmux : m = (calls i).written next settled) :
      m = s.innerLock.elim settled fun j => (calls j).written (update s.pc i next j) settled := by
    rw [(hs.innerHeld i).mp hholds, Option.elim_some, update_self, hmux]
  cases h with
  | lockVerdict hpc _ _ | readTerminal _ hpc | readVerdict _ hpc | send hpc
  | unlockVerdict hpc =>
    exact hs.mux_move hpc rfl rfl
  | lockInner hpc _ hfree =>
    have hmux := hs.mux
    rw [hfree] at hmux
    refine hmux.trans (written_eq ?_ _).symm
    rw [Latch.at_pc, update_self]
    rfl
  | unlockInner hpc => exact hs.mux_eq hpc trivial rfl
  | lose hcall hpc hterm =>
    have hmux := hs.mux_eq hpc trivial rfl
    refine howner (hpc ▸ trivial) ?_
    rw [settled_log _ hcall rfl, ← hmux, Mux.finish_of_some hterm]
    exact (written_eq rfl _).symm
  | latch hcall hpc hterm =>
    have hmux := hs.mux_eq hpc trivial rfl
    refine howner (hpc ▸ trivial) ?_
    rw [hmux, hcall]
    rfl
  | publish hcall hpc =>
    have hmux := hs.mux_of_held hpc trivial
    refine howner (hpc ▸ trivial) ?_
    rw [hmux, hcall]
    rfl
  | drain hcall hpc =>
    have hmux := hs.mux_of_held hpc trivial
    obtain ⟨-, -, hnone⟩ := hs.writer i (hpc ▸ rfl)
    refine howner (hpc ▸ trivial) ?_
    rw [settled_log _ hcall rfl, Mux.finish_of_none hnone, hmux, hcall]
    rfl
  | table hcall hop hpc =>
    have hmux := hs.mux_eq hpc trivial rfl
    refine howner (hpc ▸ trivial) ?_
    rw [settled_log _ hcall rfl, hmux]
    exact (written_eq rfl _).symm
  | record hcall hpc =>
    have hnotInner : s.innerLock ≠ some i := fun heq => by
      have hholds := (hs.innerHeld i).mpr heq
      rw [hpc] at hholds
      exact hholds
    rw [settled_log _ hcall rfl]
    show s.mux.recordViolation _ = s.innerLock.elim ((s.settled calls).recordViolation _) fun j =>
      (calls j).written (update s.pc i _ j) ((s.settled calls).recordViolation _)
    rw [hs.mux]
    cases hlock : s.innerLock with
    | none => rfl
    | some j =>
      have hj : j ≠ i := fun heq => hnotInner (heq ▸ hlock)
      simp only [Option.elim_some, update_of_ne hj]
      cases hwrites : (s.pc j).writes with
      | false => rw [written_eq hwrites, written_eq hwrites]
      | true =>
        -- a finish that publishes holds the verdict while it writes
        have hnot : (calls j).takesVerdict = false := by
          by_contra htakes
          rw [Bool.not_eq_false] at htakes
          have hj' : (calls j).HoldsVerdict (s.pc j) := by
            revert hwrites
            cases s.pc j <;> simp [LatchPc.writes, LatchCall.HoldsVerdict, htakes]
          have hi : (calls i).HoldsVerdict (s.pc i) := by
            rw [hpc, hcall]
            rfl
          exact hj (hs.verdictHeld.unique hj' hi)
        rw [written_recordViolation hnot]

/-- The settled reason is that of the first finish that took effect.

**Proof sketch.** With all locks released, the table is the run of the operations in the log. Of
these the first finish sets the reason, and later ones leave it. -/
lemma Latch.settled_terminal (calls : ℕ → LatchCall) (s : Latch) :
    (s.settled calls).terminal =
      (s.log.filter fun i => (calls i).reason.isSome).head?.bind fun i => (calls i).reason := by
  have hreasons (log : List ℕ) : (log.filterMap fun i => (calls i).toOp).filterMap MuxOp.reason =
      (log.filter fun i => (calls i).reason.isSome).filterMap fun i => (calls i).reason := by
    rw [List.filterMap_filterMap, List.filterMap_filter]
    refine List.filterMap_congr fun i _ => ?_
    cases hreason : (calls i).reason with
    | none => exact hreason
    | some reason => exact hreason
  rw [Latch.settled, (consistent_muxRun _).first, hreasons]
  cases hlog : s.log.filter fun i => (calls i).reason.isSome with
  | nil => rfl
  | cons i rest =>
    have hi : (calls i).reason.isSome := by
      have hmem : i ∈ s.log.filter fun i => (calls i).reason.isSome :=
        hlog ▸ List.mem_cons_self
      exact (List.mem_filter.mp hmem).2
    obtain ⟨reason, hreason⟩ := Option.isSome_iff_exists.mp hi
    simp [hreason]

/-- A move that leaves it open whether a finish has taken effect. -/
lemma Latch.Sound.entered_move {here next : LatchPc} (hs : s.Sound calls) (hpc : s.pc i = here)
    (hsame : (calls i).entering here i = (calls i).entering next i) :
    s.entered = (s.log.filter fun i => (calls i).reason.isSome) ++
      s.innerLock.elim [] fun j => (calls j).entering (update s.pc i next j) j := by
  rw [hs.entered]
  congr 1
  cases s.innerLock with
  | none => rfl
  | some j =>
    by_cases hj : j = i
    · subst hj
      simp only [Option.elim_some, update_self, hpc, hsame]
    · simp only [Option.elim_some, update_of_ne hj]

/-- The finishes that entered, told by the owner of `inner`. -/
lemma Latch.Sound.entered_eq {here : LatchPc} (hs : s.Sound calls) (hpc : s.pc i = here)
    (hholds : here.HoldsInner) : s.entered =
      (s.log.filter fun i => (calls i).reason.isSome) ++ (calls i).entering here i := by
  subst hpc
  rw [hs.entered, (hs.innerHeld i).mp hholds]
  rfl

/-- **The finishes enter in the order in which they take effect.**

**Proof sketch.** Only a finish enters, and it is counted as entering from the step on in which it
takes the inner lock; the log has it once it takes effect, which is when the owner lets go of the
count. Steps of other calls, and of a finish before and after, change neither side. -/
lemma LatchStep.entered (h : LatchStep calls i s s') (hs : s.Sound calls) :
    s'.entered = (s'.log.filter fun i => (calls i).reason.isSome) ++
      s'.innerLock.elim [] fun j => (calls j).entering (s'.pc j) j := by
  have hnone (hreason : (calls i).reason = none) (pc : LatchPc) : (calls i).entering pc i = [] := by
    simp [LatchCall.entering, hreason]
  have hother {here next : LatchPc} (hreason : (calls i).reason = none) (hpc : s.pc i = here) :
      s.entered = ((s.log ++ [i]).filter fun i => (calls i).reason.isSome) ++
        s.innerLock.elim [] fun j => (calls j).entering (update s.pc i next j) j := by
    have hlast : ((s.log ++ [i]).filter fun i => (calls i).reason.isSome) =
        s.log.filter fun i => (calls i).reason.isSome := by
      simp [hreason]
    rw [hlast]
    exact hs.entered_move hpc ((hnone hreason _).trans (hnone hreason _).symm)
  have hfinish {reason : Terminal} {next : LatchPc} (hcall : calls i = .op (.finish reason))
      {here : LatchPc} (hpc : s.pc i = here) (hholds : here.HoldsInner)
      (hhere : here.result = none) (hnext : next.result.isSome) :
      s.entered = ((s.log ++ [i]).filter fun i => (calls i).reason.isSome) ++
        s.innerLock.elim [] fun j => (calls j).entering (update s.pc i next j) j := by
    have hreason : (calls i).reason = some reason := by rw [hcall]; rfl
    have hlock : s.innerLock = some i := (hs.innerHeld i).mp (hpc ▸ hholds)
    rw [hs.entered_eq hpc hholds, hlock]
    simp [LatchCall.entering, hreason, hhere, Option.isSome_iff_ne_none.mp hnext]
  cases h with
  | lockVerdict hpc _ _ | latch _ hpc _ | publish _ hpc | send hpc | unlockVerdict hpc =>
    exact hs.entered_move hpc rfl
  | readTerminal hcall hpc | readVerdict hcall hpc =>
    have hreason : (calls i).reason = none := by rw [hcall]; rfl
    exact hs.entered_move hpc ((hnone hreason _).trans (hnone hreason _).symm)
  | lockInner hpc _ hfree =>
    have hentered := hs.entered
    rw [hfree, Option.elim_none, List.append_nil] at hentered
    simp [hentered, LatchCall.entering, LatchPc.result]
  | unlockInner hpc =>
    have hnil {result : LatchResult} {sends : Sends} :
        (calls i).entering (.leaving result sends) i = [] := by
      simp [LatchCall.entering, LatchPc.result]
    exact (hs.entered_eq hpc trivial).trans (congrArg _ hnil)
  | lose hcall hpc _ => exact hfinish hcall hpc trivial rfl rfl
  | drain hcall hpc => exact hfinish hcall hpc trivial rfl rfl
  | @table op hcall hop hpc =>
    have hreason : (calls i).reason = none := by
      rw [hcall]
      cases op <;> first | rfl | exact hop.elim
    exact hother hreason hpc
  | record hcall hpc =>
    have hreason : (calls i).reason = none := by rw [hcall]; rfl
    exact hother hreason hpc

/-- The order in which finishes take the inner lock only grows, at its end. -/
lemma LatchStep.entered_grows (h : LatchStep calls i s s') :
    ∃ last, s'.entered = s.entered ++ last := by
  cases h with
  | lockInner hpc _ hfree => exact ⟨_, rfl⟩
  | _ => exact ⟨[], (List.append_nil _).symm⟩

/-- The first finish that entered stays the first. -/
lemma LatchStep.head?_entered (h : LatchStep calls i s s') {j k : ℕ} (hj : j ∈ s.entered) :
    s'.entered.head? = some k ↔ s.entered.head? = some k := by
  obtain ⟨last, hlast⟩ := h.entered_grows
  obtain ⟨first, rest, hcons⟩ := List.exists_cons_of_ne_nil (List.ne_nil_of_mem hj)
  simp [hlast, hcons]

/-- What took effect has its result: a call is entered into the log in the step that ends it. -/
lemma LatchStep.logged (h : LatchStep calls i s s') (hs : s.Sound calls) {j : ℕ}
    (hj : j ∈ s'.log) : ∃ result, (s'.pc j).result = some result := by
  have hold (hmem : j ∈ s.log) : ∃ result, (s'.pc j).result = some result := by
    obtain ⟨result, hresult⟩ := hs.logged j hmem
    exact ⟨result, h.result hresult⟩
  cases h with
  | lose _ hpc _ | drain _ hpc | table _ _ hpc | record _ hpc =>
    rcases List.mem_append.mp hj with hmem | hmem
    · exact hold hmem
    · rw [List.mem_singleton.mp hmem, Latch.at_pc, update_self]
      exact ⟨_, rfl⟩
  | _ => exact hold hj

/-- A call with a result and nothing to send will send nothing.

**Proof sketch.** The steps of another call leave this one where it is. A step of its own that comes
after the result goes on towards the end of the program, where nothing is added to what is to be
sent. -/
lemma LatchStep.sends (h : LatchStep calls i s s') {j : ℕ} {result : LatchResult}
    (hresult : (s.pc j).result = some result) (hnone : (s.pc j).sends = []) :
    (s'.pc j).sends = [] := by
  by_cases hj : j = i
  · subst hj
    cases h with
    | unlockInner hpc =>
      rw [hpc] at hnone
      simpa [LatchPc.sends] using hnone
    | send hpc =>
      rw [hpc] at hnone
      exact absurd hnone nofun
    | unlockVerdict hpc => simp [LatchPc.sends]
    | lockInner hpc =>
      rw [hpc, LatchCall.beforeInner] at hresult
      split_ifs at hresult <;> exact absurd hresult nofun
    | lockVerdict hpc _ _ | lose _ hpc _ | latch _ hpc _ | publish _ hpc | drain _ hpc
    | table _ _ hpc | record _ hpc | readTerminal _ hpc | readVerdict _ hpc =>
      rw [hpc] at hresult
      exact absurd hresult nofun
  · rwa [h.pc_of_ne hj]

/-- The finish that entered while there was no terminal reason is the first. -/
lemma Latch.Sound.entered_of_none {here : LatchPc} (hs : s.Sound calls) {reason : Terminal}
    (hcall : calls i = .op (.finish reason)) (hpc : s.pc i = here) (hholds : here.HoldsInner)
    (hresult : here.result = none) (hterm : (s.settled calls).terminal = none) :
    s.entered = [i] := by
  have hreason : (calls i).reason = some reason := by rw [hcall]; rfl
  have hnil : (s.log.filter fun i => (calls i).reason.isSome) = [] := by
    rw [Latch.settled_terminal] at hterm
    cases hlog : s.log.filter fun i => (calls i).reason.isSome with
    | nil => rfl
    | cons k rest =>
      have hmem : k ∈ s.log.filter fun i => (calls i).reason.isSome := hlog ▸ List.mem_cons_self
      obtain ⟨first, hfirst⟩ := Option.isSome_iff_exists.mp (List.mem_filter.mp hmem).2
      rw [hlog] at hterm
      exact absurd (hfirst.symm.trans hterm) nofun
  rw [hs.entered_eq hpc hholds, hnil]
  simp [LatchCall.entering, hreason, hresult]

/-- A finish that entered when there was a terminal reason is not the first. -/
lemma Latch.Sound.entered_of_some (hs : s.Sound calls) {reason t : Terminal}
    (hcall : calls i = .op (.finish reason)) (hpc : s.pc i = .innerHeld)
    (hterm : (s.settled calls).terminal = some t) :
    i ∈ s.entered ∧ s.entered.head? ≠ some i := by
  have hreason : (calls i).reason = some reason := by rw [hcall]; rfl
  have hentered := hs.entered_eq hpc trivial
  rw [Latch.settled_terminal] at hterm
  obtain ⟨k, hk, -⟩ := Option.bind_eq_some_iff.mp hterm
  refine ⟨?_, fun hhead => ?_⟩
  · rw [hentered]
    simp [LatchCall.entering, hreason, LatchPc.result]
  · rw [hentered, List.head?_append, hk] at hhead
    obtain rfl : k = i := Option.some.inj hhead
    obtain ⟨result, hresult⟩ := hs.logged k (List.mem_filter.mp (List.mem_of_head? hk)).1
    rw [hpc] at hresult
    exact absurd hresult nofun

/-- **The first finish wins, and no other.**

**Proof sketch.** A call that had its result before keeps it, and the order of entering only grows
at its end, so the first one stays the first. A result that is new is that of the call that took the
step: it lost, when a reason was latched before it, and it won, when it drained the table itself. -/
lemma LatchStep.finished (h : LatchStep calls i s s') (hs : s.Sound calls) {j : ℕ} {won : Bool}
    (hj : (s'.pc j).result = some (.finished won)) :
    j ∈ s'.entered ∧ (won = true ↔ s'.entered.head? = some j) ∧
      (won = false → (s'.pc j).sends = []) := by
  cases hbefore : (s.pc j).result with
  | some result =>
    have hsame := h.result hbefore
    obtain rfl : result = .finished won := Option.some.inj (hsame.symm.trans hj)
    obtain ⟨hmem, hwon, hnone⟩ := hs.finished j won hbefore
    obtain ⟨last, hlast⟩ := h.entered_grows
    exact ⟨hlast ▸ List.mem_append_left _ hmem, hwon.trans (h.head?_entered hmem).symm,
      fun hlost => h.sends hbefore (hnone hlost)⟩
  | none =>
    -- the result is new, and so it is this call that took the step
    obtain rfl : j = i := by
      by_contra hne
      rw [h.pc_of_ne hne, hbefore] at hj
      exact absurd hj nofun
    cases h with
    | lose hcall hpc hterm =>
      rw [Latch.at_pc, update_self] at hj ⊢
      obtain rfl : false = won := by simpa [LatchPc.result] using hj
      rw [hs.mux_eq hpc trivial rfl] at hterm
      obtain ⟨hmem, hhead⟩ := hs.entered_of_some hcall hpc hterm
      exact ⟨hmem, iff_of_false nofun hhead, fun _ => rfl⟩
    | drain hcall hpc =>
      rw [Latch.at_pc, update_self] at hj ⊢
      obtain rfl : true = won := by simpa [LatchPc.result] using hj
      obtain ⟨-, -, hterm⟩ := hs.writer j (hpc ▸ rfl)
      have hentered := hs.entered_of_none hcall hpc trivial rfl hterm
      refine ⟨?_, iff_of_true rfl ?_, nofun⟩
      · show j ∈ s.entered
        simp [hentered]
      · show s.entered.head? = some j
        simp [hentered]
    | unlockInner hpc | send hpc | unlockVerdict hpc =>
      rw [hpc] at hbefore
      exact absurd hbefore nofun
    | lockVerdict _ _ _ | lockInner _ _ _ | latch _ _ _ | publish _ _ | table _ _ _ | record _ _
    | readTerminal _ _ | readVerdict _ _ =>
      rw [Latch.at_pc, update_self] at hj
      simp [LatchPc.result] at hj

/-- A caller that was told of a violation can read it.

**Proof sketch.** A caller that had its result before was told of a violation that was there then,
and the verdict is not taken back. A result that is new comes from reading the terminal reason, or
from leaving a lock with the reason read before; the violation it names was published before it
could be read. -/
lemma LatchStep.told (h : LatchStep calls i s s') (hs : s.Sound calls) {j : ℕ}
    {kind : ProtocolViolationKind}
    (hj : (s'.pc j).result = some (.terminal (some (.violation kind)))) :
    s'.mux.verdict ≠ none := by
  have hstays (hverdict : s.mux.verdict ≠ none) : s'.mux.verdict ≠ none := by
    obtain ⟨kind', hkind'⟩ := Option.ne_none_iff_exists'.mp hverdict
    rw [h.verdict hkind']
    exact nofun
  cases hbefore : (s.pc j).result with
  | some result =>
    have hsame := h.result hbefore
    obtain rfl := Option.some.inj (hsame.symm.trans hj)
    exact hstays (hs.told j kind hbefore)
  | none =>
    obtain rfl : j = i := by
      by_contra hne
      rw [h.pc_of_ne hne, hbefore] at hj
      exact absurd hj nofun
    cases h with
    | readTerminal hcall hpc =>
      rw [Latch.at_pc, update_self] at hj
      have hterm : s.mux.terminal = some (.violation kind) := by
        simpa [LatchPc.result] using hj
      refine hstays ?_
      rw [hs.mux_eq hpc trivial rfl] at hterm ⊢
      exact (consistent_muxRun _).published kind hterm
    | unlockInner hpc | send hpc | unlockVerdict hpc =>
      rw [hpc] at hbefore
      exact absurd hbefore nofun
    | lockVerdict _ _ _ | lockInner _ _ _ | lose _ _ _ | latch _ _ _ | publish _ _ | drain _ _
    | table _ _ _ | record _ _ | readVerdict _ _ =>
      rw [Latch.at_pc, update_self] at hj
      simp [LatchPc.result] at hj

/-- A step of one call keeps the whole table sound, locks, log and results. -/
lemma LatchStep.sound (h : LatchStep calls i s s') (hs : s.Sound calls) : s'.Sound calls where
  verdictHeld := h.verdictHeld hs.verdictHeld
  innerHeld := h.innerHeld hs.innerHeld
  writer _ := h.writer hs
  mux := h.mux hs
  entered := h.entered hs
  logged _ := h.logged hs
  finished _ _ := h.finished hs
  told _ _ := h.told hs

/-- **The run lemma**: whatever a new connection comes to, in any interleaving of the calls, is
sound. -/
lemma sound_of_runs (h : LatchRuns calls Latch.new s) : s.Sound calls := by
  induction h with
  | refl =>
    exact ⟨fun i => ⟨nofun, nofun⟩, fun i => ⟨nofun, nofun⟩, nofun, rfl, rfl, nofun, nofun, nofun⟩
  | tail _ hstep ih =>
    obtain ⟨i, hstep⟩ := hstep
    exact hstep.sound ih

/-- A run of no steps ends where it started. -/
lemma LatchRuns.refl (calls : ℕ → LatchCall) (s : Latch) : LatchRuns calls s s :=
  Relation.ReflTransGen.refl

/-- A run goes on by one more step of one of its calls. -/
lemma LatchRuns.tail {s'' : Latch} (h : LatchRuns calls s s') (hstep : LatchStep calls i s' s'') :
    LatchRuns calls s s'' :=
  Relation.ReflTransGen.tail h ⟨i, hstep⟩

/-- What a step keeps, a run keeps. -/
lemma LatchRuns.keeps {P : Latch → Prop} (h : LatchRuns calls s s')
    (hstep : ∀ {i : ℕ} {s s' : Latch}, LatchStep calls i s s' → P s → P s') (hs : P s) : P s' := by
  induction h with
  | refl => exact hs
  | tail _ hlast ih =>
    obtain ⟨i, hlast⟩ := hlast
    exact hstep hlast ih

/-- A finish that is writing, or has won. -/
def LatchPc.Wins (pc : LatchPc) : Prop :=
  pc.writes = true ∨ pc.result = some (.finished true)

/-- A finish that is writing will have won. -/
lemma LatchStep.wins (h : LatchStep calls i s s') {j : ℕ} (hj : (s.pc j).Wins) :
    (s'.pc j).Wins := by
  rcases hj with hwrites | hwon
  · by_cases hji : j = i
    · subst hji
      cases h with
      | publish _ hpc => exact Or.inl (by simp [LatchPc.writes])
      | drain _ hpc => exact Or.inr (by simp [LatchPc.result])
      | lockInner hpc =>
        rw [hpc, LatchCall.beforeInner] at hwrites
        split_ifs at hwrites <;> exact absurd hwrites nofun
      | lockVerdict hpc _ _ | lose _ hpc _ | latch _ hpc _ | table _ _ hpc | record _ hpc
      | readTerminal _ hpc | readVerdict _ hpc | unlockInner hpc | send hpc | unlockVerdict hpc =>
        rw [hpc] at hwrites
        exact absurd hwrites nofun
    · rw [h.pc_of_ne hji]
      exact Or.inl hwrites
  · exact Or.inr (h.result hwon)

/-- A step of a finish that loses changes nothing that a lock guards, and sends nothing.

**Proof sketch.** By the step. Those that publish a reason, or drain the table, belong to a finish
that wins; the steps of other operations are not of this call; and a finish that lost has nothing to
send. -/
lemma LatchStep.of_loses (h : LatchStep calls i s s') (hs : s.Sound calls) {reason : Terminal}
    (hcall : calls i = .op (.finish reason)) (hnot : ¬ (s'.pc i).Wins)
    (hlost : ∀ result, (s.pc i).result = some result → result = .finished false) :
    s'.mux = s.mux ∧ s'.sent = s.sent := by
  cases h with
  | latch _ hpc _ => exact absurd (Or.inl (by simp [LatchPc.writes])) hnot
  | publish _ hpc => exact absurd (Or.inl (by simp [LatchPc.writes])) hnot
  | drain _ hpc => exact absurd (Or.inr (by simp [LatchPc.result])) hnot
  | table hcall' hop hpc =>
    rw [hcall] at hcall'
    obtain rfl := (LatchCall.op.inj hcall').symm
    exact hop.elim
  | record hcall' hpc =>
    rw [hcall] at hcall'
    exact absurd hcall' nofun
  | send hpc =>
    obtain rfl := hlost _ (congrArg LatchPc.result hpc)
    have hnone := (hs.finished i false (congrArg LatchPc.result hpc)).2.2 rfl
    rw [hpc] at hnone
    exact absurd hnone nofun
  | _ => exact ⟨rfl, rfl⟩

/-- What the locks guard is the settled table, or it is that of a finish that is writing the first
terminal reason. -/
lemma Latch.Sound.mux_cases (hs : s.Sound calls) :
    s.mux = s.settled calls ∨ ∃ i reason, s.innerLock = some i ∧
      calls i = .op (.finish reason) ∧ (s.settled calls).terminal = none ∧
      s.mux.terminal = some reason ∧
      (s.pc i = .latched ∧ s.mux.verdict = (s.settled calls).verdict ∨
        s.pc i = .published ∧ s.mux.verdict = (s.settled calls).verdict.or reason.published) := by
  have hmux := hs.mux
  cases hlock : s.innerLock with
  | none =>
    rw [hlock] at hmux
    exact Or.inl hmux
  | some i =>
    rw [hlock, Option.elim_some] at hmux
    cases hwrites : (s.pc i).writes with
    | false => exact Or.inl (hmux.trans (written_eq hwrites _))
    | true =>
      obtain ⟨reason, hcall, hterm⟩ := hs.writer i hwrites
      refine Or.inr ⟨i, reason, rfl, hcall, hterm, ?_⟩
      rw [hcall] at hmux
      rw [hmux]
      revert hwrites
      cases s.pc i <;> simp [LatchPc.writes, LatchCall.written]

/-- Only a finish has a reason to give, and the call with a reason is the finish for it. -/
lemma LatchCall.eq_of_reason {c : LatchCall} {t : Terminal} (h : c.reason = some t) :
    c = .op (.finish t) := by
  cases c with
  | op o =>
    cases o with
    | finish reason =>
      obtain rfl : reason = t := Option.some.inj h
      rfl
    | _ => exact absurd h nofun
  | _ => exact absurd h nofun

/-- A terminal reason is that of the first finish that entered. -/
lemma Latch.Sound.first (hs : s.Sound calls) {t : Terminal} (ht : s.mux.terminal = some t) :
    ∃ i, s.entered.head? = some i ∧ calls i = .op (.finish t) := by
  rcases hs.mux_cases with hmux | ⟨i, reason, hlock, hcall, hterm, hreason, hpc⟩
  · rw [hmux, Latch.settled_terminal] at ht
    obtain ⟨k, hk, hreason⟩ := Option.bind_eq_some_iff.mp ht
    refine ⟨k, ?_, LatchCall.eq_of_reason hreason⟩
    rw [hs.entered, List.head?_append, hk]
    rfl
  · obtain rfl : reason = t := Option.some.inj (hreason.symm.trans ht)
    have hentered : s.entered = [i] := by
      rcases hpc with ⟨hpc, -⟩ | ⟨hpc, -⟩
      · exact hs.entered_of_none hcall hpc trivial rfl hterm
      · exact hs.entered_of_none hcall hpc trivial rfl hterm
    exact ⟨i, by simp [hentered], hcall⟩

/-- **A violation is the terminal reason before it is the verdict only inside the finish that
writes both**, which holds both locks meanwhile. -/
lemma Latch.Sound.published (hs : s.Sound calls) {kind : ProtocolViolationKind}
    (ht : s.mux.terminal = some (.violation kind)) (hverdict : s.mux.verdict = none) :
    ∃ i, s.innerLock = some i ∧ s.verdictLock = some i ∧
      calls i = .op (.finish (.violation kind)) := by
  rcases hs.mux_cases with hmux | ⟨i, reason, hlock, hcall, hterm, hreason, hpc⟩
  · rw [hmux] at ht hverdict
    exact absurd hverdict ((consistent_muxRun _).published kind ht)
  · obtain rfl : reason = .violation kind := Option.some.inj (hreason.symm.trans ht)
    refine ⟨i, hlock, (hs.verdictHeld i).mp ?_, hcall⟩
    rcases hpc with ⟨hpc, -⟩ | ⟨hpc, -⟩
    · rw [hpc, hcall]
      rfl
    · rw [hpc, hcall]
      rfl

/-- A verdict beside a crash was recorded.

**Proof sketch.** With every lock released, the table is that of the operations in the log, in
order. A verdict in it was published by a recorded violation in the log, since the reason is a
crash; and whatever is logged has its result. -/
lemma Latch.Sound.recorded (hs : s.Sound calls) {status : Option ℤ} {kind : ProtocolViolationKind}
    (ht : s.mux.terminal = some (.crashed status)) (hkind : s.mux.verdict = some kind) :
    ∃ i result, calls i = .op (.recordViolation kind) ∧ (s.pc i).result = some result := by
  have hsettled : (s.settled calls).verdict = some kind ∧
      (s.settled calls).terminal ≠ some (.violation kind) := by
    rcases hs.mux_cases with hmux | ⟨i, reason, hlock, hcall, hterm, hreason, hpc⟩
    · rw [hmux] at ht hkind
      exact ⟨hkind, ht ▸ nofun⟩
    · obtain rfl : reason = .crashed status := Option.some.inj (hreason.symm.trans ht)
      refine ⟨?_, hterm ▸ nofun⟩
      rcases hpc with ⟨-, hverdict⟩ | ⟨-, hverdict⟩
      · rw [← hverdict, hkind]
      · rw [← hkind, hverdict]
        exact (Option.or_none).symm
  obtain ⟨hverdict, hterm⟩ := hsettled
  rcases (consistent_muxRun _).publishers kind hverdict with hmem | hreason
  · obtain ⟨i, hlog, hop⟩ := List.mem_filterMap.mp hmem
    obtain ⟨result, hresult⟩ := hs.logged i hlog
    refine ⟨i, result, ?_, hresult⟩
    cases hcall : calls i with
    | op o =>
      rw [hcall] at hop
      exact congrArg LatchCall.op (Option.some.inj hop)
    | _ => exact absurd (hcall ▸ hop) nofun
  · exact absurd hreason hterm

/-- **The verdict and the terminal reason stay consistent**, in every interleaving of calls on one
connection.

**Proof sketch.** A reachable table is sound (`sound_of_runs`), which says where a reason and a
verdict come from. That neither changes once set, and that a call that has won or has its result
keeps it, are facts of single steps, carried along runs by one rule (`LatchRuns.keeps`). A finish
that loses found a reason there, so none of its steps writes. For the last part, a verdict beside a
crash was written by a call that recorded a violation, and that call has its result. -/
theorem verdict_terminal_consistent (calls : ℕ → LatchCall) (s : Latch)
    (h : LatchRuns calls Latch.new s) :
    -- once set, neither changes
    (∀ s', LatchRuns calls s s' →
      (∀ kind, s.mux.verdict = some kind → s'.mux.verdict = some kind) ∧
      ∀ t, s.mux.terminal = some t → s'.mux.terminal = some t) ∧
    -- the reason is that of the first finish, which is the one that wins
    (∀ t, s.mux.terminal = some t →
      ∃ i, s.entered.head? = some i ∧ calls i = .op (.finish t)) ∧
    (∀ i won, (s.pc i).result = some (.finished won) →
      (won = true ↔ s.entered.head? = some i)) ∧
    -- a violation that is the reason is the verdict too wherever either lock can be taken, and a
    -- caller that was told of it finds the verdict set
    (∀ kind, s.mux.terminal = some (.violation kind) →
      s.innerLock = none ∨ s.verdictLock = none ∨ s.innerLock ≠ s.verdictLock →
        s.mux.verdict ≠ none) ∧
    (∀ i kind, (s.pc i).result = some (.terminal (some (.violation kind))) →
      s.mux.verdict ≠ none) ∧
    -- a finish that loses publishes nothing, writes nothing and sends nothing at any of its steps
    (∀ i reason s' s'', calls i = .op (.finish reason) → LatchStep calls i s s' →
      LatchRuns calls s' s'' → (s''.pc i).result = some (.finished false) →
        s'.mux = s.mux ∧ s'.sent = s.sent) ∧
    -- beside a crash, and as long as no violation was recorded, the verdict stays empty
    (∀ status, s.mux.terminal = some (.crashed status) →
      (∀ i kind, calls i = .op (.recordViolation kind) → (s.pc i).result = none) →
        s.mux.verdict = none) := by
  have hs : s.Sound calls := sound_of_runs h
  refine ⟨fun s' hruns => ⟨fun kind hkind => ?_, fun t ht => ?_⟩, fun t ht => hs.first ht,
    fun i won hwon => (hs.finished i won hwon).2.1, fun kind ht hfree hverdict => ?_, hs.told,
    fun i reason s' s'' hcall hstep hruns hlost => ?_, fun status ht hnone => ?_⟩
  · exact @LatchRuns.keeps calls s s' (fun s => s.mux.verdict = some kind) hruns
      (fun hstep hkind => hstep.verdict hkind) hkind
  · exact @LatchRuns.keeps calls s s' (fun s => s.mux.terminal = some t) hruns
      (fun hstep ht => hstep.terminal ht) ht
  · obtain ⟨i, hinner, hlock, -⟩ := hs.published ht hverdict
    simp [hinner, hlock] at hfree
  · refine hstep.of_loses hs hcall (fun hwins => ?_) fun result hresult => ?_
    · have hend := @LatchRuns.keeps calls s' s'' (fun s => (s.pc i).Wins) hruns
        (fun hstep hwins => hstep.wins hwins) hwins
      rcases hend with hwrites | hwon
      · revert hwrites hlost
        cases s''.pc i <;> simp [LatchPc.writes, LatchPc.result]
      · exact absurd (hlost.symm.trans hwon) (by simp)
    · have hend := @LatchRuns.keeps calls s' s'' (fun s => (s.pc i).result = some result) hruns
        (fun hstep hresult => hstep.result hresult) (hstep.result hresult)
      exact Option.some.inj (hend.symm.trans hlost)
  · by_contra hverdict
    obtain ⟨kind, hkind⟩ := Option.ne_none_iff_exists'.mp hverdict
    obtain ⟨i, result, hcall, hresult⟩ := hs.recorded ht hkind
    rw [hnone i kind hcall] at hresult
    exact absurd hresult nofun

/-- A crash, and a violation of the reader's. -/
def crashAndRecord : ℕ → LatchCall
  | 0 => .op (.finish (.crashed none))
  | 1 => .op (.recordViolation .notJson)
  | _ => .terminal

/-- A violation recorded while a crash is being written stays beside it. -/
theorem verdict_terminal_consistent_racing : ∃ s, LatchRuns crashAndRecord Latch.new s ∧
    s.mux.terminal = some (.crashed none) ∧ s.mux.verdict = some .notJson ∧
    ∀ s', LatchRuns crashAndRecord s s' →
      s'.mux.terminal = some (.crashed none) ∧ s'.mux.verdict = some .notJson := by
  have hruns := (((LatchRuns.refl crashAndRecord Latch.new).tail
    (@LatchStep.lockInner _ 0 _ rfl rfl rfl)).tail
    (@LatchStep.latch _ 0 _ _ rfl rfl rfl)).tail
    (@LatchStep.lockVerdict _ 1 _ rfl rfl rfl) |>.tail
    (@LatchStep.record _ 1 _ _ rfl rfl)
  have hstay := (verdict_terminal_consistent crashAndRecord _ hruns).1
  exact ⟨_, hruns, rfl, rfl, fun s' h => ⟨(hstay s' h).2 _ rfl, (hstay s' h).1 _ rfl⟩⟩

end Interleaving

end Sumer.Host
