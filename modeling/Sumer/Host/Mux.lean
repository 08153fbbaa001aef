import Mathlib.Data.List.Induction
import Mathlib.Logic.Function.Basic
import Sumer.Host.Error

set_option relaxedAutoImplicit false
set_option autoImplicit false

/-!
# The id table of a connection

Id issuance and the life of an id (`core/host/src/mux.rs`). Every id has a slot, which holds the
sending end of the channel of the call that waits for it. Each operation here is one critical
section; what it takes out of a slot is sent once the section is left, and listed in its result.

## Main definitions

* `Sumer.Host.Mux`: the counter, the slots, the terminal reason and the verdict.
* `Sumer.Host.Mux.issue`, `Sumer.Host.Mux.tombstone`, `Sumer.Host.Mux.deliver`,
  `Sumer.Host.Mux.finish`, `Sumer.Host.Mux.recordViolation`: its operations.
* `Sumer.Host.MuxRun`: the table after any sequence of operations, with what was issued and sent.

## Main results

* `Sumer.Host.Mux.slot_step`: how an operation can move a slot.
* `Sumer.Host.MuxRun.Sound`: what holds after every sequence of operations.
* `Sumer.Host.id_lifecycle`: ids are never reused, and replies never attributed to another id.
-/

namespace Sumer.Host

open Sumer.Wire

/-- The greatest `u64`. -/
def U64_MAX : ℕ := 2 ^ 64 - 1

/-- `u64::checked_add(1)`. -/
def checkedSucc (n : ℕ) : Option ℕ := if n < U64_MAX then some (n + 1) else none

/-- Why a connection is finished. Set at most once. -/
inductive Terminal where
  | crashed (status : Option ℤ)
  | violation (kind : ProtocolViolationKind)
deriving DecidableEq

/-- What the channel of a pending call eventually carries. -/
inductive Delivery where
  | reply (frame : String) (receivedAt : Rfc3339)
  | crashed (status : Option ℤ)
  | violation (kind : ProtocolViolationKind)
deriving DecidableEq

/-- The delivery that a terminal reason is. -/
def Terminal.delivery : Terminal → Delivery
  | .crashed status => .crashed status
  | .violation kind => .violation kind

/-- The error that a terminal reason is. -/
def Terminal.error : Terminal → HostError
  | .crashed status => .adapterCrashed status
  | .violation kind => .protocolViolation kind

/-- What a terminal reason that won publishes: its violation, if it is one. -/
def Terminal.published : Terminal → Option ProtocolViolationKind
  | .crashed _ => none
  | .violation kind => some kind

/-- The state of an id that was issued. A pending one holds the sender of its call's channel. -/
inductive Slot where
  | pending
  | tombstoned
  | answered
deriving DecidableEq

/-- The outcome of delivering a reply to a legitimately tracked id. -/
inductive ReplyOutcome where
  | delivered
  | discarded
deriving DecidableEq

/-- A reply named an id with no legitimate meaning left. -/
inductive MuxViolation where
  | unknownId
  | duplicateId
deriving DecidableEq

/-- The violation of the protocol that it is. -/
def MuxViolation.kind : MuxViolation → ProtocolViolationKind
  | .unknownId => .unknownId
  | .duplicateId => .duplicateId

/-- The id table of one connection, and the verdict on its adapter. -/
structure Mux where
  nextId : ℕ
  slots : ℕ → Option Slot
  terminal : Option Terminal
  verdict : Option ProtocolViolationKind

/-- What is sent on leaving a critical section: the delivery, and the id whose channel gets it. -/
abbrev Sends := List (ℕ × Delivery)

/-- The table of a new connection. -/
def Mux.new : Mux := ⟨0, fun _ => none, none, none⟩

/-- Allocates the next id, or `none` once the counter is exhausted. -/
def Mux.issue (m : Mux) : Mux × Option ℕ :=
  match checkedSucc m.nextId with
  | none => (m, none)
  | some next =>
    ({ m with nextId := next, slots := Function.update m.slots m.nextId (some .pending) },
      some m.nextId)

/-- Expires an id whose deadline has passed. Only a slot that is still pending is touched. -/
def Mux.tombstone (m : Mux) (id : ℕ) : Mux :=
  if m.slots id = some .pending then
    { m with slots := Function.update m.slots id (some .tombstoned) }
  else m

/-- Routes a decoded reply to the id it names. -/
def Mux.deliver (m : Mux) (id : ℕ) (frame : String) (receivedAt : Rfc3339) :
    Mux × Sends × Except MuxViolation ReplyOutcome :=
  if id ≥ m.nextId then (m, [], .error .unknownId)
  else
    match m.slots id with
    | some .pending =>
      ({ m with slots := Function.update m.slots id (some .answered) },
        [(id, .reply frame receivedAt)], .ok .delivered)
    | some .tombstoned => (m, [], .ok .discarded)
    | some .answered => (m, [], .error .duplicateId)
    | none => (m, [], .error .unknownId)

/-- The ids still pending, in the order of the counter. The source's map has no order. -/
def Mux.pending (m : Mux) : List ℕ :=
  (List.range m.nextId).filter fun id => m.slots id = some .pending

/-- A slot after the connection has ended. -/
def Slot.drained : Slot → Slot
  | .pending => .answered
  | slot => slot

/-- Records the terminal reason of the connection and takes every pending sender. Only the first
reason sticks, and only a violation that won is published. -/
def Mux.finish (m : Mux) (reason : Terminal) : Mux × Sends × Bool :=
  if m.terminal.isSome then (m, [], false)
  else
    ({ m with
        slots := fun id => (m.slots id).map Slot.drained
        terminal := some reason
        verdict := m.verdict.or reason.published },
      m.pending.map fun id => (id, reason.delivery), true)

/-- Publishes a violation the moment it is decoded. The first one stays. -/
def Mux.recordViolation (m : Mux) (kind : ProtocolViolationKind) : Mux :=
  { m with verdict := m.verdict.or (some kind) }

/-! ### Operations and runs -/

/-- One critical section on the table. -/
inductive MuxOp where
  | issue
  | tombstone (id : ℕ)
  | deliver (id : ℕ) (frame : String) (receivedAt : Rfc3339)
  | finish (reason : Terminal)
  | recordViolation (kind : ProtocolViolationKind)

/-- The table after an operation. -/
def Mux.apply (m : Mux) : MuxOp → Mux
  | .issue => m.issue.1
  | .tombstone id => m.tombstone id
  | .deliver id frame receivedAt => (m.deliver id frame receivedAt).1
  | .finish reason => (m.finish reason).1
  | .recordViolation kind => m.recordViolation kind

/-- What an operation sends. -/
def Mux.sends (m : Mux) : MuxOp → Sends
  | .deliver id frame receivedAt => (m.deliver id frame receivedAt).2.1
  | .finish reason => (m.finish reason).2.1
  | _ => []

/-- The id an operation issues. -/
def Mux.issues (m : Mux) : MuxOp → List ℕ
  | .issue => m.issue.2.toList
  | _ => []

/-- The table after some operations, with every id they issued and everything they sent, in
order. -/
structure MuxRun where
  mux : Mux
  issued : List ℕ
  sent : Sends

/-- One more operation. -/
def MuxRun.apply (r : MuxRun) (op : MuxOp) : MuxRun :=
  ⟨r.mux.apply op, r.issued ++ r.mux.issues op, r.sent ++ r.mux.sends op⟩

/-- The table of a new connection after a sequence of operations. -/
def muxRun (ops : List MuxOp) : MuxRun := ops.foldl MuxRun.apply ⟨Mux.new, [], []⟩

/-- One more operation takes effect on the table that the earlier ones left. -/
lemma muxRun_concat (ops : List MuxOp) (op : MuxOp) :
    muxRun (ops ++ [op]) = (muxRun ops).apply op := by
  simp [muxRun, List.foldl_append]

/-- What was sent in a run was sent by one of its operations. -/
lemma mem_sent_muxRun {ops : List MuxOp} {x : ℕ × Delivery} :
    x ∈ (muxRun ops).sent ↔ ∃ before op after,
      ops = before ++ op :: after ∧ x ∈ (muxRun before).mux.sends op := by
  induction ops using List.reverseRecOn with
  | nil => simp [muxRun]
  | append_singleton ops op ih =>
    rw [muxRun_concat, MuxRun.apply, List.mem_append, ih]
    constructor
    · rintro (⟨before, op', after, rfl, hx⟩ | hx)
      · exact ⟨before, op', after ++ [op], by simp, hx⟩
      · exact ⟨ops, op, [], rfl, hx⟩
    · rintro ⟨before, op', after, hops, hx⟩
      rcases List.eq_nil_or_concat after with rfl | ⟨after, last, rfl⟩
      · obtain ⟨rfl, heq⟩ := List.append_inj' hops rfl
        obtain rfl : op = op' := by simpa using heq
        exact Or.inr hx
      · rw [List.concat_eq_append, ← List.cons_append, ← List.append_assoc] at hops
        exact Or.inl ⟨before, op', after, (List.append_inj' hops rfl).1, hx⟩

section Slots

variable {m : Mux} {id : ℕ}

/-- Below the largest id the next one is issued. -/
lemma checkedSucc_of_lt {n : ℕ} (h : n < U64_MAX) : checkedSucc n = some (n + 1) := if_pos h

/-- After the largest id there is none to issue: the counter does not wrap. -/
lemma checkedSucc_of_le {n : ℕ} (h : U64_MAX ≤ n) : checkedSucc n = none := if_neg (by omega)

/-- At the top of the counter nothing is issued and nothing changes. -/
lemma Mux.issue_of_le (h : U64_MAX ≤ m.nextId) : m.issue = (m, none) := by
  rw [Mux.issue, checkedSucc_of_le h]

/-- The ids that are pending are those that were issued and whose slot still waits. -/
lemma Mux.mem_pending : id ∈ m.pending ↔ id < m.nextId ∧ m.slots id = some .pending := by
  simp [Mux.pending]

/-- A tombstoned id is not pending, whether it was before or not. -/
lemma Mux.slots_tombstone_ne (m : Mux) (id : ℕ) : (m.tombstone id).slots id ≠ some .pending := by
  rw [Mux.tombstone]
  split_ifs with h
  · simp
  · exact h

/-- A reply to a tombstoned id changes nothing. -/
lemma Mux.deliver_of_tombstoned (hlt : id < m.nextId) (h : m.slots id = some .tombstoned)
    (frame : String) (receivedAt : Rfc3339) :
    m.deliver id frame receivedAt = (m, [], .ok .discarded) := by
  rw [Mux.deliver, if_neg (by omega), h]

/-- A reply to a pending id answers it. -/
lemma Mux.deliver_of_pending (hlt : id < m.nextId) (h : m.slots id = some .pending)
    (frame : String) (receivedAt : Rfc3339) :
    m.deliver id frame receivedAt =
      ({ m with slots := Function.update m.slots id (some .answered) },
        [(id, .reply frame receivedAt)], .ok .delivered) := by
  rw [Mux.deliver, if_neg (by omega), h]

/-- A reply to an id that is not pending changes nothing. -/
lemma Mux.deliver_of_not_pending (h : ¬ (id < m.nextId ∧ m.slots id = some .pending))
    (frame : String) (receivedAt : Rfc3339) :
    (m.deliver id frame receivedAt).1 = m ∧ (m.deliver id frame receivedAt).2.1 = [] := by
  rw [Mux.deliver]
  split_ifs with hlt
  · exact ⟨rfl, rfl⟩
  · cases hslot : m.slots id with
    | none => exact ⟨rfl, rfl⟩
    | some slot =>
      cases slot with
      | pending => exact absurd ⟨by omega, hslot⟩ h
      | tombstoned => exact ⟨rfl, rfl⟩
      | answered => exact ⟨rfl, rfl⟩

/-- A reply answers the id that it names, if that was issued and is pending, and no other. -/
lemma Mux.slots_deliver (target : ℕ) (frame : String) (receivedAt : Rfc3339) :
    (m.deliver target frame receivedAt).1.slots id =
      if id = target ∧ target < m.nextId ∧ m.slots target = some .pending then some .answered
      else m.slots id := by
  by_cases h : target < m.nextId ∧ m.slots target = some .pending
  · rw [Mux.deliver_of_pending h.1 h.2]
    simp [Function.update_apply, h]
  · rw [(Mux.deliver_of_not_pending h frame receivedAt).1, if_neg fun h' => h h'.2]

/-- The table after the connection has ended. -/
lemma Mux.slots_finish (reason : Terminal) :
    (m.finish reason).1.slots id =
      if m.terminal = none then (m.slots id).map Slot.drained else m.slots id := by
  rw [Mux.finish]
  cases h : m.terminal <;> simp

/-- An operation leaves the counter, or issues an id and moves it by one.

**Proof sketch.** By cases of the operation. Only issuing touches the counter: below the top it
hands out the counter's value and moves on, at the top it hands out nothing. -/
lemma Mux.nextId_apply (op : MuxOp) :
    (m.apply op).nextId = m.nextId + (m.issues op).length ∧
      m.issues op = List.range' m.nextId (m.issues op).length ∧
      (m.nextId ≤ U64_MAX → (m.apply op).nextId ≤ U64_MAX) := by
  cases op with
  | issue =>
    rw [Mux.apply, Mux.issues]
    by_cases h : m.nextId < U64_MAX
    · simp only [Mux.issue, checkedSucc_of_lt h, Option.toList_some, List.length_singleton,
        List.range'_one, true_and]
      intro _
      omega
    · rw [Mux.issue_of_le (by omega)]
      simp
  | tombstone target =>
    have hsame : (m.tombstone target).nextId = m.nextId := by
      rw [Mux.tombstone]
      split_ifs <;> rfl
    simp [Mux.apply, Mux.issues, hsame]
  | deliver target frame receivedAt =>
    have hsame : (m.deliver target frame receivedAt).1.nextId = m.nextId := by
      by_cases h : target < m.nextId ∧ m.slots target = some .pending
      · rw [Mux.deliver_of_pending h.1 h.2]
      · rw [(Mux.deliver_of_not_pending h frame receivedAt).1]
    simp [Mux.apply, Mux.issues, hsame]
  | finish reason =>
    have hsame : (m.finish reason).1.nextId = m.nextId := by
      rw [Mux.finish]
      split_ifs <;> rfl
    simp [Mux.apply, Mux.issues, hsame]
  | recordViolation kind => simp [Mux.apply, Mux.issues, Mux.recordViolation]

/-- The ids with a slot after an operation.

**Proof sketch.** By cases of the operation. Issuing gives a slot to the id it issues; the others
write slots of ids that had one, or none. -/
lemma Mux.isSome_slots_apply (op : MuxOp) :
    ((m.apply op).slots id).isSome ↔ (m.slots id).isSome ∨ id ∈ m.issues op := by
  cases op with
  | issue =>
    rw [Mux.apply, Mux.issues]
    by_cases h : m.nextId < U64_MAX
    · by_cases heq : id = m.nextId
      · simp [Mux.issue, checkedSucc_of_lt h, heq]
      · simp [Mux.issue, checkedSucc_of_lt h, heq]
    · rw [Mux.issue_of_le (by omega)]
      simp
  | tombstone target =>
    rw [Mux.apply, Mux.tombstone]
    by_cases h : m.slots target = some .pending
    · by_cases heq : id = target
      · simp [Mux.issues, heq, h]
      · simp [Mux.issues, heq, h]
    · simp [Mux.issues, h]
  | deliver target frame receivedAt =>
    rw [Mux.apply, Mux.slots_deliver]
    split_ifs with h
    · simp [h.1, h.2.2]
    · simp [Mux.issues]
  | finish reason =>
    rw [Mux.apply, Mux.slots_finish]
    split_ifs <;> simp [Mux.issues]
  | recordViolation kind => simp [Mux.apply, Mux.recordViolation, Mux.issues]

/-- What an operation sends, it sends to a pending id: its own reply, or the reason of a finish
that is the first.

**Proof sketch.** Issuing, expiring and recording a violation send nothing. A reply is sent to the
id that it names, if that is pending; a finish sends its reason to all pending ids, unless the
connection has ended before. -/
lemma Mux.mem_sends {op : MuxOp} {delivery : Delivery} :
    (id, delivery) ∈ m.sends op ↔ id < m.nextId ∧ m.slots id = some .pending ∧
      ((∃ frame receivedAt, op = .deliver id frame receivedAt ∧
          delivery = .reply frame receivedAt) ∨
        ∃ reason, op = .finish reason ∧ m.terminal = none ∧ delivery = reason.delivery) := by
  cases op with
  | deliver target frame receivedAt =>
    rw [Mux.sends]
    by_cases h : target < m.nextId ∧ m.slots target = some .pending
    · rw [Mux.deliver_of_pending h.1 h.2]
      simp only [List.mem_singleton, Prod.mk.injEq, MuxOp.deliver.injEq, reduceCtorEq,
        false_and, exists_false, or_false]
      constructor
      · rintro ⟨rfl, rfl⟩
        exact ⟨h.1, h.2, frame, receivedAt, ⟨rfl, rfl, rfl⟩, rfl⟩
      · rintro ⟨-, -, frame', receivedAt', ⟨rfl, rfl, rfl⟩, rfl⟩
        exact ⟨rfl, rfl⟩
    · rw [(Mux.deliver_of_not_pending h frame receivedAt).2]
      simp only [List.not_mem_nil, MuxOp.deliver.injEq, reduceCtorEq, false_and, exists_false,
        or_false, false_iff]
      rintro ⟨hlt, hslot, _, _, ⟨rfl, -, -⟩, -⟩
      exact h ⟨hlt, hslot⟩
  | finish reason =>
    rw [Mux.sends, Mux.finish]
    cases hterm : m.terminal with
    | some _ => simp
    | none =>
      simp only [Option.isSome_none, Bool.false_eq_true, if_false, List.mem_map, Mux.mem_pending,
        Prod.mk.injEq, reduceCtorEq, false_and, exists_false, false_or, MuxOp.finish.injEq]
      constructor
      · rintro ⟨id', ⟨hlt, hslot⟩, rfl, rfl⟩
        exact ⟨hlt, hslot, reason, rfl, trivial, rfl⟩
      · rintro ⟨hlt, hslot, _, rfl, -, rfl⟩
        exact ⟨id, ⟨hlt, hslot⟩, rfl, rfl⟩
  | issue => simp [Mux.sends]
  | tombstone target => simp [Mux.sends]
  | recordViolation kind => simp [Mux.sends]

/-- **How an operation can move a slot**: it is issued, expires, or is answered by what the
operation sends to it.

**Proof sketch.** A case for each operation. Issuing touches the next id alone, and expiring its own
id, if that is pending. A reply answers the id it names, if it is pending; a finish answers all that
are pending, if it is the first. What is sent goes to the ids that are answered, and to no other. -/
lemma Mux.slot_step (hid : ∀ id, (m.slots id).isSome ↔ id < m.nextId) (op : MuxOp) (id : ℕ) :
    (id ∉ (m.sends op).map Prod.fst ∧
      ((m.apply op).slots id = m.slots id ∨
        (id = m.nextId ∧ m.issues op = [id] ∧ (m.apply op).slots id = some .pending) ∨
        (op = .tombstone id ∧ m.slots id = some .pending ∧
          (m.apply op).slots id = some .tombstoned))) ∨
    (id ∈ (m.sends op).map Prod.fst ∧ m.slots id = some .pending ∧
      (m.apply op).slots id = some .answered) := by
  have hsends : id ∈ (m.sends op).map Prod.fst ↔ ∃ delivery, (id, delivery) ∈ m.sends op := by
    simp
  rw [hsends]
  simp only [Mux.mem_sends]
  cases op with
  | issue =>
    refine Or.inl ⟨by simp, ?_⟩
    rw [Mux.apply, Mux.issues]
    by_cases h : m.nextId < U64_MAX
    · by_cases heq : id = m.nextId
      · refine Or.inr (Or.inl ⟨heq, ?_⟩)
        simp [Mux.issue, checkedSucc_of_lt h, heq]
      · refine Or.inl ?_
        simp [Mux.issue, checkedSucc_of_lt h, heq]
    · rw [Mux.issue_of_le (by omega)]
      exact Or.inl rfl
  | tombstone target =>
    refine Or.inl ⟨by simp, ?_⟩
    rw [Mux.apply, Mux.tombstone]
    by_cases h : m.slots target = some .pending
    · rw [if_pos h]
      by_cases heq : id = target
      · obtain rfl := heq
        exact Or.inr (Or.inr ⟨rfl, h, by simp⟩)
      · exact Or.inl (by simp [heq])
    · rw [if_neg h]
      exact Or.inl rfl
  | deliver target frame receivedAt =>
    rw [Mux.apply, Mux.slots_deliver]
    by_cases h : id = target ∧ target < m.nextId ∧ m.slots target = some .pending
    · rw [if_pos h]
      obtain ⟨rfl, hlt, hslot⟩ := h
      exact Or.inr ⟨⟨_, hlt, hslot, Or.inl ⟨frame, receivedAt, rfl, rfl⟩⟩, hslot, rfl⟩
    · rw [if_neg h]
      refine Or.inl ⟨?_, Or.inl rfl⟩
      rintro ⟨_, hlt, hslot, ⟨_, _, heq, -⟩ | ⟨_, heq, -⟩⟩
      · simp only [MuxOp.deliver.injEq] at heq
        exact h ⟨heq.1.symm, heq.1.symm ▸ hlt, heq.1.symm ▸ hslot⟩
      · simp at heq
  | finish reason =>
    rw [Mux.apply, Mux.slots_finish]
    by_cases h : m.terminal = none ∧ m.slots id = some .pending
    · rw [if_pos h.1, h.2]
      have hlt := (hid id).mp (by simp [h.2])
      exact Or.inr ⟨⟨_, hlt, rfl, Or.inr ⟨reason, rfl, h.1, rfl⟩⟩, rfl, rfl⟩
    · refine Or.inl ⟨?_, Or.inl ?_⟩
      · rintro ⟨_, -, hslot, ⟨_, _, heq, -⟩ | ⟨_, -, hterm, -⟩⟩
        · simp at heq
        · exact h ⟨hterm, hslot⟩
      · split_ifs with hterm
        · cases hslot : m.slots id with
          | none => rfl
          | some slot =>
            cases slot with
            | pending => exact absurd ⟨hterm, hslot⟩ h
            | tombstoned => rfl
            | answered => rfl
        · rfl
  | recordViolation kind => exact Or.inl ⟨by simp, Or.inl rfl⟩

/-- An id that was answered stays answered, whatever operation comes next. -/
lemma Mux.slots_apply_of_answered (hid : ∀ id, (m.slots id).isSome ↔ id < m.nextId)
    (h : m.slots id = some .answered) (op : MuxOp) : (m.apply op).slots id = some .answered := by
  have hlt := (hid id).mp (by simp [h])
  rcases Mux.slot_step hid op id with
    ⟨-, hsame | ⟨hnew, -, -⟩ | ⟨-, hbefore, -⟩⟩ | ⟨-, hbefore, -⟩
  · rw [hsame, h]
  · omega
  · simp [h] at hbefore
  · simp [h] at hbefore

/-- An id to which something is sent is answered by it. -/
lemma Mux.slots_apply_of_sends (hid : ∀ id, (m.slots id).isSome ↔ id < m.nextId) {op : MuxOp}
    {delivery : Delivery} (h : (id, delivery) ∈ m.sends op) :
    (m.apply op).slots id = some .answered := by
  rcases Mux.slot_step hid op id with ⟨hnot, -⟩ | ⟨-, -, hafter⟩
  · exact absurd (List.mem_map_of_mem h) hnot
  · exact hafter

/-- The terminal reason is the one there was, or that of a finish that found none.

**Proof sketch.** By cases of the operation. Only a finish writes the reason, and only where there
is none. -/
lemma Mux.terminal_apply (op : MuxOp) :
    (m.apply op).terminal = m.terminal ∨
      ∃ reason, op = .finish reason ∧ m.terminal = none ∧ (m.apply op).terminal = some reason := by
  cases op with
  | issue =>
    left
    rw [Mux.apply, Mux.issue]
    cases checkedSucc m.nextId <;> rfl
  | tombstone target =>
    left
    rw [Mux.apply, Mux.tombstone]
    split_ifs <;> rfl
  | deliver target frame receivedAt =>
    left
    rw [Mux.apply]
    by_cases h : target < m.nextId ∧ m.slots target = some .pending
    · rw [Mux.deliver_of_pending h.1 h.2]
    · rw [(Mux.deliver_of_not_pending h frame receivedAt).1]
  | finish reason =>
    rw [Mux.apply, Mux.finish]
    cases h : m.terminal with
    | some t => exact Or.inl h
    | none => exact Or.inr ⟨reason, rfl, rfl, rfl⟩
  | recordViolation kind => exact Or.inl rfl

/-- Only issuing makes an id pending; every other operation leaves it as it was or answers it. -/
lemma Mux.not_pending_apply (hid : ∀ id, (m.slots id).isSome ↔ id < m.nextId) {op : MuxOp}
    (hop : op ≠ .issue) (h : m.slots id ≠ some .pending) :
    (m.apply op).slots id ≠ some .pending := by
  rcases Mux.slot_step hid op id with
    ⟨-, hsame | ⟨-, hissues, -⟩ | ⟨-, hbefore, -⟩⟩ | ⟨-, hbefore, -⟩
  · rwa [hsame]
  · cases op with
    | issue => exact absurd rfl hop
    | _ => simp [Mux.issues] at hissues
  · exact absurd hbefore h
  · exact absurd hbefore h

/-- The end of a connection leaves no id pending. -/
lemma Mux.not_pending_finish (h : m.terminal = none) (reason : Terminal) (id : ℕ) :
    (m.apply (.finish reason)).slots id ≠ some .pending := by
  rw [Mux.apply, Mux.slots_finish, if_pos h]
  rcases m.slots id with - | slot
  · simp
  · cases slot <;> simp [Slot.drained]

/-- Issuing adds at most one pending id.

**Proof sketch.** The ids below the counter are as they were, and the one that is new is pending. At
the top of the counter nothing is issued. -/
lemma Mux.length_pending_issue : (m.apply .issue).pending.length ≤ m.pending.length + 1 := by
  rw [Mux.apply, Mux.pending, Mux.pending]
  by_cases h : m.nextId < U64_MAX
  · simp only [Mux.issue, checkedSucc_of_lt h, List.range_succ, List.filter_append,
      List.length_append]
    have hbelow : (List.range m.nextId).filter (fun id => decide
        (Function.update m.slots m.nextId (some .pending) id = some .pending)) =
          (List.range m.nextId).filter fun id => decide (m.slots id = some .pending) := by
      refine List.filter_congr fun id hid => ?_
      have hne : id ≠ m.nextId := by
        rw [List.mem_range] at hid
        omega
      rw [Function.update_of_ne hne]
    rw [hbelow]
    have hone := List.length_filter_le (fun id => decide
      (Function.update m.slots m.nextId (some .pending) id = some .pending)) [m.nextId]
    rw [List.length_singleton] at hone
    omega
  · rw [Mux.issue_of_le (by omega)]
    exact Nat.le_succ _

/-- A slot that stops being pending is one pending id less. -/
lemma Mux.length_pending_update (h : id ∈ m.pending) {slot : Slot} (hslot : slot ≠ .pending) :
    ({ m with slots := Function.update m.slots id (some slot) } : Mux).pending.length + 1 =
      m.pending.length := by
  have herase : ({ m with slots := Function.update m.slots id (some slot) } : Mux).pending =
      m.pending.erase id := by
    rw [Mux.pending, Mux.pending, (List.nodup_range.filter _).erase_eq_filter, List.filter_filter]
    refine List.filter_congr fun id' _ => ?_
    by_cases heq : id' = id
    · simp [heq, hslot]
    · simp [heq]
  have hpos := List.length_pos_of_mem h
  rw [herase, List.length_erase_of_mem h]
  omega

/-- Every other operation leaves fewer ids pending, by at least what it sends.

**Proof sketch.** Expiring takes one id out of the pending ones and sends nothing; a reply takes out
the one it answers, and sends one delivery; the first finish takes out all of them, and sends one to
each. -/
lemma Mux.length_pending_apply (m : Mux) (op : MuxOp) (hop : op ≠ .issue) :
    2 * (m.apply op).pending.length + (m.sends op).length ≤ 2 * m.pending.length := by
  cases op with
  | issue => exact absurd rfl hop
  | tombstone target =>
    have hsublist : (m.tombstone target).pending.length ≤ m.pending.length := by
      rw [Mux.tombstone]
      split_ifs with h
      · refine (List.monotone_filter_right _ fun id hid => ?_).length_le
        simp only [decide_eq_true_eq, Function.update_apply] at hid
        split_ifs at hid with heq
        · simp at hid
        · exact decide_eq_true hid
      · exact le_rfl
    show 2 * (m.tombstone target).pending.length + 0 ≤ 2 * m.pending.length
    omega
  | deliver target frame receivedAt =>
    rw [Mux.apply, Mux.sends]
    by_cases h : target < m.nextId ∧ m.slots target = some .pending
    · have hanswered : Slot.answered ≠ .pending := nofun
      have hlength := Mux.length_pending_update (Mux.mem_pending.mpr h) hanswered
      rw [Mux.deliver_of_pending h.1 h.2]
      simp only [List.length_singleton]
      omega
    · obtain ⟨hmux, hsends⟩ := Mux.deliver_of_not_pending h frame receivedAt
      rw [hmux, hsends]
      exact le_rfl
  | finish reason =>
    cases hterm : m.terminal with
    | some t => simp [Mux.apply, Mux.sends, Mux.finish, hterm]
    | none =>
      have hsends : (m.sends (.finish reason)).length = m.pending.length := by
        simp [Mux.sends, Mux.finish, hterm]
      have hnone : (m.apply (.finish reason)).pending = [] := by
        refine List.eq_nil_iff_forall_not_mem.mpr fun id hid => ?_
        exact Mux.not_pending_finish hterm reason id (Mux.mem_pending.mp hid).2
      rw [hnone, List.length_nil]
      omega
  | recordViolation kind => exact le_rfl

end Slots

/-- **What holds after every sequence of operations.** -/
structure MuxRun.Sound (r : MuxRun) : Prop where
  bounded : r.mux.nextId ≤ U64_MAX
  slots : ∀ id, (r.mux.slots id).isSome ↔ id < r.mux.nextId
  issued : r.issued = List.range r.mux.nextId
  /-- An id whose channel was sent something is answered. -/
  settled : ∀ id, id ∈ r.sent.map Prod.fst ↔ r.mux.slots id = some .answered
  once : (r.sent.map Prod.fst).Nodup

section Runs

variable {r : MuxRun}

/-- An operation sends to each id at most once.

**Proof sketch.** Only two operations send. A reply sends to one id, and a finish to each pending
id, of which there is a list without repetition. -/
lemma Mux.nodup_sends (m : Mux) (op : MuxOp) : ((m.sends op).map Prod.fst).Nodup := by
  cases op with
  | deliver id frame receivedAt =>
    rw [Mux.sends]
    by_cases h : id < m.nextId ∧ m.slots id = some .pending
    · rw [Mux.deliver_of_pending h.1 h.2]
      exact List.nodup_singleton id
    · rw [(Mux.deliver_of_not_pending h frame receivedAt).2]
      exact List.nodup_nil
  | finish reason =>
    rw [Mux.sends, Mux.finish]
    split_ifs
    · exact List.nodup_nil
    · rw [List.map_map]
      exact (List.nodup_range.filter _).map (fun _ _ h => h)
  | issue => exact List.nodup_nil
  | tombstone id => exact List.nodup_nil
  | recordViolation kind => exact List.nodup_nil

/-- An operation keeps the table sound.

**Proof sketch.** Of each slot the operation does one of the four things that `Mux.slot_step` lists.
The ids issued grow by the one that the operation issues, the ids sent to by those it answers, and
these were pending, so that nothing had been sent to them before. -/
lemma MuxRun.Sound.apply (h : r.Sound) (op : MuxOp) : (r.apply op).Sound := by
  obtain ⟨hnext, hissues, hbounded⟩ := r.mux.nextId_apply op
  have hunsent (id : ℕ) (hslot : r.mux.slots id ≠ some .answered) : id ∉ r.sent.map Prod.fst :=
    fun hmem => hslot ((h.settled id).mp hmem)
  have hstep := Mux.slot_step h.slots op
  refine ⟨hbounded h.bounded, fun id => ?_, ?_, fun id => ?_, ?_⟩
  · show ((r.mux.apply op).slots id).isSome ↔ id < (r.mux.apply op).nextId
    rw [Mux.isSome_slots_apply, h.slots, hissues, hnext, List.mem_range'_1]
    omega
  · show r.issued ++ r.mux.issues op = List.range (r.mux.apply op).nextId
    rw [h.issued, hissues, hnext, List.range_eq_range', List.range_eq_range',
      ← List.range'_append_1, Nat.zero_add]
  · show id ∈ (r.sent ++ r.mux.sends op).map Prod.fst ↔ (r.mux.apply op).slots id = some .answered
    rw [List.map_append, List.mem_append]
    rcases hstep id with
      ⟨hnot, hsame | ⟨hid, -, hslot⟩ | ⟨-, hbefore, hslot⟩⟩ | ⟨hmem, -, hslot⟩
    · rw [hsame, ← h.settled, or_iff_left hnot]
    · have hnone : r.mux.slots id = none := by
        rw [← Option.not_isSome_iff_eq_none, h.slots]
        omega
      have hout := hunsent id (by simp [hnone])
      simp [hslot, hnot, hout]
    · have hout := hunsent id (by simp [hbefore])
      simp [hslot, hnot, hout]
    · exact iff_of_true (Or.inr hmem) hslot
  · show ((r.sent ++ r.mux.sends op).map Prod.fst).Nodup
    rw [List.map_append, List.nodup_append']
    refine ⟨h.once, r.mux.nodup_sends op, fun id hsent hmem => ?_⟩
    rcases hstep id with ⟨hnot, -⟩ | ⟨-, hbefore, -⟩
    · exact hnot hmem
    · exact hunsent id (by simp [hbefore]) hsent

/-- **The run lemma**: after any operations in a row, the table and the record of what was issued
and sent are sound. -/
lemma sound_muxRun (ops : List MuxOp) : (muxRun ops).Sound := by
  induction ops using List.reverseRecOn with
  | nil => exact ⟨by simp [muxRun, Mux.new], by simp [muxRun, Mux.new], rfl, by
      simp [muxRun, Mux.new], List.nodup_nil⟩
  | append_singleton ops op ih =>
    rw [muxRun_concat]
    exact ih.apply op

end Runs

/-- The counter of ids never falls along a run. -/
lemma nextId_muxRun_le (ops later : List MuxOp) :
    (muxRun ops).mux.nextId ≤ (muxRun (ops ++ later)).mux.nextId := by
  induction later using List.reverseRecOn with
  | nil => rw [List.append_nil]
  | append_singleton later op ih =>
    rw [← List.append_assoc, muxRun_concat]
    have hnext := ((muxRun (ops ++ later)).mux.nextId_apply op).1
    show _ ≤ ((muxRun (ops ++ later)).mux.apply op).nextId
    omega

/-- A slot that is not pending stays what it is. -/
lemma slots_muxRun_append {ops : List MuxOp} {id : ℕ} {slot : Slot}
    (h : (muxRun ops).mux.slots id = some slot) (hslot : slot ≠ .pending) (later : List MuxOp) :
    (muxRun (ops ++ later)).mux.slots id = some slot := by
  induction later using List.reverseRecOn with
  | nil => rwa [List.append_nil]
  | append_singleton later op ih =>
    rw [← List.append_assoc, muxRun_concat]
    have hsound := sound_muxRun (ops ++ later)
    have hlt := (hsound.slots id).mp (by simp [ih])
    show ((muxRun (ops ++ later)).mux.apply op).slots id = some slot
    rcases Mux.slot_step hsound.slots op id with
      ⟨-, hsame | ⟨hid, -, -⟩ | ⟨-, hbefore, -⟩⟩ | ⟨-, hbefore, -⟩
    · rw [hsame, ih]
    · omega
    · exact absurd (Option.some.inj (ih.symm.trans hbefore)) hslot
    · exact absurd (Option.some.inj (ih.symm.trans hbefore)) hslot

/-- An id is answered when a reply to it, or the end of the connection, found it pending. -/
lemma answered_iff {ops : List MuxOp} {id : ℕ} :
    (muxRun ops).mux.slots id = some .answered ↔ ∃ before op after,
      ops = before ++ op :: after ∧ (muxRun before).mux.slots id = some .pending ∧
        ((∃ frame receivedAt, op = .deliver id frame receivedAt) ∨
          ∃ reason, op = .finish reason ∧ (muxRun before).mux.terminal = none) := by
  rw [← (sound_muxRun ops).settled, List.mem_map]
  constructor
  · rintro ⟨⟨_, delivery⟩, hsent, rfl⟩
    obtain ⟨before, op, after, hops, hmem⟩ := mem_sent_muxRun.mp hsent
    obtain ⟨-, hslot, hcause⟩ := Mux.mem_sends.mp hmem
    refine ⟨before, op, after, hops, hslot, ?_⟩
    rcases hcause with ⟨frame, receivedAt, hop, -⟩ | ⟨reason, hop, hterm, -⟩
    · exact Or.inl ⟨frame, receivedAt, hop⟩
    · exact Or.inr ⟨reason, hop, hterm⟩
  · rintro ⟨before, op, after, hops, hslot, hcause⟩
    have hlt := ((sound_muxRun before).slots id).mp (by simp [hslot])
    rcases hcause with ⟨frame, receivedAt, hop⟩ | ⟨reason, hop, hterm⟩
    · exact ⟨(id, .reply frame receivedAt), mem_sent_muxRun.mpr ⟨before, op, after, hops,
        Mux.mem_sends.mpr ⟨hlt, hslot, Or.inl ⟨frame, receivedAt, hop, rfl⟩⟩⟩, rfl⟩
    · exact ⟨(id, reason.delivery), mem_sent_muxRun.mpr ⟨before, op, after, hops,
        Mux.mem_sends.mpr ⟨hlt, hslot, Or.inr ⟨reason, hop, hterm, rfl⟩⟩⟩, rfl⟩

/-- A reply is a violation when it names an id that was never issued, or one that is answered. -/
lemma Mux.deliver_error_iff {m : Mux} (hid : ∀ id, (m.slots id).isSome ↔ id < m.nextId) (id : ℕ)
    (frame : String) (receivedAt : Rfc3339) :
    (∃ v, (m.deliver id frame receivedAt).2.2 = .error v) ↔
      m.nextId ≤ id ∨ m.slots id = some .answered := by
  by_cases hlt : id < m.nextId
  · obtain ⟨slot, hslot⟩ := Option.isSome_iff_exists.mp ((hid id).mpr hlt)
    rw [Mux.deliver, if_neg (by omega), hslot]
    cases slot <;> simp [hlt]
  · rw [Mux.deliver, if_pos (by omega)]
    simp [show m.nextId ≤ id by omega]

/-- **Ids are never reused, and replies are never attributed to another id**, in every order of
issuing, replying, expiring and ending.

**Proof sketch.** The table and the list of what was issued and sent are kept sound by every
operation (`sound_muxRun`): the ids that were issued are those below the next one, a slot moves from
pending to answered or tombstoned and never back (`Mux.slot_step`), and what was sent went to an id
in the step that answered it. A reply was therefore routed while its id was pending; and one that
finds its id answered, or not issued, is an error. -/
theorem id_lifecycle (ops : List MuxOp) :
    let r := muxRun ops
    -- the ids issued count up from zero, and at the top of the counter issuing stops for ever
    (r.issued = List.range r.mux.nextId ∧ r.mux.nextId ≤ U64_MAX ∧
      (r.mux.nextId = U64_MAX → ∀ later, (muxRun (ops ++ later)).mux.issue =
        ((muxRun (ops ++ later)).mux, none))) ∧
    (∀ id, (r.mux.slots id).isSome ↔ id ∈ r.issued) ∧
    (∀ op id slot, r.mux.slots id = some slot → (r.mux.apply op).slots id = some slot ∨
      slot = .pending ∧ ((r.mux.apply op).slots id = some .answered ∨
        (r.mux.apply op).slots id = some .tombstoned)) ∧
    (r.sent.map Prod.fst).Nodup ∧
    (∀ id frame receivedAt, (id, Delivery.reply frame receivedAt) ∈ r.sent →
      ∃ before after, ops = before ++ .deliver id frame receivedAt :: after ∧
        id ∈ (muxRun before).issued ∧ ∀ earlier rest, before = earlier ++ .tombstone id :: rest →
          id ∉ (muxRun earlier).issued) ∧
    (∀ id frame receivedAt, r.mux.slots id = some .tombstoned →
      r.mux.deliver id frame receivedAt = (r.mux, [], .ok .discarded)) ∧
    ∀ id frame receivedAt, (∃ v, (r.mux.deliver id frame receivedAt).2.2 = .error v) ↔
      id ∉ r.issued ∨ ∃ before op after, ops = before ++ op :: after ∧
        (muxRun before).mux.slots id = some .pending ∧
          ((∃ frame receivedAt, op = .deliver id frame receivedAt) ∨
            ∃ reason, op = .finish reason ∧ (muxRun before).mux.terminal = none) := by
  intro r
  have hsound : r.Sound := sound_muxRun ops
  have hissued (ops : List MuxOp) (id : ℕ) :
      id ∈ (muxRun ops).issued ↔ id < (muxRun ops).mux.nextId := by
    rw [(sound_muxRun ops).issued, List.mem_range]
  refine ⟨⟨hsound.issued, hsound.bounded, fun htop later => ?_⟩, fun id => ?_,
    fun op id slot hslot => ?_, hsound.once, fun id frame receivedAt hsent => ?_,
    fun id frame receivedAt hslot => ?_, fun id frame receivedAt => ?_⟩
  · have hle := nextId_muxRun_le ops later
    exact Mux.issue_of_le (htop ▸ hle)
  · rw [hsound.slots, hissued]
  · have hlt := (hsound.slots id).mp (by simp [hslot])
    rcases Mux.slot_step hsound.slots op id with
      ⟨-, hsame | ⟨hid, -, -⟩ | ⟨-, hbefore, hafter⟩⟩ | ⟨-, hbefore, hafter⟩
    · exact Or.inl (hsame.trans hslot)
    · omega
    · exact Or.inr ⟨Option.some.inj (hslot.symm.trans hbefore), Or.inr hafter⟩
    · exact Or.inr ⟨Option.some.inj (hslot.symm.trans hbefore), Or.inl hafter⟩
  · obtain ⟨before, op, after, hops, hmem⟩ := mem_sent_muxRun.mp hsent
    obtain ⟨hlt, hslot, hcause⟩ := Mux.mem_sends.mp hmem
    rcases hcause with ⟨frame', receivedAt', rfl, heq⟩ | ⟨reason, -, -, heq⟩
    · obtain ⟨rfl, rfl⟩ : frame = frame' ∧ receivedAt = receivedAt' := by simpa using heq
      refine ⟨before, after, hops, (hissued before id).mpr hlt, ?_⟩
      rintro earlier rest rfl hearlier
      -- an id that was tombstoned is not pending, and stays what it is
      obtain ⟨slot, hthen⟩ := Option.isSome_iff_exists.mp
        (((sound_muxRun (earlier ++ [.tombstone id])).slots id).mpr
          (lt_of_lt_of_le ((hissued earlier id).mp hearlier) (nextId_muxRun_le earlier _)))
      have hnot : slot ≠ .pending := by
        rintro rfl
        rw [muxRun_concat] at hthen
        exact Mux.slots_tombstone_ne (muxRun earlier).mux id hthen
      have hstays := slots_muxRun_append hthen hnot rest
      rw [List.append_assoc, List.singleton_append, hslot] at hstays
      exact hnot (Option.some.inj hstays).symm
    · cases reason <;> simp [Terminal.delivery] at heq
  · exact Mux.deliver_of_tombstoned ((hsound.slots id).mp (by simp [hslot])) hslot frame receivedAt
  · rw [Mux.deliver_error_iff hsound.slots, answered_iff, hissued, not_lt]

end Sumer.Host
