import Mathlib.Logic.Relation
import Sumer.Host.Mux

set_option relaxedAutoImplicit false
set_option autoImplicit false

/-!
# Calls on a connection

How a call is carried from its caller through the outbound queue, the pump and its reply task to
its outcome (`Mux::call`, `pump` in `core/host/src/mux.rs`), while the reader delivers replies and
the supervisor may end the connection at any time.

Each step is what one task does between two points at which another may come in: one critical
section on the id table, or one operation on a channel. Time is not modelled: a deadline may be
found expired at any poll that finds nothing else. Calls are numbered in the order they are made.

## Main definitions

* `Sumer.Host.Conn`: a connection, with every call that is on its way.
* `Sumer.Host.Step`: the steps of callers, pump, reply tasks, reader and supervisor.
* `Sumer.Host.Timely`: the steps that do not come too late.

## Main results

* `Sumer.Host.Step.table`: what a step does to the id table and to what is being sent.
* `Sumer.Host.Conn.Sound`: what holds in every reachable state.
* `Sumer.Host.none_left_behind`: when a connection's end leaves no call behind.
-/

namespace Sumer.Host

open Sumer.Wire Relation

/-- Outbound queue capacity. -/
def OUTBOUND_QUEUE_CAPACITY : ℕ := 64

/-- A call whose request was given an id. -/
structure Task where
  call : ℕ
  id : ℕ
deriving DecidableEq

/-- What the caller is told. -/
abbrev CallResult := Except HostError (String × Rfc3339)

/-- Where the pump stands. -/
inductive Pump where
  /-- Waits for a request or for the close. -/
  | idle
  /-- Took a request off the queue. -/
  | taken (call : ℕ)
  /-- Saw no terminal reason, and goes on to acquire a permit. -/
  | alive (call : ℕ)
  | permitted (call : ℕ)
  /-- Holds a permit and saw no terminal reason, and goes on to issue an id. -/
  | cleared (call : ℕ)
  | issued (task : Task)
  /-- The deadline passed in the middle of writing the frame. -/
  | cutShort (task : Task)
  /-- Goes on to end the connection itself. -/
  | stopping
  | leaving
  | returned

/-- The request that the pump holds. -/
def Pump.call : Pump → Option ℕ
  | .taken n | .alive n | .permitted n | .cleared n => some n
  | .issued t | .cutShort t => some t.call
  | _ => none

/-- The request that the pump holds, if it has an id. -/
def Pump.task : Pump → Option Task
  | .issued t | .cutShort t => some t
  | _ => none

/-- The permits the pump holds. -/
def Pump.permits : Pump → ℕ
  | .permitted _ | .cleared _ | .issued _ | .cutShort _ => 1
  | _ => 0

/-- A connection. -/
structure Conn where
  mux : Mux
  /-- Taken out of a slot, and not sent yet. -/
  outgoing : Sends
  /-- Sent, by id. -/
  channel : ℕ → Option Delivery
  permits : ℕ
  closing : Bool
  nextCall : ℕ
  /-- Calls that wait for room in the queue. -/
  entering : List ℕ
  queue : List ℕ
  /-- Calls whose request was dropped unsent. -/
  dropped : List ℕ
  pump : Pump
  /-- Reply tasks that wait for their channel. -/
  tasks : List Task
  /-- Reply tasks whose deadline has passed. -/
  expired : List Task
  results : List (ℕ × CallResult)

/-- A new connection. -/
def Conn.new : Conn where
  mux := Mux.new
  outgoing := []
  channel := fun _ => none
  permits := 1
  closing := false
  nextCall := 0
  entering := []
  queue := []
  dropped := []
  pump := .idle
  tasks := []
  expired := []
  results := []

/-- One critical section on the id table, and what it takes out to be sent. -/
@[simps]
def Conn.table (s : Conn) (op : MuxOp) : Conn :=
  { s with mux := s.mux.apply op, outgoing := s.outgoing ++ s.mux.sends op }

/-- Tells a caller the outcome of its call. -/
@[simps]
def Conn.resolve (s : Conn) (call : ℕ) (result : CallResult) : Conn :=
  { s with results := s.results ++ [(call, result)] }

/-- Gives a permit back. -/
@[simps]
def Conn.release (s : Conn) : Conn := { s with permits := s.permits + 1 }

/-- What to report for a call that cannot be completed because the connection is finished. -/
def Mux.terminalError (m : Mux) : HostError :=
  (m.terminal.map Terminal.error).getD (.adapterCrashed none)

/-- What a reply task makes of a delivery. -/
def Delivery.result : Delivery → CallResult
  | .reply frame receivedAt => .ok (frame, receivedAt)
  | .crashed status => .error (.adapterCrashed status)
  | .violation kind => .error (.protocolViolation kind)

/-- The names of the steps. -/
inductive ConnAction where
  | call
  | enqueue (n : ℕ)
  | giveUp (n : ℕ)
  | close
  | take
  | stop
  | look
  | expireQueued
  | acquire
  | issue
  | unserializable (message : String)
  | write
  | cutShort
  | tombstoneCut
  | finishCut
  | leave
  | receive (t : Task)
  | senderGone (t : Task)
  | expireTask (t : Task)
  | tombstoneTask (t : Task)
  | send (id : ℕ) (delivery : Delivery)
  | deliver (id : ℕ) (frame : String) (receivedAt : Rfc3339)
  | recordViolation (kind : ProtocolViolationKind)
  | finish (reason : Terminal)
  | raiseConcurrency (extra : ℕ)

/-- The steps of a connection. -/
inductive Step : Conn → ConnAction → Conn → Prop
  -- callers
  | callRefused {s : Conn} {t : Terminal} (h : s.mux.terminal = some t) :
      Step s .call ({ s with nextCall := s.nextCall + 1 }.resolve s.nextCall (.error t.error))
  | callEnters {s : Conn} (h : s.mux.terminal = none) :
      Step s .call { s with nextCall := s.nextCall + 1, entering := s.entering ++ [s.nextCall] }
  | enqueue {s : Conn} {n : ℕ} (h : n ∈ s.entering) (hpump : s.pump ≠ .returned)
      (hroom : s.queue.length < OUTBOUND_QUEUE_CAPACITY) :
      Step s (.enqueue n) { s with entering := s.entering.erase n, queue := s.queue ++ [n] }
  | outboxClosed {s : Conn} {n : ℕ} (h : n ∈ s.entering) (hpump : s.pump = .returned) :
      Step s (.enqueue n) { s with entering := s.entering.erase n, dropped := s.dropped ++ [n] }
  | giveUp {s : Conn} {n : ℕ} (h : n ∈ s.dropped) :
      Step s (.giveUp n)
        ({ s with dropped := s.dropped.erase n }.resolve n (.error s.mux.terminalError))
  | close {s : Conn} : Step s .close { s with closing := true }
  -- the pump
  | take {s : Conn} {n : ℕ} {rest : List ℕ} (hpump : s.pump = .idle) (h : s.queue = n :: rest) :
      Step s .take { s with pump := .taken n, queue := rest }
  | stop {s : Conn} (hpump : s.pump = .idle) (h : s.queue = []) (hclosing : s.closing = true) :
      Step s .stop { s with pump := .leaving, closing := false }
  | lookEnded {s : Conn} {n : ℕ} {t : Terminal} (hpump : s.pump = .taken n)
      (h : s.mux.terminal = some t) :
      Step s .look ({ s with pump := .idle }.resolve n (.error t.error))
  | lookAlive {s : Conn} {n : ℕ} (hpump : s.pump = .taken n) (h : s.mux.terminal = none) :
      Step s .look { s with pump := .alive n }
  | expireQueued {s : Conn} {n : ℕ} (hpump : s.pump = .alive n) :
      Step s .expireQueued ({ s with pump := .idle }.resolve n (.error .timeout))
  | acquire {s : Conn} {n : ℕ} (hpump : s.pump = .alive n) (h : 0 < s.permits) :
      Step s .acquire { s with pump := .permitted n, permits := s.permits - 1 }
  | lookAgainEnded {s : Conn} {n : ℕ} {t : Terminal} (hpump : s.pump = .permitted n)
      (h : s.mux.terminal = some t) :
      Step s .look ({ s with pump := .idle }.resolve n (.error t.error)).release
  | lookAgainAlive {s : Conn} {n : ℕ} (hpump : s.pump = .permitted n)
      (h : s.mux.terminal = none) :
      Step s .look { s with pump := .cleared n }
  | expireCleared {s : Conn} {n : ℕ} (hpump : s.pump = .cleared n) :
      Step s .expireQueued ({ s with pump := .idle }.resolve n (.error .timeout)).release
  | issue {s : Conn} {n id : ℕ} (hpump : s.pump = .cleared n) (h : s.mux.issue.2 = some id) :
      Step s .issue { s.table .issue with pump := .issued ⟨n, id⟩ }
  | idsExhausted {s : Conn} {n : ℕ} (hpump : s.pump = .cleared n) (h : s.mux.issue.2 = none) :
      Step s .issue
        ({ s.table .issue with pump := .idle }.resolve n (.error .idsExhausted)).release
  | unserializable {s : Conn} {t : Task} {message : String} (hpump : s.pump = .issued t) :
      Step s (.unserializable message) ({ s with pump := .idle }.resolve t.call
        (.error (.wire ⟨.internal, message⟩))).release
  /-- The frame was written, or the pipe turned out to be broken. -/
  | write {s : Conn} {t : Task} (hpump : s.pump = .issued t) :
      Step s .write { s with pump := .idle, tasks := s.tasks ++ [t] }
  | cutShort {s : Conn} {t : Task} (hpump : s.pump = .issued t) :
      Step s .cutShort { s with pump := .cutShort t }
  | tombstoneCut {s : Conn} {t : Task} (hpump : s.pump = .cutShort t) :
      Step s .tombstoneCut ({ s.table (.tombstone t.id) with pump := .stopping }.resolve t.call
        (.error .timeout)).release
  | finishCut {s : Conn} (hpump : s.pump = .stopping) :
      Step s .finishCut { s.table (.finish (.crashed none)) with pump := .leaving }
  | leave {s : Conn} (hpump : s.pump = .leaving) :
      Step s .leave { s with pump := .returned, dropped := s.dropped ++ s.queue, queue := [] }
  -- reply tasks
  | receive {s : Conn} {t : Task} {delivery : Delivery} (h : t ∈ s.tasks)
      (hchannel : s.channel t.id = some delivery) :
      Step s (.receive t)
        ({ s with tasks := s.tasks.erase t }.resolve t.call delivery.result).release
  | senderGone {s : Conn} {t : Task} (h : t ∈ s.tasks) (hchannel : s.channel t.id = none)
      (hout : t.id ∉ s.outgoing.map Prod.fst) (hslot : s.mux.slots t.id ≠ some .pending) :
      Step s (.senderGone t) ({ s with tasks := s.tasks.erase t }.resolve t.call
        (.error s.mux.terminalError)).release
  | expireTask {s : Conn} {t : Task} (h : t ∈ s.tasks) (hchannel : s.channel t.id = none) :
      Step s (.expireTask t)
        { s with tasks := s.tasks.erase t, expired := s.expired ++ [t] }
  | tombstoneTask {s : Conn} {t : Task} (h : t ∈ s.expired) :
      Step s (.tombstoneTask t) ({ s.table (.tombstone t.id) with
        expired := s.expired.erase t }.resolve t.call (.error .timeout)).release
  -- the reader, the supervisor and whoever leaves a critical section with something to send
  | send {s : Conn} {id : ℕ} {delivery : Delivery} (h : (id, delivery) ∈ s.outgoing) :
      Step s (.send id delivery) { s with
        outgoing := s.outgoing.erase (id, delivery)
        channel := Function.update s.channel id (some delivery) }
  | deliver {s : Conn} (id : ℕ) (frame : String) (receivedAt : Rfc3339) :
      Step s (.deliver id frame receivedAt) (s.table (.deliver id frame receivedAt))
  | recordViolation {s : Conn} (kind : ProtocolViolationKind) :
      Step s (.recordViolation kind) (s.table (.recordViolation kind))
  | finish {s : Conn} (reason : Terminal) : Step s (.finish reason) (s.table (.finish reason))
  | raiseConcurrency {s : Conn} (extra : ℕ) :
      Step s (.raiseConcurrency extra) { s with permits := s.permits + extra }

/-- A delivery is on its way to the call of an id. -/
def Conn.Carries (s : Conn) (id : ℕ) (delivery : Delivery) : Prop :=
  (id, delivery) ∈ s.outgoing ∨ s.channel id = some delivery

/-- A reply is on its way to the call of an id. -/
def Conn.Replied (s : Conn) (id : ℕ) : Prop :=
  ∃ frame receivedAt, s.Carries id (.reply frame receivedAt)

/-- A request was given an id and is not resolved yet. -/
def Conn.Holds (s : Conn) (t : Task) : Prop :=
  s.pump.task = some t ∨ t ∈ s.tasks ∨ t ∈ s.expired

/-- A call is resolved, or its id no longer pending: a reply to it was routed, or it expired. -/
def Conn.Settled (s : Conn) (n : ℕ) : Prop :=
  n ∈ s.results.map Prod.fst ∨ ∃ id, s.Holds ⟨n, id⟩ ∧ s.mux.slots id ≠ some .pending

/-- All calls: those on their way, wherever they are, and those resolved. -/
def Conn.calls (s : Conn) : Multiset ℕ :=
  s.entering + s.queue + s.dropped + s.pump.call.toList + s.tasks.map Task.call +
    s.expired.map Task.call + s.results.map Prod.fst

/-- The steps that do not come too late. A step that ends a call with anything but the terminal
reason, or issues an id, finds none latched; or a reply had been routed to the call before. -/
def Timely (s : Conn) : ConnAction → Prop
  | .issue | .expireQueued => s.mux.terminal = none
  | .unserializable _ | .tombstoneCut =>
    s.mux.terminal = none ∨ ∃ t, s.pump.task = some t ∧ s.Replied t.id
  | .tombstoneTask t => s.mux.terminal = none ∨ s.Replied t.id
  | _ => True

/-- The states reached by steps that meet a condition. -/
def Reaches (P : Conn → ConnAction → Prop) : Conn → Conn → Prop :=
  ReflTransGen fun s s' => ∃ a, Step s a s' ∧ P s a

/-- The steps that the connection takes by itself. Callers, the adapter, the supervisor and time
take the others. -/
def ConnAction.Internal : ConnAction → Prop
  | .call | .close | .expireQueued | .unserializable _ | .cutShort | .expireTask _
  | .deliver _ _ _ | .recordViolation _ | .finish _ | .raiseConcurrency _ => False
  | _ => True

/-- How far the pump is from returning. -/
def Pump.work : Pump → ℕ
  | .returned => 0
  | .leaving => 1
  | .idle | .stopping => 2
  | .cutShort _ => 3
  | .issued _ => 5
  | .cleared _ => 8
  | .permitted _ => 9
  | .alive _ => 10
  | .taken _ => 11

/-- A bound on what a connection can still do by itself. -/
def Conn.work (s : Conn) : ℕ :=
  11 * s.entering.length + 10 * s.queue.length + s.dropped.length + s.pump.work +
    2 * s.tasks.length + s.expired.length + 2 * s.mux.pending.length + s.outgoing.length

/-- Nothing moves by itself any more. -/
def Conn.AtRest (s : Conn) : Prop := ∀ a s', a.Internal → ¬ Step s a s'

section Steps

variable {s s' : Conn} {a : ConnAction}

/-- **What a step does to the id table and to what is being sent**: one critical section, one
sending, or nothing. -/
lemma Step.table (h : Step s a s') :
    (∃ op, (op = .issue → a = .issue) ∧ s'.mux = s.mux.apply op ∧
      s'.outgoing = s.outgoing ++ s.mux.sends op ∧ s'.channel = s.channel) ∨
    (s'.mux = s.mux ∧ ((s'.outgoing = s.outgoing ∧ s'.channel = s.channel) ∨
      ∃ x ∈ s.outgoing, s'.outgoing = s.outgoing.erase x ∧
        s'.channel = Function.update s.channel x.1 (some x.2))) := by
  cases h with
  | issue | idsExhausted => exact Or.inl ⟨.issue, fun _ => rfl, rfl, rfl, rfl⟩
  | tombstoneCut hpump => exact Or.inl ⟨.tombstone _, nofun, rfl, rfl, rfl⟩
  | tombstoneTask => exact Or.inl ⟨.tombstone _, nofun, rfl, rfl, rfl⟩
  | finishCut | finish => exact Or.inl ⟨.finish _, nofun, rfl, rfl, rfl⟩
  | deliver => exact Or.inl ⟨.deliver _ _ _, nofun, rfl, rfl, rfl⟩
  | recordViolation => exact Or.inl ⟨.recordViolation _, nofun, rfl, rfl, rfl⟩
  | send h => exact Or.inr ⟨rfl, Or.inr ⟨_, h, rfl, rfl⟩⟩
  | _ => exact Or.inr ⟨rfl, Or.inl ⟨rfl, rfl⟩⟩

/-- What a step carries on its way, it carried before or takes out of a pending slot.

**Proof sketch.** A step that operates on the table sends what the operation says, to ids that were
pending; one that hands a delivery on only moves it from the way to the channel; no other step
touches either. -/
lemma Step.carries (h : Step s a s') {id : ℕ} {delivery : Delivery}
    (hcarries : s'.Carries id delivery) :
    s.Carries id delivery ∨ ∃ op, s'.mux = s.mux.apply op ∧ (id, delivery) ∈ s.mux.sends op := by
  rcases h.table with
    ⟨op, -, hmux, hout, hchannel⟩ | ⟨hmux, ⟨hout, hchannel⟩ | ⟨x, hx, hout, hchannel⟩⟩
  · rcases hcarries with hmem | hmem
    · rw [hout, List.mem_append] at hmem
      rcases hmem with hmem | hmem
      · exact Or.inl (Or.inl hmem)
      · exact Or.inr ⟨op, hmux, hmem⟩
    · exact Or.inl (Or.inr (hchannel ▸ hmem))
  · exact Or.inl (by rwa [Conn.Carries, ← hout, ← hchannel])
  · refine Or.inl ?_
    rcases hcarries with hmem | hmem
    · exact Or.inl (List.mem_of_mem_erase (hout ▸ hmem))
    · rw [hchannel, Function.update_apply] at hmem
      split_ifs at hmem with hid
      · left
        obtain rfl := Option.some.inj hmem
        rw [hid]
        exact hx
      · exact Or.inr hmem

/-- What a step leaves held was held before, unless it issued an id.

**Proof sketch.** By where the request is held after the step. The pump has it in hand after a step
only if it had it before, or handed on its own; a task that is new was the pump's request, and an
expired one was a task. -/
lemma Step.holds (h : Step s a s') (hissue : a ≠ .issue) {t : Task} (hholds : s'.Holds t) :
    s.Holds t := by
  rcases hholds with hpump | htask | hexpired
  · cases h with
    | issue | idsExhausted => exact absurd rfl hissue
    | cutShort h => exact Or.inl (by rw [h]; exact hpump)
    | enqueue | outboxClosed | giveUp | close | callRefused | callEnters | receive | senderGone
    | expireTask | tombstoneTask | send | deliver | recordViolation | finish
    | raiseConcurrency => exact Or.inl hpump
    | _ => simp [Pump.task] at hpump
  · cases h with
    | issue | idsExhausted => exact absurd rfl hissue
    | write h =>
      rcases List.mem_append.mp htask with htask | htask
      · exact Or.inr (Or.inl htask)
      · obtain rfl := List.mem_singleton.mp htask
        exact Or.inl (by rw [h]; rfl)
    | receive | senderGone | expireTask =>
      exact Or.inr (Or.inl (List.mem_of_mem_erase htask))
    | _ => exact Or.inr (Or.inl htask)
  · cases h with
    | issue | idsExhausted => exact absurd rfl hissue
    | expireTask h =>
      rcases List.mem_append.mp hexpired with hexpired | hexpired
      · exact Or.inr (Or.inr hexpired)
      · obtain rfl := List.mem_singleton.mp hexpired
        exact Or.inr (Or.inl h)
    | tombstoneTask => exact Or.inr (Or.inr (List.mem_of_mem_erase hexpired))
    | _ => exact Or.inr (Or.inr hexpired)

/-- **What a step tells callers once a terminal reason is latched**: that reason; or the delivery
on its way to the call of an id; or something else, to a call whose id a reply was routed to.

**Proof sketch.** A case for each step that adds a result. The steps that tell of anything else than
the terminal reason do not come once one is latched, because they would be late; of those that may
still come, the call had been sent a reply before. A task that receives is told what was on its way
to it. -/
lemma Step.results (h : Step s a s') (htimely : Timely s a) {t : Terminal}
    (hterm : s.mux.terminal = some t) {n : ℕ} {result : CallResult}
    (hresult : (n, result) ∈ s'.results) :
    (n, result) ∈ s.results ∨ result = .error t.error ∨
      ∃ id, s.Holds ⟨n, id⟩ ∧ ((∃ delivery, s.Carries id delivery ∧ result = delivery.result) ∨
        s.Replied id) := by
  have herror : s.mux.terminalError = t.error := by simp [Mux.terminalError, hterm]
  have hlate : s.mux.terminal ≠ none := by simp [hterm]
  -- a step that resolves a call adds its outcome to those there are
  have hadds {call : ℕ} {r : CallResult} (hmem : (n, result) ∈ s.results ++ [(call, r)]) :
      (n, result) ∈ s.results ∨ n = call ∧ result = r := by
    simpa using hmem
  cases h with
  | callRefused h =>
    rcases hadds hresult with hold | ⟨rfl, rfl⟩
    · exact Or.inl hold
    · rw [Option.some.inj (hterm.symm.trans h)]
      exact Or.inr (Or.inl rfl)
  | giveUp | senderGone =>
    rcases hadds hresult with hold | ⟨rfl, rfl⟩
    · exact Or.inl hold
    · exact Or.inr (Or.inl (congrArg Except.error herror))
  | lookEnded hpump h | lookAgainEnded hpump h =>
    rcases hadds hresult with hold | ⟨rfl, rfl⟩
    · exact Or.inl hold
    · rw [Option.some.inj (hterm.symm.trans h)]
      exact Or.inr (Or.inl rfl)
  | expireQueued | expireCleared | issue | idsExhausted => exact absurd htimely hlate
  | unserializable hpump =>
    rcases hadds hresult with hold | ⟨rfl, rfl⟩
    · exact Or.inl hold
    · obtain ⟨t', htask, hreplied⟩ := htimely.resolve_left hlate
      rw [hpump] at htask
      obtain rfl := Option.some.inj htask
      exact Or.inr (Or.inr ⟨_, Or.inl (by rw [hpump]; rfl), Or.inr hreplied⟩)
  | tombstoneCut hpump =>
    rcases hadds hresult with hold | ⟨rfl, rfl⟩
    · exact Or.inl hold
    · obtain ⟨t', htask, hreplied⟩ := htimely.resolve_left hlate
      rw [hpump] at htask
      obtain rfl := Option.some.inj htask
      exact Or.inr (Or.inr ⟨_, Or.inl (by rw [hpump]; rfl), Or.inr hreplied⟩)
  | receive h hchannel =>
    rcases hadds hresult with hold | ⟨rfl, rfl⟩
    · exact Or.inl hold
    · exact Or.inr (Or.inr ⟨_, Or.inr (Or.inl h), Or.inl ⟨_, Or.inr hchannel, rfl⟩⟩)
  | tombstoneTask h =>
    rcases hadds hresult with hold | ⟨rfl, rfl⟩
    · exact Or.inl hold
    · exact Or.inr (Or.inr ⟨_, Or.inr (Or.inr h), Or.inr (htimely.resolve_left hlate)⟩)
  | _ => exact Or.inl hresult

/-- **A step loses and duplicates no call**: it moves one on, or makes a new one.

**Proof sketch.** A case for each kind of step. A new call is added to those on their way, or
resolved at once when the connection has ended. Every other step takes a call out of one of the
places and puts it into another, of which the results are one: as multisets the places have the same
calls before and after. -/
lemma Step.calls (h : Step s a s') :
    (s'.calls = s.calls ∧ s'.nextCall = s.nextCall) ∨
      (s'.calls = s.calls + {s.nextCall} ∧ s'.nextCall = s.nextCall + 1) := by
  have herase {l : List ℕ} {n : ℕ} (h : n ∈ l) : (l : Multiset ℕ) = {n} + ↑(l.erase n) :=
    Multiset.coe_eq_coe.mpr (List.perm_cons_erase h)
  have heraseTask {l : List Task} {t : Task} (h : t ∈ l) :
      (l.map Task.call : Multiset ℕ) = {t.call} + ↑((l.erase t).map Task.call) :=
    Multiset.coe_eq_coe.mpr ((List.perm_cons_erase h).map Task.call)
  have hadd (l l' : List ℕ) : ((l ++ l' : List ℕ) : Multiset ℕ) = l + l' := rfl
  have hone (n : ℕ) : (([n] : List ℕ) : Multiset ℕ) = {n} := rfl
  have hnil : (([] : List ℕ) : Multiset ℕ) = 0 := rfl
  unfold Conn.calls
  cases h with
  | callRefused h =>
    refine Or.inr ⟨?_, rfl⟩
    simp only [Conn.resolve, List.map_append, List.map_cons, List.map_nil, hadd, hone]
    abel
  | callEnters h =>
    refine Or.inr ⟨?_, rfl⟩
    simp only [hadd, hone]
    abel
  | enqueue h | outboxClosed h =>
    refine Or.inl ⟨?_, rfl⟩
    simp only [hadd, hone, herase h]
    abel
  | giveUp h =>
    refine Or.inl ⟨?_, rfl⟩
    simp only [Conn.resolve, List.map_append, List.map_cons, List.map_nil, hadd, hone, herase h]
    abel
  | @take n rest hpump h =>
    refine Or.inl ⟨?_, rfl⟩
    have hqueue : (s.queue : Multiset ℕ) = {n} + ↑rest := by
      rw [h]
      rfl
    simp only [hpump, hqueue, Pump.call, Option.toList_some, Option.toList_none, hone, hnil]
    abel
  | leave hpump =>
    refine Or.inl ⟨?_, rfl⟩
    simp only [hpump, hadd, hnil, Pump.call, Option.toList_none]
    abel
  | receive h | senderGone h =>
    refine Or.inl ⟨?_, rfl⟩
    simp only [Conn.resolve, Conn.release, List.map_append, List.map_cons, List.map_nil, hadd,
      hone, heraseTask h]
    abel
  | expireTask h =>
    refine Or.inl ⟨?_, rfl⟩
    simp only [List.map_append, List.map_cons, List.map_nil, hadd, hone, heraseTask h]
    abel
  | tombstoneTask h =>
    refine Or.inl ⟨?_, rfl⟩
    simp only [Conn.resolve, Conn.release, Conn.table, List.map_append, List.map_cons,
      List.map_nil, hadd, hone, heraseTask h]
    abel
  | stop hpump | lookAlive hpump | acquire hpump | lookAgainAlive hpump | issue hpump
  | cutShort hpump | finishCut hpump =>
    exact Or.inl ⟨by simp [hpump, Pump.call, Conn.table], rfl⟩
  | lookEnded hpump | expireQueued hpump | lookAgainEnded hpump | expireCleared hpump
  | idsExhausted hpump | unserializable hpump | tombstoneCut hpump =>
    refine Or.inl ⟨?_, rfl⟩
    simp only [Conn.resolve, Conn.release, Conn.table, hpump, Pump.call, Option.toList_some,
      Option.toList_none, List.map_append, List.map_cons, List.map_nil, hadd, hone, hnil]
    abel
  | write hpump =>
    refine Or.inl ⟨?_, rfl⟩
    simp only [hpump, Pump.call, Option.toList_some, Option.toList_none, List.map_append,
      List.map_cons, List.map_nil, hadd, hone, hnil]
    abel
  | _ => exact Or.inl ⟨rfl, rfl⟩

end Steps

/-- **What holds in every reachable state.** -/
structure Conn.Sound (s : Conn) : Prop where
  slots : ∀ id, (s.mux.slots id).isSome ↔ id < s.mux.nextId
  /-- An id to whose call something is on its way is answered. -/
  carried : ∀ id delivery, s.Carries id delivery → s.mux.slots id = some .answered
  closed : s.pump = .returned → s.queue = []
  /-- Permits are only held by who gives them back. -/
  permits : 1 ≤ s.permits + s.pump.permits + s.tasks.length + s.expired.length
  /-- Every call made is on its way or resolved, in exactly one place. -/
  calls : s.calls = Multiset.range s.nextCall

section Sound

variable {s s' : Conn} {a : ConnAction}

/-- A new connection is sound: nothing was issued, nothing is on its way, and no call was made. -/
lemma Conn.sound_new : Conn.new.Sound where
  slots := by simp [Conn.new, Mux.new]
  carried := by simp [Conn.new, Conn.Carries]
  closed := nofun
  permits := by simp [Conn.new]
  calls := by simp [Conn.new, Conn.calls, Pump.call]

/-- No queue is left behind by a pump that has returned. -/
lemma Step.closed (h : Step s a s') (hclosed : s.pump = .returned → s.queue = [])
    (hpump : s'.pump = .returned) : s'.queue = [] := by
  cases h with
  | leave => rfl
  | enqueue _ hopen => exact absurd hpump hopen
  | callRefused | callEnters | outboxClosed | giveUp | close | receive | senderGone | expireTask
  | tombstoneTask | send | deliver | recordViolation | finish | raiseConcurrency =>
    exact hclosed hpump
  | _ => simp at hpump

/-- Permits that are taken are held by a request that has one.

**Proof sketch.** By the kind of the step. A request that is handed on takes its permit along, one
that is done gives it back, and raising the concurrency adds permits; every other step leaves the
four numbers. -/
lemma Step.permits (h : Step s a s')
    (hpermits : 1 ≤ s.permits + s.pump.permits + s.tasks.length + s.expired.length) :
    1 ≤ s'.permits + s'.pump.permits + s'.tasks.length + s'.expired.length := by
  cases h with
  | receive h | senderGone h =>
    have hlength := List.length_erase_of_mem h
    have hpos := List.length_pos_of_mem h
    simp only [Conn.release_permits, Conn.resolve_permits, Conn.release_pump, Conn.resolve_pump,
      Conn.release_tasks, Conn.resolve_tasks, Conn.release_expired, Conn.resolve_expired]
    omega
  | expireTask h =>
    have hlength := List.length_erase_of_mem h
    have hpos := List.length_pos_of_mem h
    simp only [List.length_append, List.length_singleton]
    omega
  | tombstoneTask h =>
    simp only [Conn.release_permits, Conn.resolve_permits]
    omega
  | take hpump | stop hpump | lookEnded hpump | lookAlive hpump | expireQueued hpump
  | acquire hpump | lookAgainEnded hpump | lookAgainAlive hpump | expireCleared hpump
  | issue hpump | idsExhausted hpump | unserializable hpump | write hpump | cutShort hpump
  | tombstoneCut hpump | finishCut hpump | leave hpump =>
    simp [hpump, Pump.permits] at hpermits ⊢
    try omega
  | raiseConcurrency extra =>
    show 1 ≤ s.permits + extra + s.pump.permits + s.tasks.length + s.expired.length
    omega
  | _ => exact hpermits

/-- **A step keeps a connection sound**: the ids on its table are those issued, what is on its way
goes to an answered id, the permits are accounted for, and every call is in one place.

**Proof sketch.** By the fields, each from what one step can do: to the table, to what is on its
way, to the queue, to the permits and to the calls. -/
lemma Conn.Sound.step (hs : s.Sound) (h : Step s a s') : s'.Sound where
  slots id := by
    rcases h.table with ⟨op, -, hmux, -, -⟩ | ⟨hmux, -⟩
    · obtain ⟨hnext, hissues, -⟩ := s.mux.nextId_apply op
      rw [hmux, Mux.isSome_slots_apply, hs.slots, hissues, hnext, List.mem_range'_1]
      omega
    · rw [hmux]
      exact hs.slots id
  carried id delivery hcarries := by
    rcases h.carries hcarries with hold | ⟨op, hmux, hmem⟩
    · have hanswered := hs.carried id delivery hold
      rcases h.table with ⟨op, -, hmux, -, -⟩ | ⟨hmux, -⟩
      · rw [hmux]
        exact Mux.slots_apply_of_answered hs.slots hanswered op
      · rwa [hmux]
    · rw [hmux]
      exact Mux.slots_apply_of_sends hs.slots hmem
  closed := h.closed hs.closed
  permits := h.permits hs.permits
  calls := by
    rcases h.calls with ⟨hcalls, hnext⟩ | ⟨hcalls, hnext⟩
    · rw [hcalls, hnext, hs.calls]
    · rw [hcalls, hnext, hs.calls, Multiset.range_succ, add_comm, Multiset.singleton_add]

/-- **The invariant rule.** What a new connection and every step that meets a condition keeps
holds in every state reached by such steps. -/
lemma Reaches.sound {P : Conn → ConnAction → Prop} (h : Reaches P s s') (hs : s.Sound) :
    s'.Sound := by
  induction h with
  | refl => exact hs
  | tail _ hstep ih =>
    obtain ⟨a, hstep, -⟩ := hstep
    exact ih.step hstep

end Sound

/-! ### The end of a connection -/

/-- A connection that has ended for a reason: no id is pending, and the calls that were not
settled then are told the reason or will be. -/
structure Conn.Ended (unsettled : ℕ → Prop) (t : Terminal) (s : Conn) : Prop where
  terminal : s.mux.terminal = some t
  drained : ∀ id, s.mux.slots id ≠ some .pending
  told : ∀ n result, (n, result) ∈ s.results → unsettled n → result = .error t.error
  carried : ∀ n id, s.Holds ⟨n, id⟩ → unsettled n → ∀ delivery, s.Carries id delivery →
    delivery = t.delivery

section Ended

variable {s s' : Conn} {a : ConnAction} {t : Terminal}

/-- A call that gets a terminal reason is told it. -/
lemma Terminal.result_delivery (t : Terminal) : t.delivery.result = .error t.error := by
  cases t <;> rfl

/-- A terminal reason that was not there before was latched by a finish, which told no caller
anything yet.

**Proof sketch.** Only a finish writes a reason where there was none (`Mux.terminal_apply`), and two
steps finish: the exit of the adapter, and the write that was cut short. Both put what the finish
sends on the way and do nothing else. -/
lemma Step.latches (h : Step s a s') (hnone : s.mux.terminal = none)
    (hterm : s'.mux.terminal = some t) :
    s'.mux = s.mux.apply (.finish t) ∧ s'.outgoing = s.outgoing ++ s.mux.sends (.finish t) ∧
      s'.channel = s.channel ∧ s'.results = s.results ∧ a ≠ .issue := by
  have hop {op : MuxOp} (heq : (s.mux.apply op).terminal = some t) : op = .finish t := by
    rcases s.mux.terminal_apply op with hsame | ⟨reason, rfl, -, hreason⟩
    · rw [hsame, hnone] at heq
      cases heq
    · rw [Option.some.inj (hreason.symm.trans heq)]
  cases h with
  | finish reason =>
    obtain rfl : reason = t := by simpa using hop hterm
    exact ⟨rfl, rfl, rfl, rfl, nofun⟩
  | finishCut =>
    obtain rfl : Terminal.crashed none = t := by simpa using hop hterm
    exact ⟨rfl, rfl, rfl, rfl, nofun⟩
  | issue | idsExhausted | tombstoneCut | tombstoneTask | deliver | recordViolation =>
    have hbad := hop hterm
    simp at hbad
  | _ =>
    have hbad := hnone.symm.trans hterm
    simp at hbad

/-- **The step that ends a connection** leaves no id pending, and a reason on its way to every
call that is not settled.

**Proof sketch.** The step is a finish, the first one: it answers every pending id with its reason
(`Mux.not_pending_finish`). A call that is not settled has an id that was pending, so what is sent
to it is the reason; and nothing had been sent to that id before. -/
lemma Conn.Sound.ended (hs : s.Sound) (h : Step s a s') (hnone : s.mux.terminal = none)
    (hterm : s'.mux.terminal = some t) : s'.Ended (fun n => ¬ s.Settled n) t := by
  obtain ⟨hmux, hout, hchannel, hresults, hissue⟩ := h.latches hnone hterm
  refine ⟨hterm, fun id => ?_, fun n result hresult hopen => ?_,
    fun n id hholds hopen delivery hcarries => ?_⟩
  · rw [hmux]
    exact Mux.not_pending_finish hnone t id
  · rw [hresults] at hresult
    exact absurd (Or.inl (List.mem_map_of_mem hresult)) hopen
  · have hbefore := h.holds hissue hholds
    have hslot : s.mux.slots id = some .pending := by
      by_contra hnot
      exact hopen (Or.inr ⟨id, hbefore, hnot⟩)
    rcases h.carries hcarries with hold | ⟨op, hop, hmem⟩
    · have hanswered := hs.carried id delivery hold
      rw [hslot] at hanswered
      simp at hanswered
    · obtain ⟨-, -, hcause⟩ := Mux.mem_sends.mp hmem
      have hsame := hop.symm.trans hmux
      have hthen : (s.mux.apply op).terminal = some t := by
        rw [← hop]
        exact hterm
      rcases s.mux.terminal_apply op with hkept | ⟨reason, rfl, -, hreason⟩
      · rw [hkept, hnone] at hthen
        cases hthen
      · obtain rfl := Option.some.inj (hreason.symm.trans hthen)
        rcases hcause with ⟨_, _, heq, -⟩ | ⟨reason', heq, -, hdelivery⟩
        · cases heq
        · obtain rfl : reason = reason' := by simpa using heq
          exact hdelivery

/-- **The step lemma** for a connection that has ended.

**Proof sketch.** Nothing is issued any more, since that would be late, and no slot becomes pending
by another operation; the reason stays latched. A call that is told something is told the reason, or
what is on its way to it, which is the reason too (`Step.results`); and nothing else is sent after
that. -/
lemma Conn.Ended.step {unsettled : ℕ → Prop} (hended : s.Ended unsettled t) (hs : s.Sound)
    (h : Step s a s') (htimely : Timely s a) : s'.Ended unsettled t := by
  have hissue : a ≠ .issue := by
    rintro rfl
    rw [Timely, hended.terminal] at htimely
    cases htimely
  refine ⟨?_, fun id => ?_, fun n result hresult hopen => ?_,
    fun n id hholds hopen delivery hcarries => ?_⟩
  · rcases h.table with ⟨op, -, hmux, -, -⟩ | ⟨hmux, -⟩
    · rw [hmux]
      rcases s.mux.terminal_apply op with hsame | ⟨-, -, hnone, -⟩
      · rw [hsame, hended.terminal]
      · rw [hended.terminal] at hnone
        cases hnone
    · rw [hmux, hended.terminal]
  · rcases h.table with ⟨op, hop, hmux, -, -⟩ | ⟨hmux, -⟩
    · rw [hmux]
      exact Mux.not_pending_apply hs.slots (fun heq => hissue (hop heq)) (hended.drained id)
    · rw [hmux]
      exact hended.drained id
  · rcases h.results htimely hended.terminal hresult with
      hold | htold | ⟨id, hholds, ⟨delivery, hcarries, rfl⟩ | ⟨frame, receivedAt, hcarries⟩⟩
    · exact hended.told n result hold hopen
    · exact htold
    · rw [hended.carried n id hholds hopen delivery hcarries]
      exact t.result_delivery
    · have hdelivery := hended.carried n id hholds hopen _ hcarries
      cases t <;> cases hdelivery
  · have hbefore := h.holds hissue hholds
    rcases h.carries hcarries with hold | ⟨op, -, hmem⟩
    · exact hended.carried n id hbefore hopen delivery hold
    · exact absurd (Mux.mem_sends.mp hmem).2.1 (hended.drained id)

/-- **The run lemma** for a connection that has ended. -/
lemma Conn.Ended.reaches {unsettled : ℕ → Prop} (hended : s.Ended unsettled t) (hs : s.Sound)
    (h : Reaches Timely s s') : s'.Ended unsettled t := by
  induction h with
  | refl => exact hended
  | tail hreach hstep ih =>
    obtain ⟨a, hstep, htimely⟩ := hstep
    exact ih.step (Reaches.sound hreach hs) hstep htimely

/-- In every state reached in time, no id is pending once the connection has ended. -/
lemma Reaches.drained (h : Reaches Timely Conn.new s) (hterm : s.mux.terminal = some t) (id : ℕ) :
    s.mux.slots id ≠ some .pending := by
  induction h generalizing t with
  | refl => simp [Conn.new, Mux.new]
  | @tail s₀ s₁ hreach hstep ih =>
    obtain ⟨a, hstep, htimely⟩ := hstep
    have hs := Reaches.sound hreach Conn.sound_new
    cases hnone : s₀.mux.terminal with
    | none => exact (hs.ended hstep hnone hterm).drained id
    | some t' =>
      rcases hstep.table with ⟨op, hop, hmux, -, -⟩ | ⟨hmux, -⟩
      · rw [hmux]
        refine Mux.not_pending_apply hs.slots (fun heq => ?_) (ih hnone)
        rw [hop heq, Timely, hnone] at htimely
        cases htimely
      · rw [hmux]
        exact ih hnone

/-- **Nothing rests while a call is on its way**, once the connection has ended and no id is
pending.

**Proof sketch.** Whatever is still on its way could move: a delivery could be sent or received, a
task whose sender is gone could be told so, an expired one could tombstone its id, a dropped request
could be given up, and the pump could go on, since a permit is free when no task holds one. So
nothing is on its way, and all calls are among the results. -/
lemma Conn.Sound.results_at_rest (hs : s.Sound) (hterm : s.mux.terminal = some t)
    (hdrained : ∀ id, s.mux.slots id ≠ some .pending) (hrest : s.AtRest) :
    (s.results.map Prod.fst : Multiset ℕ) = Multiset.range s.nextCall := by
  have hout : s.outgoing = [] := by
    refine List.eq_nil_iff_forall_not_mem.mpr fun x hx => ?_
    exact hrest (.send x.1 x.2) _ trivial (.send hx)
  have htasks : s.tasks = [] := by
    refine List.eq_nil_iff_forall_not_mem.mpr fun task htask => ?_
    cases hchannel : s.channel task.id with
    | some delivery => exact hrest (.receive task) _ trivial (.receive htask hchannel)
    | none =>
      exact hrest (.senderGone task) _ trivial
        (.senderGone htask hchannel (by simp [hout]) (hdrained task.id))
  have hexpired : s.expired = [] := by
    refine List.eq_nil_iff_forall_not_mem.mpr fun task htask => ?_
    exact hrest (.tombstoneTask task) _ trivial (.tombstoneTask htask)
  have hdropped : s.dropped = [] := by
    refine List.eq_nil_iff_forall_not_mem.mpr fun n hn => ?_
    exact hrest (.giveUp n) _ trivial (.giveUp hn)
  -- the pump can always go on, unless it waits for a request or has returned
  have hpump : s.pump.call = none ∧ s.queue = [] ∧ s.entering = [] := by
    have hpermits := hs.permits
    rw [htasks, hexpired] at hpermits
    cases hpump : s.pump with
    | idle =>
      have hqueue : s.queue = [] := by
        cases hqueue : s.queue with
        | nil => rfl
        | cons n rest => exact absurd (.take hpump hqueue) (hrest .take _ trivial)
      refine ⟨rfl, hqueue, List.eq_nil_iff_forall_not_mem.mpr fun n hn => ?_⟩
      exact hrest (.enqueue n) _ trivial
        (.enqueue hn (by simp [hpump]) (by simp [hqueue, OUTBOUND_QUEUE_CAPACITY]))
    | taken n => exact absurd (.lookEnded hpump hterm) (hrest .look _ trivial)
    | alive n =>
      have hpos : 1 ≤ s.permits := by simpa [hpump, Pump.permits] using hpermits
      exact absurd (.acquire hpump hpos) (hrest .acquire _ trivial)
    | permitted n => exact absurd (.lookAgainEnded hpump hterm) (hrest .look _ trivial)
    | cleared n =>
      cases hissue : s.mux.issue.2 with
      | some id => exact absurd (.issue hpump hissue) (hrest .issue _ trivial)
      | none => exact absurd (.idsExhausted hpump hissue) (hrest .issue _ trivial)
    | issued task => exact absurd (.write hpump) (hrest .write _ trivial)
    | cutShort task => exact absurd (.tombstoneCut hpump) (hrest .tombstoneCut _ trivial)
    | stopping => exact absurd (.finishCut hpump) (hrest .finishCut _ trivial)
    | leaving => exact absurd (.leave hpump) (hrest .leave _ trivial)
    | returned =>
      refine ⟨rfl, hs.closed hpump, List.eq_nil_iff_forall_not_mem.mpr fun n hn => ?_⟩
      exact hrest (.enqueue n) _ trivial (.outboxClosed hn hpump)
  rw [← hs.calls, Conn.calls, hpump.1, hpump.2.1, hpump.2.2, hdropped, htasks, hexpired]
  simp

/-- **Nothing moves by itself for ever.**

**Proof sketch.** Every internal step takes some part of the sum down: a call leaves the queue it
waits in, the pump comes closer to returning, a reply task ends, or something is sent. What it puts
elsewhere weighs less, since the weights count the steps that a call has still to take; and an
operation on the table sends at most twice as much as it leaves fewer ids pending
(`Mux.length_pending_apply`). -/
lemma Step.work (h : Step s a s') (ha : a.Internal) : s'.work < s.work := by
  unfold Conn.work
  have hpending (op : MuxOp) (hop : op ≠ .issue) := s.mux.length_pending_apply op hop
  cases h with
  | enqueue h | outboxClosed h =>
    have hlength := List.length_erase_of_mem h
    have hpos := List.length_pos_of_mem h
    simp only [List.length_append, List.length_singleton]
    omega
  | giveUp h =>
    have hlength := List.length_erase_of_mem h
    have hpos := List.length_pos_of_mem h
    simp only [Conn.resolve]
    omega
  | take hpump h =>
    simp only [hpump, h, Pump.work, List.length_cons]
    omega
  | receive h | senderGone h =>
    have hlength := List.length_erase_of_mem h
    have hpos := List.length_pos_of_mem h
    simp only [Conn.resolve, Conn.release]
    omega
  | @tombstoneTask task h =>
    have hlength := List.length_erase_of_mem h
    have hpos := List.length_pos_of_mem h
    have hle := hpending (.tombstone task.id) (by simp)
    simp only [Conn.resolve, Conn.release, Conn.table, List.length_append] at hle ⊢
    omega
  | send h =>
    have hlength := List.length_erase_of_mem h
    have hpos := List.length_pos_of_mem h
    dsimp only
    omega
  | leave hpump =>
    simp only [hpump, Pump.work, List.length_append, List.length_nil]
    omega
  | issue hpump | idsExhausted hpump =>
    have hle := s.mux.length_pending_issue
    simp only [Conn.resolve, Conn.release, Conn.table, hpump, Pump.work, Mux.sends,
      List.append_nil]
    omega
  | @tombstoneCut task hpump =>
    have hle := hpending (.tombstone task.id) (by simp)
    simp only [Conn.resolve, Conn.release, Conn.table, hpump, Pump.work,
      List.length_append] at hle ⊢
    omega
  | finishCut hpump =>
    have hle := hpending (.finish (.crashed none)) (by simp)
    simp only [Conn.table, hpump, Pump.work, List.length_append] at hle ⊢
    omega
  | write hpump =>
    simp only [hpump, Pump.work, List.length_append, List.length_singleton]
    omega
  | stop hpump | lookEnded hpump | lookAlive hpump | acquire hpump | lookAgainEnded hpump
  | lookAgainAlive hpump =>
    simp only [Conn.resolve, Conn.release, hpump, Pump.work]
    omega
  | _ => exact ha.elim

end Ended

/-- **No call is left behind when a connection ends**, in every run whose steps come in time. In
every state with a terminal reason no id is pending. The calls that were not settled when the
reason was latched, and those made later, are told that reason and nothing else; nothing moves by
itself for ever, and when nothing moves any more every call has been told its outcome, once. -/
theorem none_left_behind (s : Conn) (t : Terminal) :
    (Reaches Timely Conn.new s → s.mux.terminal = some t →
      ∀ id, s.mux.slots id ≠ some .pending) ∧
    ∀ s₀ a s₁, Reaches Timely Conn.new s₀ → s₀.mux.terminal = none → Step s₀ a s₁ →
      Timely s₀ a → s₁.mux.terminal = some t → Reaches Timely s₁ s →
        (∀ n result, (n, result) ∈ s.results → ¬ s₀.Settled n → result = .error t.error) ∧
        (∀ a s', a.Internal → Step s a s' → s'.work < s.work) ∧
        (s.AtRest → (s.results.map Prod.fst : Multiset ℕ) = Multiset.range s.nextCall) := by
  refine ⟨fun hreach hterm => hreach.drained hterm,
    fun s₀ a s₁ hreach hnone hstep _ hterm hlater => ?_⟩
  have hs₀ : s₀.Sound := hreach.sound Conn.sound_new
  have hs₁ : s₁.Sound := hs₀.step hstep
  have hended : s.Ended (fun n => ¬ s₀.Settled n) t :=
    (hs₀.ended hstep hnone hterm).reaches hs₁ hlater
  exact ⟨hended.told, fun a s' ha h => h.work ha,
    fun hrest => (hlater.sound hs₁).results_at_rest hended.terminal hended.drained hrest⟩

/-- A connection on which a first call has come as far as the pump's last look at the terminal
reason. -/
def looked : Conn := { Conn.new with permits := 0, nextCall := 1, pump := .cleared 0 }

/-- The state in which the pump has looked is reached by steps that are all in time. -/
lemma reaches_looked : Reaches Timely Conn.new looked := by
  have hcall : Step Conn.new .call { Conn.new with nextCall := 1, entering := [0] } :=
    .callEnters rfl
  have henqueue : Step { Conn.new with nextCall := 1, entering := [0] } (.enqueue 0)
      { Conn.new with nextCall := 1, queue := [0] } :=
    .enqueue (by decide) nofun (by decide)
  have htake : Step { Conn.new with nextCall := 1, queue := [0] } .take
      { Conn.new with nextCall := 1, pump := .taken 0 } := .take rfl rfl
  have hlook : Step { Conn.new with nextCall := 1, pump := .taken 0 } .look
      { Conn.new with nextCall := 1, pump := .alive 0 } := .lookAlive rfl rfl
  have hacquire : Step { Conn.new with nextCall := 1, pump := .alive 0 } .acquire
      { Conn.new with permits := 0, nextCall := 1, pump := .permitted 0 } :=
    .acquire rfl (by decide)
  have hagain : Step { Conn.new with permits := 0, nextCall := 1, pump := .permitted 0 } .look
      looked := .lookAgainAlive rfl rfl
  exact .tail (.tail (.tail (.tail (.tail (.single ⟨_, hcall, trivial⟩) ⟨_, henqueue, trivial⟩)
    ⟨_, htake, trivial⟩) ⟨_, hlook, trivial⟩) ⟨_, hacquire, trivial⟩) ⟨_, hagain, trivial⟩

/-- The call's request was written under the id 0, and its reply task waits. -/
def asked : Conn := { looked.table .issue with pump := .idle, tasks := [⟨0, 0⟩] }

/-- The adapter has exited. -/
def exited : Conn := asked.table (.finish (.crashed (some 0)))

/-- The reply task was sent the reason. -/
def informed : Conn :=
  { exited with
    outgoing := exited.outgoing.erase (0, .crashed (some 0))
    channel := Function.update exited.channel 0 (some (.crashed (some 0))) }

/-- The call was told of it. -/
def settled : Conn :=
  ({ informed with tasks := informed.tasks.erase ⟨0, 0⟩ }.resolve 0
    (Delivery.crashed (some 0)).result).release

/-- A run in time that ends: the adapter exits while a call waits for its reply, no id is left
pending, and what the call is told is the exit.

**Proof sketch.** The run is written out step by step: the pump looks, issues an id, writes the
request, the adapter exits, and the deliverer tells the call. All its steps are timely, since the
pump has looked while no reason was there. -/
theorem none_left_behind_exited :
    settled.mux.terminal = some (.crashed (some 0)) ∧
      (∀ id, settled.mux.slots id ≠ some .pending) ∧
      settled.results.map Prod.fst = [0] ∧
      ∀ n result, (n, result) ∈ settled.results → result = .error (.adapterCrashed (some 0)) := by
  have hissue : Step looked .issue { looked.table .issue with pump := .issued ⟨0, 0⟩ } :=
    .issue rfl rfl
  have hwrite : Step { looked.table .issue with pump := .issued ⟨0, 0⟩ } .write asked := .write rfl
  have hfinish : Step asked (.finish (.crashed (some 0))) exited := .finish _
  have hsend : Step exited (.send 0 (.crashed (some 0))) informed := .send (by decide)
  have hreceive : Step informed (.receive ⟨0, 0⟩) settled := .receive (by decide) rfl
  have hbefore : Reaches Timely Conn.new asked :=
    .tail (.tail reaches_looked ⟨_, hissue, rfl⟩) ⟨_, hwrite, trivial⟩
  have hafter : Reaches Timely exited settled :=
    .tail (.single ⟨_, hsend, trivial⟩) ⟨_, hreceive, trivial⟩
  have hall : Reaches Timely Conn.new settled :=
    (hbefore.tail ⟨_, hfinish, trivial⟩).trans hafter
  obtain ⟨hdrained, htold⟩ := none_left_behind settled (.crashed (some 0))
  refine ⟨rfl, hdrained hall rfl, rfl, fun n result hmem => ?_⟩
  refine (htold asked _ exited hbefore rfl hfinish trivial rfl hafter).1 n result hmem ?_
  have hn : n = 0 := by
    have hone : (n, result) ∈ [(0, (Delivery.crashed (some 0)).result)] := hmem
    exact congrArg Prod.fst (List.mem_singleton.mp hone)
  rintro (hresolved | ⟨id, hholds, hslot⟩)
  · exact absurd hresolved List.not_mem_nil
  · have htask : (⟨n, id⟩ : Task) = ⟨0, 0⟩ := by
      rcases hholds with h | h | h
      · cases h
      · exact List.mem_singleton.mp h
      · exact absurd h List.not_mem_nil
    obtain rfl : id = 0 := congrArg Task.id htask
    exact hslot rfl

/-- The adapter exits between the pump's last look and its issuing of the id: the id stays pending
on a connection that has ended, and its call is told of a timeout.

**Proof sketch.** The pump has looked and found the connection alive; the adapter exits, and only
then is the id issued. The id is pending beside a terminal reason, against the first statement. When
its task expires, the call is told of a timeout instead of the exit, against the second. -/
theorem left_behind_between_look_and_issue :
    (¬ ∀ s t, Reaches (fun _ _ => True) Conn.new s → s.mux.terminal = some t →
      ∀ id, s.mux.slots id ≠ some .pending) ∧
    ¬ ∀ s₀ a s₁ s t, Reaches (fun _ _ => True) Conn.new s₀ → s₀.mux.terminal = none →
      Step s₀ a s₁ → s₁.mux.terminal = some t → Reaches (fun _ _ => True) s₁ s →
        ∀ n result, (n, result) ∈ s.results → ¬ s₀.Settled n → result = .error t.error := by
  have hfinish : Step looked (.finish (.crashed (some 0)))
      (looked.table (.finish (.crashed (some 0)))) :=
    .finish _
  have hissue : Step (looked.table (.finish (.crashed (some 0)))) .issue
      { (looked.table (.finish (.crashed (some 0)))).table .issue with pump := .issued ⟨0, 0⟩ } :=
    .issue rfl rfl
  have hany : ∀ s s', (∃ a, Step s a s' ∧ Timely s a) → ∃ a, Step s a s' ∧ True := by
    rintro s s' ⟨a, ha, -⟩
    exact ⟨a, ha, trivial⟩
  have hlooked : Reaches (fun _ _ => True) Conn.new looked :=
    ReflTransGen.mono hany _ _ reaches_looked
  constructor
  · intro h
    exact h _ (.crashed (some 0)) (.tail (.tail hlooked ⟨_, hfinish, trivial⟩)
      ⟨_, hissue, trivial⟩) rfl 0 rfl
  · intro h
    have htold := h looked _ _ _ (.crashed (some 0)) hlooked rfl hfinish rfl
      (.tail (.tail (.tail (.single ⟨_, hissue, trivial⟩) ⟨_, .write rfl, trivial⟩)
        ⟨_, .expireTask (t := ⟨0, 0⟩) (by decide) rfl, trivial⟩)
          ⟨_, .tombstoneTask (t := ⟨0, 0⟩) (by decide), trivial⟩) 0 (.error .timeout)
      (by decide) ?_
    · simp [Terminal.error] at htold
    · rintro (hmem | ⟨id, hholds, -⟩)
      · simp [looked, Conn.new] at hmem
      · simp [looked, Conn.new, Conn.Holds, Pump.task] at hholds

end Sumer.Host
