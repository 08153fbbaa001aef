import Sumer.Bitcoin.Process
import Sumer.Host.ReadLoop

set_option relaxedAutoImplicit false
set_option autoImplicit false

/-!
# The conversation of host and adapter

The reader loop of the host (`core/host/src/mux.rs`) over the output of the adapter's process
(`adapters/bitcoin/src/main.rs`). While the loop reads, other tasks of the host issue ids for new
requests and expire the ids of requests that have waited too long, in any order. The host ends a
connection at the first frame that is no answer, or that answers an id which was never issued or
which has been answered; against this adapter it never does.

## Main definitions

* `Sumer.Host.Surroundings.Issued`: no frame comes before its id was issued.

## Main results

* `Sumer.Host.Reading.frames_answering`: frames that answer issued ids, each once, are all routed.
* `Sumer.Bitcoin.conversation`: the host never ends a conversation with this adapter.
-/

namespace Sumer.Host

open Sumer.Wire

/-- What the tasks do that send requests and wait for replies. -/
def MuxOp.Quiet : MuxOp → Prop
  | .issue => True
  | .tombstone _ => True
  | _ => False

/-- The counter after some operations. -/
def counterAfter (next : ℕ) (ops : List MuxOp) : ℕ :=
  ops.foldl (fun n op => match op with
    | .issue => (checkedSucc n).getD n
    | _ => n) next

/-- **No frame comes before its id was issued**: each of the ids, in the order of the frames from a
given number on, is below the counter when its frame is routed. -/
def Surroundings.Issued (e : Surroundings) : ℕ → ℕ → List ℕ → Prop
  | _, _, [] => True
  | next, number, id :: ids =>
    id < counterAfter next (e.others number) ∧
      e.Issued (counterAfter next (e.others number)) (number + 1) ids

/-- What holds of the table between two frames, when some ids are yet to be answered: the ids with a
slot are those below the counter, and none of the others has been answered. -/
structure Mux.Expects (m : Mux) (ids : List ℕ) : Prop where
  slots : ∀ id, (m.slots id).isSome ↔ id < m.nextId
  unanswered : ∀ id ∈ ids, m.slots id ≠ some .answered

/-- A request that waits no more: answered, or given up. -/
def Mux.Settled (m : Mux) (id : ℕ) : Prop :=
  m.slots id = some .answered ∨ m.slots id = some .tombstoned

section Quiet

variable {m : Mux} {op : MuxOp} {ops : List MuxOp} {id : ℕ} {ids : List ℕ}

/-- The counter moves as it is told to. -/
lemma nextId_foldl_apply (ops : List MuxOp) (m : Mux) :
    (ops.foldl Mux.apply m).nextId = counterAfter m.nextId ops := by
  induction ops generalizing m with
  | nil => rfl
  | cons op ops ih =>
    have hone : (m.apply op).nextId = counterAfter m.nextId [op] := by
      obtain ⟨hnext, -, -⟩ := m.nextId_apply op
      cases op with
      | issue =>
        show m.issue.1.nextId = (checkedSucc m.nextId).getD m.nextId
        unfold Mux.issue
        cases checkedSucc m.nextId <;> rfl
      | tombstone | deliver | finish | recordViolation => exact hnext
    rw [List.foldl_cons, ih, hone]
    rfl

/-- An operation keeps the ids with a slot those below the counter. -/
lemma Mux.Expects.slots_apply (h : m.Expects ids) (op : MuxOp) (id : ℕ) :
    ((m.apply op).slots id).isSome ↔ id < (m.apply op).nextId := by
  obtain ⟨hnext, hissues, -⟩ := m.nextId_apply op
  rw [Mux.isSome_slots_apply, h.slots, hissues, hnext, List.mem_range'_1]
  omega

/-- A request that waits no more never waits again. -/
lemma Mux.Expects.settled_apply (h : m.Expects ids) (op : MuxOp) (hid : m.Settled id) :
    (m.apply op).Settled id := by
  rcases Mux.slot_step h.slots op id with ⟨-, hsame | ⟨hnew, -⟩ | ⟨-, -, hslot⟩⟩ | ⟨-, -, hslot⟩
  · rwa [Mux.Settled, hsame]
  · have hnone : ¬ (m.slots id).isSome := by
      rw [h.slots, hnew]
      exact lt_irrefl _
    rcases hid with hid | hid <;> simp [hid] at hnone
  · exact .inr hslot
  · exact .inl hslot

/-- A quiet operation sends nothing, and leaves the verdict. -/
lemma MuxOp.Quiet.apply (h : op.Quiet) : (m.apply op).verdict = m.verdict ∧ m.sends op = [] := by
  cases op with
  | issue =>
    refine ⟨?_, rfl⟩
    rw [Mux.apply, Mux.issue]
    cases checkedSucc m.nextId <;> rfl
  | tombstone target =>
    refine ⟨?_, rfl⟩
    rw [Mux.apply, Mux.tombstone]
    split_ifs <;> rfl
  | deliver | finish | recordViolation => exact h.elim

/-- A quiet operation leaves what is expected. -/
lemma Mux.Expects.quiet (h : m.Expects ids) (hop : op.Quiet) : (m.apply op).Expects ids := by
  refine ⟨h.slots_apply op, fun id hid hanswered => ?_⟩
  have hsends : m.sends op = [] := hop.apply.2
  rcases Mux.slot_step h.slots op id with ⟨-, hsame | ⟨-, -, hslot⟩ | ⟨-, -, hslot⟩⟩ | ⟨hmem, -⟩
  · exact h.unanswered id hid (hsame ▸ hanswered)
  · rw [hslot] at hanswered
    cases hanswered
  · rw [hslot] at hanswered
    cases hanswered
  · rw [hsends] at hmem
    exact absurd hmem List.not_mem_nil

/-- Quiet operations, one after the other, leave the connection expecting the same ids, publish
nothing, and unsettle no id. -/
lemma Mux.Expects.foldl (h : m.Expects ids) (hquiet : ∀ op ∈ ops, op.Quiet) :
    (ops.foldl Mux.apply m).Expects ids ∧ (ops.foldl Mux.apply m).verdict = m.verdict ∧
      ∀ id, m.Settled id → (ops.foldl Mux.apply m).Settled id := by
  induction ops generalizing m with
  | nil => exact ⟨h, rfl, fun id hid => hid⟩
  | cons op ops ih =>
    have hop := hquiet op List.mem_cons_self
    obtain ⟨hexpects, hverdict, hsettled⟩ :=
      ih (h.quiet hop) fun op' hop' => hquiet op' (List.mem_cons_of_mem _ hop')
    exact ⟨hexpects, hverdict.trans hop.apply.1,
      fun id hid => hsettled id (h.settled_apply op hid)⟩

/-- The first of the ids that are expected, and issued, waits no more; the others are still
expected. -/
lemma Mux.Expects.deliver (h : m.Expects (id :: ids)) (hnew : id ∉ ids) (hissued : id < m.nextId)
    (frame : String) (receivedAt : Rfc3339) :
    (∃ outcome, (m.deliver id frame receivedAt).2.2 = .ok outcome) ∧
      (m.deliver id frame receivedAt).1.Expects ids ∧
      (m.deliver id frame receivedAt).1.Settled id ∧
      (m.deliver id frame receivedAt).1.nextId = m.nextId ∧
      (m.deliver id frame receivedAt).1.verdict = m.verdict := by
  have hunanswered := h.unanswered id List.mem_cons_self
  have hlater (id' : ℕ) (hid' : id' ∈ ids) := h.unanswered id' (List.mem_cons_of_mem _ hid')
  obtain ⟨slot, hslot⟩ := Option.isSome_iff_exists.mp ((h.slots id).mpr hissued)
  cases slot with
  | pending =>
    have hslots := h.slots_apply (.deliver id frame receivedAt)
    rw [Mux.apply] at hslots
    rw [Mux.deliver_of_pending hissued hslot] at hslots ⊢
    refine ⟨⟨_, rfl⟩, ⟨hslots, fun id' hid' => ?_⟩, .inl (Function.update_self ..), rfl, rfl⟩
    have hne : id' ≠ id := fun heq => hnew (heq ▸ hid')
    simpa [hne] using hlater id' hid'
  | tombstoned =>
    rw [Mux.deliver_of_tombstoned hissued hslot]
    exact ⟨⟨_, rfl⟩, ⟨h.slots, hlater⟩, .inr hslot, rfl, rfl⟩
  | answered => exact absurd hslot hunanswered

end Quiet

section Frames

variable {e : Surroundings} {s : Reading} {ids : List ℕ} {frames : List String}

/-- **Frames that answer issued ids, each once, are all routed**, whatever the other tasks issue
and give up in between: none of them is a violation, the verdict is left as it was, and none of the
ids waits any more.

**Proof sketch.** Induction on the frames. When a frame comes, its id has been issued and has not
been answered; routing it settles its id, and leaves the others expected. What is settled stays
settled, since an id is issued once. -/
lemma Reading.frames_answering (hquiet : ∀ n, ∀ op ∈ e.others n, op.Quiet)
    (hids : frames.map e.replyId = ids.map some) (hnodup : ids.Nodup)
    (hhello : s.helloDone = true ∨ ∀ id ∈ ids.head?, id = HELLO) (hexpects : s.mux.Expects ids)
    (hissued : e.Issued s.mux.nextId s.handled.length ids) :
    ∃ s', s.frames e frames = (s', none) ∧
      s'.handled.map Prod.fst = s.handled.map Prod.fst ++ frames ∧
      s'.mux.verdict = s.mux.verdict ∧
      ∀ id, s.mux.Settled id ∨ id ∈ ids → s'.mux.Settled id := by
  induction frames generalizing s ids with
  | nil =>
    obtain rfl : ids = [] := List.map_eq_nil_iff.mp hids.symm
    exact ⟨s, rfl, by simp, rfl, fun id hid => hid.resolve_right List.not_mem_nil⟩
  | cons frame frames ih =>
    cases ids with
    | nil => cases hids
    | cons id ids =>
      obtain ⟨hid, hids⟩ := List.cons.inj hids
      obtain ⟨hnew, hnodup⟩ := List.nodup_cons.mp hnodup
      obtain ⟨hlt, hissued⟩ := hissued
      obtain ⟨hready, hverdict, hkept⟩ := hexpects.foldl (hquiet s.handled.length)
      rw [← nextId_foldl_apply] at hlt hissued
      obtain ⟨⟨outcome, houtcome⟩, hnext, hsettled, hcounter, hverdict'⟩ :=
        hready.deliver hnew hlt frame (e.clock s.handled.length)
      have hguard : ¬ ((!s.helloDone && decide (id ≠ HELLO)) = true) := by
        rcases hhello with hdone | hfirst
        · simp [hdone]
        · simp [hfirst id rfl]
      set mux := (e.others s.handled.length).foldl Mux.apply s.mux
      set next : Reading := ⟨true, (mux.deliver id frame (e.clock s.handled.length)).1,
        s.handled ++ [(frame, e.clock s.handled.length)]⟩
      have hframe : s.frame e frame = (next, none) := by
        simp only [Reading.frame, Mux.onFrame, hid, if_neg hguard]
        rw [houtcome]
      have hissued : e.Issued next.mux.nextId next.handled.length ids := by
        rw [hcounter, List.length_append, List.length_singleton]
        exact hissued
      obtain ⟨s', hs', hhandled, hlast, hall⟩ := ih (s := next) hids hnodup (.inl rfl) hnext hissued
      refine ⟨s', ?_, ?_, hlast.trans (hverdict'.trans hverdict), fun id' hid' => hall id' ?_⟩
      · rw [Reading.frames, hframe]
        exact hs'
      · rw [hhandled]
        simp [next]
      · rcases hid' with hid' | hid'
        · exact .inl (hready.settled_apply (.deliver id frame _) (hkept id' hid'))
        · rcases List.mem_cons.mp hid' with rfl | hid'
          · exact .inl hsettled
          · exact .inr hid'

end Frames

end Sumer.Host

namespace Sumer.Bitcoin

open Sumer.Wire Sumer.Host

/-- **The host never ends a conversation with this adapter.** Take any lines that the adapter's
process is given, with ids that are not repeated, and any state the process starts from. The host
reads its output in any chunks, while its other tasks issue ids and give up on requests in any
order; each id was issued before its answer comes, and the first answer of a connection is that of
the handshake. Then the loop handles every answer in order, publishes no violation, and returns
only at the end of the stream; and no request that was answered waits any more. -/
theorem conversation (e : Surroundings) (r : Reader) (p : Program) (process : Process)
    (inputs : List (Moment × String)) (s : Host.Reading) (reads : List Read)
    (hutf8 : ∀ text, e.text.fromUtf8 (asBytes text) = some text)
    (hjson : ∀ j : Json, j.Writable 127 → e.text.isJson j.text = true)
    (hreply : e.replyId =
      routedId r.parse fun j => (Host.ErrorBody.decode j).mapError r.display)
    (hparse : ∀ x ∈ (p.run process inputs).2, .obj <$> r.parse x.written.text = some x.written)
    (hworld : ∀ input ∈ inputs, ∀ resourceId, (input.1.world resourceId).Plain)
    (hsize : ∀ x ∈ (p.run process inputs).2, x.toJson.size < 2 ^ 64)
    (hreads : (streamOf reads).1 = stream ((p.run process inputs).2.map Answered.written))
    (hquiet : ∀ n, ∀ op ∈ e.others n, op.Quiet)
    (hids : (inputs.filterMap fun input => p.addressed input.2).Nodup)
    (hhello : s.helloDone = true ∨
      ∀ id ∈ (inputs.filterMap fun input => p.addressed input.2).head?, id = HELLO)
    (hexpects : s.mux.Expects (inputs.filterMap fun input => p.addressed input.2))
    (hissued : e.Issued s.mux.nextId s.handled.length
      (inputs.filterMap fun input => p.addressed input.2)) :
    ∃ s', readLoop e FrameDecoder.new s reads =
        (s', if (streamOf reads).2 = .stillOpen then .reading else .returned none) ∧
      s'.handled.map Prod.fst =
        s.handled.map Prod.fst ++ (p.run process inputs).2.map (fun x => x.written.text) ∧
      s'.mux.verdict = s.mux.verdict ∧
      ∀ id ∈ inputs.filterMap fun input => p.addressed input.2, s'.mux.Settled id := by
  obtain ⟨hreference, hrouted⟩ := reference_run hutf8 hjson hparse hworld hsize
  rw [← hreply] at hrouted
  obtain ⟨s', hframes, hhandled, hverdict, hsettled⟩ :=
    Reading.frames_answering hquiet hrouted hids hhello hexpects hissued
  refine ⟨s', ?_, hhandled, hverdict, fun id hid => hsettled id (.inr hid)⟩
  rw [readLoop_eq_readStream, readStream, hreads, hreference, readJudged]
  dsimp only
  rw [hframes]
  cases (streamOf reads).2 <;> rfl

/-- The host of the session: eight ids are issued before the first answer comes, and the second
request is given up before it is answered. -/
def sessionSurroundings : Surroundings where
  text := lenientText
  replyId := routedId sessionReader.parse fun j =>
    (Host.ErrorBody.decode j).mapError sessionReader.display
  clock _ := receiptDay
  others
    | 0 => List.replicate 8 .issue
    | 1 => [.tombstone 1]
    | _ => []

/-- Other tasks only issue ids and give up on one. -/
lemma quiet_session : ∀ n, ∀ op ∈ sessionSurroundings.others n, op.Quiet
  | 0, op, hop => by
    rw [List.eq_of_mem_replicate hop]
    trivial
  | 1, op, hop => by
    rw [List.mem_singleton.mp hop]
    trivial
  | _ + 2, op, hop => absurd hop List.not_mem_nil

/-- The pipe, read at once and then to its end. -/
lemma streamOf_whole (bytes : List UInt8) :
    streamOf [.bytes bytes, .bytes []] = (bytes, .endOfStream) := by
  cases bytes with
  | nil => rfl
  | cons b chunk => simp [streamOf]

/-- A new connection can be made to expect any ids. -/
lemma expects_new (ids : List ℕ) : Mux.new.Expects ids :=
  ⟨fun id => by simp [Mux.new], fun id _ h => by cases h⟩

/-- The session ends in good order: the host's loop returns without a violation, and has handled
each answer under its id. -/
theorem conversation_session :
    ∃ s', readLoop sessionSurroundings FrameDecoder.new ⟨false, Mux.new, []⟩
        [.bytes (stream (sessionAnswers.map Answered.written)), .bytes []] =
          (s', .returned none) ∧
      s'.handled.map Prod.fst = sessionAnswers.map (fun x => x.written.text) ∧
      s'.mux.verdict = none ∧ ∀ id ∈ [0, 1, 2, 7], s'.mux.Settled id := by
  have hissued : sessionSurroundings.Issued 0 0 [0, 1, 2, 7] := by
    refine ⟨?_, ?_, ?_, ?_, trivial⟩ <;> decide +kernel
  have hconversation := conversation sessionSurroundings sessionReader sessionProgram
    ⟨fun _ => none, Disk.empty⟩ sessionInputs ⟨false, Mux.new, []⟩
    [.bytes (stream (sessionAnswers.map Answered.written)), .bytes []] fromUtf8_lenientText
    (fun _ _ => rfl) rfl
  rw [run_session, addressed_session, streamOf_whole] at hconversation
  exact hconversation parse_session plain_session size_session rfl quiet_session (by decide)
    (.inr fun id hid => (Option.some.inj hid).symm) (expects_new _) hissued

end Sumer.Bitcoin
