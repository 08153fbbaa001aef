import Sumer.Host.Mux
import Sumer.Wire.Codec

set_option relaxedAutoImplicit false
set_option autoImplicit false

/-!
# The inbound reader loop

`read_loop` and `Mux::on_frame` (`core/host/src/mux.rs`): bytes are read off the adapter's stdout,
cut into frames, and every frame is routed to the id it names. Between two frames other tasks work
on the id table.

## Main definitions

* `Sumer.Host.Mux.onFrame`: the entry point for one decoded frame.
* `Sumer.Host.readLoop`: the loop, over what the pipe hands it read by read.
* `Sumer.Host.readStream`: the same over the whole stream, by the reference of the framer.

## Main results

* `Sumer.Host.readLoop_eq_readStream`: the loop does not see how the pipe was cut.
* `Sumer.Host.split_invariant`: nor does the framer.
-/

namespace Sumer.Host

open Sumer.Wire

/-- The id of the handshake request. -/
def HELLO : ℕ := 0

/-- Routes one frame. `replyId` is the id of the reply envelope that `serde_json` finds in a
frame, if it finds one. Until the handshake's reply has been seen, every problem with a frame is
output before the handshake. -/
def Mux.onFrame (replyId : String → Option ℕ) (m : Mux) (helloDone : Bool) (frame : String)
    (receivedAt : Rfc3339) : Mux × Bool × Except ProtocolViolationKind Unit :=
  match replyId frame with
  | none => (m, helloDone, .error (if helloDone then .notJson else .preHelloOutput))
  | some id =>
    if !helloDone && decide (id ≠ HELLO) then (m, helloDone, .error .preHelloOutput)
    else
      let delivered := m.deliver id frame receivedAt
      (delivered.1, true,
        match delivered.2.2 with
        | .ok _ => .ok ()
        | .error violation => .error violation.kind)

/-- What surrounds the loop: third-party code, the clock, and what other tasks do to the table. -/
structure Surroundings where
  text : FrameText
  replyId : String → Option ℕ
  /-- The receipt time of the frame of a given number. -/
  clock : ℕ → Rfc3339
  /-- What other tasks do to the table before the frame of a given number is routed. -/
  others : ℕ → List MuxOp

/-- What one `read` of the pipe hands over: some bytes, none of them at end of stream, or an
error. -/
inductive Read where
  | bytes (chunk : List UInt8)
  | failed

/-- The loop between two frames. `handled` is not in the source: it lists the frames handed to
`on_frame`. -/
structure Reading where
  helloDone : Bool
  mux : Mux
  handled : List (String × Rfc3339)

/-- How the loop stands: still reading, or returned, with the violation it published, if any. -/
inductive ReadEnded where
  | reading
  | returned (published : Option ProtocolViolationKind)
deriving DecidableEq

/-- Publishes a violation, requests the kill and returns. -/
def Reading.fatal (s : Reading) (kind : ProtocolViolationKind) : Reading × ReadEnded :=
  ({ s with mux := s.mux.recordViolation kind }, .returned (some kind))

/-- Before the handshake the host cannot tell a banner from a malformed frame. -/
def classify (helloDone : Bool) (kind : ProtocolViolationKind) : ProtocolViolationKind :=
  if helloDone then kind else .preHelloOutput

/-- Hands one frame to `on_frame`. -/
def Reading.frame (e : Surroundings) (s : Reading) (frame : String) :
    Reading × Option ProtocolViolationKind :=
  let number := s.handled.length
  let mux := (e.others number).foldl Mux.apply s.mux
  let routed := mux.onFrame e.replyId s.helloDone frame (e.clock number)
  (⟨routed.2.1, routed.1, s.handled ++ [(frame, e.clock number)]⟩,
    match routed.2.2 with
    | .ok () => none
    | .error kind => some kind)

/-- Hands frames to `on_frame` in order, up to the first that is a violation. -/
def Reading.frames (e : Surroundings) (s : Reading) :
    List String → Reading × Option ProtocolViolationKind
  | [] => (s, none)
  | frame :: rest =>
    match s.frame e frame with
    | (s, some kind) => (s, some kind)
    | (s, none) => s.frames e rest

/-- The inbound reader loop. -/
def readLoop (e : Surroundings) (decoder : FrameDecoder) (s : Reading) :
    List Read → Reading × ReadEnded
  | [] => (s, .reading)
  | .failed :: _ => (s, .returned none)
  | .bytes [] :: _ =>
    if decoder.pendingBytes > 0 then s.fatal (classify s.helloDone .unterminatedFrame)
    else (s, .returned none)
  | .bytes (b :: chunk) :: rest =>
    let pushed := decoder.push e.text (b :: chunk) []
    match s.frames e pushed.out with
    | (s, some kind) => s.fatal kind
    | (s, none) =>
      match pushed.result with
      | .error kind => s.fatal (classify s.helloDone kind)
      | .ok () => readLoop e pushed.decoder s rest

/-! ### The stream as a whole -/

/-- Whether a stream is still open, has ended, or was lost. -/
inductive StreamEnd where
  | stillOpen
  | endOfStream
  | lost
deriving DecidableEq

/-- The bytes that reads hand over, and how they end. Nothing is read after an end. -/
def streamOf : List Read → List UInt8 × StreamEnd
  | [] => ([], .stillOpen)
  | .failed :: _ => ([], .lost)
  | .bytes [] :: _ => ([], .endOfStream)
  | .bytes (b :: chunk) :: rest => (b :: chunk ++ (streamOf rest).1, (streamOf rest).2)

/-- What the loop makes of a stream as a whole, once the stream has been judged. -/
def readJudged (e : Surroundings) (s : Reading) (judged : Judged) (ending : StreamEnd) :
    Reading × ReadEnded :=
  match s.frames e judged.frames with
  | (s, some kind) => s.fatal kind
  | (s, none) =>
    match judged.violation with
    | some kind => s.fatal (classify s.helloDone kind)
    | none =>
      match ending with
      | .stillOpen => (s, .reading)
      | .lost => (s, .returned none)
      | .endOfStream =>
        if judged.pending > 0 then s.fatal (classify s.helloDone .unterminatedFrame)
        else (s, .returned none)

/-- The loop over the whole stream, by the reference of the framer. -/
def readStream (e : Surroundings) (s : Reading) (stream : List UInt8 × StreamEnd) :
    Reading × ReadEnded :=
  readJudged e s (reference e.text stream.1) stream.2

section ReadLoop

variable {e : Surroundings} {s : Reading} {decoder : FrameDecoder}

/-- Frames are handed over in order, up to the first that is a violation. -/
lemma Reading.frames_append (frames later : List String) :
    s.frames e (frames ++ later) =
      match s.frames e frames with
      | (s, some kind) => (s, some kind)
      | (s, none) => s.frames e later := by
  induction frames generalizing s with
  | nil => rfl
  | cons frame frames ih =>
    rw [List.cons_append, Reading.frames, Reading.frames]
    rcases s.frame e frame with ⟨s', kind | kind⟩
    · exact ih
    · rfl

/-- The loop from any point on is the loop over what is left of the stream.

**Proof sketch.** Induction over the reads. The frames of a chunk come first among those of the
stream; if one of them is a violation, or the chunk ends in one, nothing after it counts, and
otherwise the decoder stands where the next chunk begins. -/
lemma readLoop_eq_readJudged (hdecoder : decoder.violation = none) (reads : List Read) :
    readLoop e decoder s reads = readJudged e s
      (decoder.push e.text (streamOf reads).1 []).judged (streamOf reads).2 := by
  induction reads generalizing decoder s with
  | nil =>
    rw [readLoop, streamOf, FrameDecoder.push, hdecoder]
    rfl
  | cons read reads ih =>
    cases read with
    | failed =>
      rw [readLoop, streamOf, FrameDecoder.push, hdecoder]
      rfl
    | bytes chunk =>
      cases chunk with
      | nil =>
        rw [readLoop, streamOf, FrameDecoder.push, hdecoder]
        rfl
      | cons b chunk =>
        rw [readLoop, streamOf]
        have hresult : (decoder.push e.text (b :: chunk) []).result = _ :=
          FrameDecoder.result_push
        set pushed := decoder.push e.text (b :: chunk) [] with hpushed
        have hwhole : decoder.push e.text (b :: chunk ++ (streamOf reads).1) [] =
            { pushed.decoder.push e.text (streamOf reads).1 [] with
              out := pushed.out ++ (pushed.decoder.push e.text (streamOf reads).1 []).out } := by
          rw [FrameDecoder.push_append, ← hpushed, FrameDecoder.push_out]
        rw [hwhole, readJudged]
        dsimp only [Pushed.judged]
        rw [Reading.frames_append]
        rcases s.frames e pushed.out with ⟨s', kind | kind⟩
        · dsimp only
          cases hviolation : pushed.decoder.violation with
          | none =>
            rw [hresult, hviolation]
            dsimp only
            rw [ih hviolation]
            rfl
          | some kind =>
            rw [hresult, hviolation, FrameDecoder.push_of_violation hviolation]
            dsimp only
            rw [hviolation]
            rfl
        · rfl

/-- **The loop does not see how the pipe was cut into reads**: the frames it hands over, the
violation it publishes and what becomes of the table are those of the stream as a whole. -/
theorem readLoop_eq_readStream (e : Surroundings) (s : Reading) (reads : List Read) :
    readLoop e FrameDecoder.new s reads = readStream e s (streamOf reads) := by
  rw [readLoop_eq_readJudged rfl, push_new_eq_reference]
  rfl

end ReadLoop

/-- **The framer and the reader loop are invariant under splitting.** However a stream is cut into
chunks, the framer produces the frames, the first violation and the pending bytes of the
reference; a violation is final, and the buffer is bounded. And however the pipe is cut into
reads, the loop hands over and publishes what the stream as a whole amounts to. -/
theorem split_invariant (t : FrameText) :
    (∀ chunks, let p := feed t chunks
      p = FrameDecoder.new.push t chunks.flatten [] ∧
      p.judged = reference t chunks.flatten ∧
      p.result = (match p.decoder.violation with
        | some kind => .error kind
        | none => .ok ()) ∧
      (∀ kind, p.decoder.violation = some kind → ∀ chunk out,
        p.decoder.push t chunk out = ⟨p.decoder, out, .error kind⟩) ∧
      p.decoder.buf.length ≤ MAX_FRAME_BYTES + 1) ∧
    (∀ replyId clock others s reads, readLoop ⟨t, replyId, clock, others⟩ FrameDecoder.new s reads =
      readStream ⟨t, replyId, clock, others⟩ s (streamOf reads)) ∧
    ∀ replyId clock others s reads reads', streamOf reads = streamOf reads' →
      readLoop ⟨t, replyId, clock, others⟩ FrameDecoder.new s reads =
        readLoop ⟨t, replyId, clock, others⟩ FrameDecoder.new s reads' := by
  refine ⟨fun chunks => ?_, fun replyId clock others s reads => readLoop_eq_readStream _ s reads,
    fun replyId clock others s reads reads' hstream => ?_⟩
  · intro p
    have hp : p = FrameDecoder.new.push t chunks.flatten [] := feed_eq_push t chunks
    have hjudged : p.judged = reference t chunks.flatten := by
      rw [hp]
      exact push_new_eq_reference t chunks.flatten
    refine ⟨hp, hjudged, ?_, fun kind hkind => FrameDecoder.push_of_violation hkind, ?_⟩
    · rw [hp]
      exact FrameDecoder.result_push
    · have hpending : p.decoder.buf.length = (reference t chunks.flatten).pending :=
        congrArg Judged.pending hjudged
      rw [hpending]
      exact judge_pending_le t _
  · rw [readLoop_eq_readStream, readLoop_eq_readStream, hstream]

end Sumer.Host
