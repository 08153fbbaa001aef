import Sumer.Host.Error

set_option relaxedAutoImplicit false
set_option autoImplicit false

/-!
# The incremental JSON-Lines framer

`FrameDecoder` (`core/wire/src/codec.rs`): frames arrive in arbitrarily sized chunks and end with
a line feed. What makes a line text, and a text JSON, is third-party code and a parameter here.
The reference cuts the whole stream at its line feeds and judges the lines in order.

## Main definitions

* `Sumer.Wire.FrameDecoder.push`: feeds one chunk.
* `Sumer.Wire.feed`: feeds chunks one after the other.
* `Sumer.Wire.reference`: cutting at line feeds and judging in order.

## Main results

* `Sumer.Wire.feed_eq_push`: chunks are fed as their concatenation is.
* `Sumer.Wire.push_new_eq_reference`: the decoder is the reference.
-/

namespace Sumer.Wire

open Sumer.Host

/-- The longest frame, its line feed not counted. -/
def MAX_FRAME_BYTES : ℕ := 1048576

/-- The byte that ends a frame. -/
def LF : UInt8 := 10

/-- What the framer asks of the standard library and of `serde_json`. -/
structure FrameText where
  /-- `str::from_utf8`. -/
  fromUtf8 : List UInt8 → Option String
  /-- Whether `serde_json::from_str::<IgnoredAny>` accepts a text. -/
  isJson : String → Bool

/-- Incrementally decodes a byte stream into JSON-Lines frames. -/
structure FrameDecoder where
  buf : List UInt8
  violation : Option ProtocolViolationKind

/-- A decoder that has seen nothing. -/
def FrameDecoder.new : FrameDecoder := ⟨[], none⟩

/-- Bytes buffered for the frame in progress. -/
def FrameDecoder.pendingBytes (d : FrameDecoder) : ℕ := d.buf.length

/-- A decoder after a chunk, the frames produced so far and what the call returned. -/
structure Pushed where
  decoder : FrameDecoder
  out : List String
  result : Except ProtocolViolationKind Unit

/-- Validates one frame's bytes and returns them as text. -/
def decodeFrame (t : FrameText) (bytes : List UInt8) : Except ProtocolViolationKind String :=
  match t.fromUtf8 bytes with
  | none => .error .nonUtf8
  | some text => if t.isJson text then .ok text else .error .notJson

/-- The byte loop of a decoder without a violation. -/
def FrameDecoder.pushBytes (t : FrameText) (buf : List UInt8) (out : List String) :
    List UInt8 → Pushed
  | [] => ⟨⟨buf, none⟩, out, .ok ()⟩
  | b :: rest =>
    if b = LF then
      match decodeFrame t buf with
      | .ok text => pushBytes t [] (out ++ [text]) rest
      | .error kind => ⟨⟨buf, some kind⟩, out, .error kind⟩
    else if (buf ++ [b]).length > MAX_FRAME_BYTES then
      ⟨⟨buf ++ [b], some .oversizeFrame⟩, out, .error .oversizeFrame⟩
    else pushBytes t (buf ++ [b]) out rest

/-- Feeds the next chunk of bytes. Completed frames are appended to `out`; after a violation every
call returns it again and touches nothing. -/
def FrameDecoder.push (t : FrameText) (d : FrameDecoder) (chunk : List UInt8)
    (out : List String) : Pushed :=
  match d.violation with
  | some kind => ⟨d, out, .error kind⟩
  | none => pushBytes t d.buf out chunk

/-- Feeds chunks one after the other to a new decoder. The result is that of the last call. -/
def feed (t : FrameText) (chunks : List (List UInt8)) : Pushed :=
  chunks.foldl (fun p chunk => p.decoder.push t chunk p.out) ⟨FrameDecoder.new, [], .ok ()⟩

/-! ### The reference -/

/-- What a stream amounts to: its frames, the first violation, and the bytes of the line that no
frame came of. -/
structure Judged where
  frames : List String
  violation : Option ProtocolViolationKind
  pending : ℕ
deriving DecidableEq

/-- Judges lines in order; the last one has no line feed yet. A line is oversize as soon as that
shows, before it ends. -/
def judge (t : FrameText) : List (List UInt8) → Judged
  | [] => ⟨[], none, 0⟩
  | line :: lines =>
    if line.length > MAX_FRAME_BYTES then ⟨[], some .oversizeFrame, MAX_FRAME_BYTES + 1⟩
    else if lines = [] then ⟨[], none, line.length⟩
    else
      match decodeFrame t line with
      | .ok text => { judge t lines with frames := text :: (judge t lines).frames }
      | .error kind => ⟨[], some kind, line.length⟩

/-- The reference: cut at line feeds, and judge the lines in order. -/
def reference (t : FrameText) (bytes : List UInt8) : Judged := judge t (bytes.splitOn LF)

/-- What a decoder has made of a stream. -/
def Pushed.judged (p : Pushed) : Judged := ⟨p.out, p.decoder.violation, p.decoder.pendingBytes⟩

section Push

variable {t : FrameText} {d : FrameDecoder} {buf xs ys : List UInt8} {out : List String}

/-- A call returns the violation that the decoder then holds. -/
lemma FrameDecoder.result_push :
    (d.push t xs out).result =
      match (d.push t xs out).decoder.violation with
      | some kind => .error kind
      | none => .ok () := by
  have hbytes (buf : List UInt8) (out : List String) :
      (FrameDecoder.pushBytes t buf out xs).result =
        match (FrameDecoder.pushBytes t buf out xs).decoder.violation with
        | some kind => .error kind
        | none => .ok () := by
    fun_induction FrameDecoder.pushBytes t buf out xs <;> simp_all
  rw [FrameDecoder.push]
  cases h : d.violation with
  | some kind => simp [h]
  | none => exact hbytes d.buf out

/-- The decoder that a violation has finished changes no more. -/
lemma FrameDecoder.push_of_violation {kind : ProtocolViolationKind} (h : d.violation = some kind)
    (xs : List UInt8) (out : List String) : d.push t xs out = ⟨d, out, .error kind⟩ := by
  rw [FrameDecoder.push, h]

/-- The byte loop goes on where it stopped, unless a violation stopped it. -/
lemma FrameDecoder.pushBytes_append :
    FrameDecoder.pushBytes t buf out (xs ++ ys) =
      (FrameDecoder.pushBytes t buf out xs).decoder.push t ys
        (FrameDecoder.pushBytes t buf out xs).out := by
  induction xs generalizing buf out with
  | nil => rfl
  | cons b xs ih =>
    rw [List.cons_append, FrameDecoder.pushBytes, FrameDecoder.pushBytes]
    split_ifs with hlf hlong
    · cases decodeFrame t buf with
      | ok text => exact ih
      | error kind => rfl
    · rfl
    · exact ih

/-- **Two chunks are fed as one**: feeding them one after the other gives the same frames and leaves
the same decoder. -/
lemma FrameDecoder.push_append :
    d.push t (xs ++ ys) out = (d.push t xs out).decoder.push t ys (d.push t xs out).out := by
  cases h : d.violation with
  | some kind => simp only [FrameDecoder.push_of_violation h]
  | none =>
    have hpush (zs : List UInt8) : d.push t zs out = FrameDecoder.pushBytes t d.buf out zs := by
      rw [FrameDecoder.push, h]
    rw [hpush, hpush]
    exact FrameDecoder.pushBytes_append

/-- Frames are appended to those there are.

**Proof sketch.** Induction on the bytes. The decoder never looks at the frames it has put out, and
each byte adds at most one at their end. -/
lemma FrameDecoder.push_out :
    d.push t xs out = { d.push t xs [] with out := out ++ (d.push t xs []).out } := by
  have hbytes (buf : List UInt8) (out : List String) :
      FrameDecoder.pushBytes t buf out xs = { FrameDecoder.pushBytes t buf [] xs with
        out := out ++ (FrameDecoder.pushBytes t buf [] xs).out } := by
    induction xs generalizing buf out with
    | nil => simp [FrameDecoder.pushBytes]
    | cons b xs ih =>
      rw [FrameDecoder.pushBytes, FrameDecoder.pushBytes]
      split_ifs with hlf hlong
      · cases decodeFrame t buf with
        | ok text =>
          show FrameDecoder.pushBytes t [] (out ++ [text]) xs = { FrameDecoder.pushBytes t []
            ([] ++ [text]) xs with
              out := out ++ (FrameDecoder.pushBytes t [] ([] ++ [text]) xs).out }
          rw [ih [] (out ++ [text]), ih [] ([] ++ [text])]
          simp
        | error kind => simp
      · simp
      · exact ih (buf ++ [b]) out
  cases h : d.violation with
  | some kind => simp [FrameDecoder.push_of_violation h]
  | none =>
    rw [FrameDecoder.push, FrameDecoder.push, h]
    exact hbytes d.buf out

/-- **Chunks are fed as their concatenation is**, however the stream is cut. -/
theorem feed_eq_push (t : FrameText) (chunks : List (List UInt8)) :
    feed t chunks = FrameDecoder.new.push t chunks.flatten [] := by
  induction chunks using List.reverseRecOn with
  | nil => rfl
  | append_singleton chunks chunk ih =>
    rw [List.flatten_append, List.flatten_singleton, FrameDecoder.push_append, ← ih]
    simp [feed, List.foldl_append]

/-- The byte loop judges the line it has begun, and then those after it.

**Proof sketch.** Induction on the bytes. A line feed closes the line that was begun: it is decoded
and the loop goes on with an empty buffer, or stops at the first line that cannot be decoded.
Another byte lengthens the line; if that makes it too long, the verdict does not depend on how the
line goes on. -/
lemma FrameDecoder.pushBytes_judged (hbuf : buf.length ≤ MAX_FRAME_BYTES) (out : List String) :
    (FrameDecoder.pushBytes t buf out xs).judged =
      { judge t ((xs.splitOn LF).modifyHead (buf ++ ·)) with
        frames := out ++ (judge t ((xs.splitOn LF).modifyHead (buf ++ ·))).frames } := by
  induction xs generalizing buf out with
  | nil =>
    have hshort : ¬ buf.length > MAX_FRAME_BYTES := by omega
    simp [FrameDecoder.pushBytes, judge, Pushed.judged, FrameDecoder.pendingBytes, hshort]
  | cons b xs ih =>
    have hlines : xs.splitOn LF ≠ [] := List.splitOnP_ne_nil _ xs
    obtain ⟨line, lines, hcut⟩ := List.exists_cons_of_ne_nil hlines
    have hshort : ¬ buf.length > MAX_FRAME_BYTES := by omega
    have hcons : (b :: xs).splitOn LF =
        if b = LF then [] :: xs.splitOn LF else (xs.splitOn LF).modifyHead (List.cons b) := by
      simp only [List.splitOn, List.splitOnP_cons_eq_if_modifyHead, beq_iff_eq]
    rw [FrameDecoder.pushBytes, hcons]
    split_ifs with hlf hlong
    · -- the line feed ends the line in the buffer
      rw [List.modifyHead_cons, List.append_nil, judge, if_neg hshort, if_neg hlines]
      cases decodeFrame t buf with
      | ok text =>
        show (FrameDecoder.pushBytes t [] (out ++ [text]) xs).judged = _
        have hhead : (xs.splitOn LF).modifyHead ([] ++ ·) = xs.splitOn LF := by
          rw [hcut, List.modifyHead_cons, List.nil_append]
        rw [ih (Nat.zero_le _), hhead]
        simp
      | error kind => simp [Pushed.judged, FrameDecoder.pendingBytes]
    · -- the byte is one too many, whatever the line goes on to be
      rw [hcut, List.modifyHead_cons, List.modifyHead_cons, judge, if_pos]
      · simp only [List.length_append, List.length_singleton] at hlong
        simp only [Pushed.judged, FrameDecoder.pendingBytes, List.append_nil, List.length_append,
          List.length_singleton, Judged.mk.injEq, true_and]
        omega
      · simp only [List.length_append, List.length_cons, List.length_nil] at hlong ⊢
        omega
    · rw [ih (by omega), hcut]
      simp

/-- **The decoder is the reference**: it cuts at line feeds and judges the lines in order. -/
theorem push_new_eq_reference (t : FrameText) (bytes : List UInt8) :
    (FrameDecoder.new.push t bytes []).judged = reference t bytes := by
  have hlines : bytes.splitOn LF ≠ [] := List.splitOnP_ne_nil _ bytes
  obtain ⟨line, lines, hcut⟩ := List.exists_cons_of_ne_nil hlines
  have hpush : FrameDecoder.new.push t bytes [] = FrameDecoder.pushBytes t [] [] bytes := rfl
  rw [hpush, FrameDecoder.pushBytes_judged (Nat.zero_le _), reference, hcut]
  simp

/-- A line that no frame came of is at most one byte too long. -/
lemma judge_pending_le (t : FrameText) (lines : List (List UInt8)) :
    (judge t lines).pending ≤ MAX_FRAME_BYTES + 1 := by
  induction lines with
  | nil => simp [judge]
  | cons line lines ih =>
    rw [judge]
    split_ifs with hlong hlast
    · exact le_rfl
    · show line.length ≤ _
      omega
    · cases decodeFrame t line with
      | ok text => exact ih
      | error kind =>
        show line.length ≤ _
        omega

end Push

end Sumer.Wire
