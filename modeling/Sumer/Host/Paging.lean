import Sumer.Wire.Observation

set_option relaxedAutoImplicit false
set_option autoImplicit false

/-!
# The resume policy

What to resend if a paginated read had to be started over right now (`core/host/src/paging.rs`).
Under `exact` it is the `next` of the last completed page; under the other two families it never
leaves the start.

## Main definitions

* `Sumer.Host.ResumeState`: how one paginated read would be resumed.
-/

namespace Sumer.Host

open Sumer.Wire

/-- Tracks how to resume one resource's paginated read, across any number of pages. -/
structure ResumeState where
  start : Option PageRequest
  resumable : Option CursorResumable
  exactNext : Option PageRequest

/-- `ResumeState::new`: no page has completed yet. -/
def ResumeState.new (start : Option PageRequest) : ResumeState := ⟨start, none, none⟩

/-- The durable resume point. -/
def ResumeState.nextRequest (s : ResumeState) : Option PageRequest :=
  match s.resumable with
  | none => s.start
  | some .exact => s.exactNext
  | some .batchRestart => s.start
  | some .none => s.start

/-- Records a page reply that was received in full. -/
def ResumeState.record (s : ResumeState) (resumable : CursorResumable)
    (next : Option PageRequest) : ResumeState :=
  { s with
    resumable := some resumable
    exactNext := if resumable = .exact then next else s.exactNext }

/-- A sweep that has read no page starts where it was told to. -/
@[simp]
lemma ResumeState.start_new (start : Option PageRequest) : (ResumeState.new start).start = start :=
  rfl

/-- A sweep that has read no page asks first for the page it starts from. -/
@[simp]
lemma ResumeState.nextRequest_new (start : Option PageRequest) :
    (ResumeState.new start).nextRequest = start := rfl

/-- Recording a page leaves the place the sweep started from as it was. -/
@[simp]
lemma ResumeState.start_record (s : ResumeState) (resumable : CursorResumable)
    (next : Option PageRequest) : (s.record resumable next).start = s.start := rfl

/-- After a page of the `exact` family the durable point is that page's `next`; after any other
page it is the start. -/
lemma ResumeState.nextRequest_record (s : ResumeState) (resumable : CursorResumable)
    (next : Option PageRequest) :
    (s.record resumable next).nextRequest = if resumable = .exact then next else s.start := by
  cases resumable <;> rfl

end Sumer.Host
