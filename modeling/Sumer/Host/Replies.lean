import Sumer.Host.Envelope
import Sumer.Host.History
import Sumer.Wire.RoundTrip

set_option relaxedAutoImplicit false
set_option autoImplicit false

/-!
# Replies, from the frame on

The bodies of the two reads as they are decoded (`core/wire/src/ops.rs`,
`core/wire/src/envelope.rs`), and the calls from the frame on (`core/host/src/lib.rs`): the frame is
decoded straight into the reply that the op answers with, and is then checked and stamped.

## Main definitions

* `Sumer.Host.HistoryReply.decode`, `Sumer.Host.BalancesReply.decode`: the bodies.
* `Sumer.Host.readHistory`, `Sumer.Host.readBalances`: the calls.
-/

namespace Sumer.Host

open Sumer.Wire

/-- An error code, by its wire spelling. -/
def WireErrorCode.decode : Json → Except DecodeError WireErrorCode :=
  oneOf [("unsupported_protocol", .unsupportedProtocol), ("unsupported", .unsupported),
    ("invalid_request", .invalidRequest), ("not_ready", .notReady), ("internal", .internal)]

/-- The body of an `err` envelope. Its detail is any value, and is not read. -/
def ErrorBody.decode (j : Json) : Except DecodeError ErrorBody := do
  let members ← object "an error body: an object with `code`, `message`, and optional `detail`"
    ["code", "message", "detail"] j
  let code ← required members "code" WireErrorCode.decode
  let message ← required members "message" string
  return { code, message }

/-- The body of a `history.read` reply. -/
def HistoryReply.decode (j : Json) : Except DecodeError HistoryReply := do
  let members ← object "a history.read reply body: an object" ["observations", "statuses"] j
  let observations ← required members "observations" (sequence ObservationWire.decode)
  let statuses ← required members "statuses" (sequence ResourceStatus.decode)
  return { observations, statuses }

/-- The body of a `balances.read` reply. -/
def BalancesReply.decode (j : Json) : Except DecodeError BalancesReply := do
  let members ← object "a balances.read reply body: an object" ["observations", "statuses"] j
  let observations ← required members "observations" (sequence BalanceWire.decode)
  let statuses ← required members "statuses" (sequence ResourceStatus.decode)
  return { observations, statuses }

/-- What the host uses of third-party code to read a frame: the document of a text, and the texts
of the two kinds of errors. -/
structure Reader where
  parse : String → Option (List (String × Json))
  display : DecodeError → String
  displayEnvelope : EnvelopeError → String

/-- A call, from the frame on: the body its op answers with. -/
def Reader.call {T : Type} (r : Reader) (decode : Json → Except DecodeError T) (op frame : String) :
    Except HostError T :=
  callTyped r.parse (fun j => (decode j).mapError r.display)
    (fun j => (ErrorBody.decode j).mapError r.display) r.displayEnvelope op frame

/-- `AdapterHandle::history_read`, from the frame on. -/
def readHistory (r : Reader) (texts : Texts) (helloAdapterId : String) (resourceIds : List String)
    (frame : String) (receivedAt : Rfc3339) : Except HostError HistoryRead := do
  let raw ← r.call HistoryReply.decode OP_HISTORY_READ frame
  historyRead texts helloAdapterId resourceIds raw receivedAt

/-- `AdapterHandle::balances_read`, from the frame on. -/
def readBalances (r : Reader) (texts : Texts) (helloAdapterId : String) (resourceIds : List String)
    (frame : String) (receivedAt : Rfc3339) : Except HostError BalancesRead := do
  let raw ← r.call BalancesReply.decode OP_BALANCES_READ frame
  balancesRead texts helloAdapterId resourceIds raw receivedAt

section Calls

variable {T : Type} {r : Reader} {decode : Json → Except DecodeError T} {op frame : String} {id : ℕ}
  {body : Json}

/-- The id of a reply is read back. -/
lemma requestId_nat (hid : id < 2 ^ 64) : requestId (Json.nat id) = .ok id := by
  have hlist : (toString id).toList = Nat.toDigits 10 id := Nat.toList_repr
  have hne : (Nat.toDigits 10 id).isEmpty = false := by
    rw [List.isEmpty_eq_false_iff]
    exact Nat.toDigits_ne_nil
  have hall : (Nat.toDigits 10 id).all Char.isDigit = true :=
    List.all_eq_true.mpr fun ch hch => Nat.isDigit_of_mem_toDigits (by decide) le_rfl hch
  have hle : id ≤ U64_MAX := Nat.le_sub_one_of_lt hid
  rw [Json.nat, requestId, hlist, hne, hall, Nat.ofDigitChars_ten_toDigits, if_pos hle]
  rfl

/-- A frame with an `ok` is its body, when that is of the op. -/
lemma Reader.call_ok (hid : id < 2 ^ 64) {x : T}
    (hparse : r.parse frame = some [("id", Json.nat id), ("ok", body)])
    (hbody : decode body = .ok x) : r.call decode op frame = .ok x := by
  have hreply : decodeReply (fun j => (decode j).mapError r.display)
      (fun j => (ErrorBody.decode j).mapError r.display)
        [("id", Json.nat id), ("ok", body)] = .ok (.ok id x) := by
    simp [decodeReply, visitMember, member, requestId_nat hid, hbody, Members.reply, bind,
      Except.bind, pure, Except.pure, Except.mapError, Except.map]
  rw [Reader.call, callTyped, hparse]
  simp only [hreply]

/-- A frame with an `err` is that error. -/
lemma Reader.call_err (hid : id < 2 ^ 64) {e : ErrorBody}
    (hparse : r.parse frame = some [("id", Json.nat id), ("err", body)])
    (hbody : ErrorBody.decode body = .ok e) : r.call decode op frame = .error (.wire e) := by
  have hreply : decodeReply (fun j => (decode j).mapError r.display)
      (fun j => (ErrorBody.decode j).mapError r.display)
        [("id", Json.nat id), ("err", body)] = .ok (.err id e) := by
    simp [decodeReply, visitMember, member, requestId_nat hid, hbody, Members.reply, bind,
      Except.bind, pure, Except.pure, Except.mapError, Except.map]
  rw [Reader.call, callTyped, hparse]
  simp only [hreply]

end Calls

end Sumer.Host
