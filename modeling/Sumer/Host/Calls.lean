import Sumer.Host.Replies
import Sumer.Wire.Value

set_option relaxedAutoImplicit false
set_option autoImplicit false

/-!
# The other calls

The handshake, `resources.list` and `status.read`, from the frame on (`core/host/src/lib.rs`). The
handshake is refused unless the adapter selects a version that it was offered; a `status.read` reply
gives every requested resource exactly one status; a `resources.list` reply answers for no resource,
and is taken as it is.

## Main definitions

* `Sumer.Host.HelloReply.decode`, `Sumer.Host.decodeResources`, `Sumer.Host.decodeStatuses`: the
  bodies.
* `Sumer.Host.shakeHands`, `Sumer.Host.listResources`, `Sumer.Host.readStatus`: the calls.
-/

namespace Sumer.Host

open Sumer.Wire

/-- The protocol versions that the host offers. -/
def OFFERED_PROTOCOLS : List String := ["1"]

/-- `OP_HELLO`: the operation that asks an adapter who it is. -/
def OP_HELLO : String := "hello"

/-- `OP_RESOURCES_LIST`: the operation that asks for the resources an adapter serves. -/
def OP_RESOURCES_LIST : String := "resources.list"

/-- `OP_STATUS_READ`: the operation that asks how an adapter's resources are. -/
def OP_STATUS_READ : String := "status.read"

/-- What an adapter says of itself. -/
structure HelloReply where
  protocol : String
  adapterId : String
  adapterVersion : String
  capabilities : List String
  localIdDerivation : String
  maxInFlight : ℕ

/-- The body of a `hello` reply. An adapter that does not say otherwise is serial. -/
def HelloReply.decode (j : Json) : Except DecodeError HelloReply := do
  let members ← object "a hello reply: an object describing the adapter"
    ["protocol", "adapter_id", "adapter_version", "capabilities", "local_id_derivation",
      "max_in_flight"] j
  let protocol ← required members "protocol" string
  let adapterId ← required members "adapter_id" string
  let adapterVersion ← required members "adapter_version" string
  let capabilities ← required members "capabilities" (sequence string)
  let localIdDerivation ← required members "local_id_derivation" string
  let maxInFlight ← defaulted members "max_in_flight" 1 (unsigned 32)
  return { protocol, adapterId, adapterVersion, capabilities, localIdDerivation, maxInFlight }

/-- The body of a `resources.list` reply. -/
def decodeResources (j : Json) : Except DecodeError (List ResourceDescriptor) := do
  let members ← object "a resources.list reply body: an object" ["resources"] j
  required members "resources" (sequence ResourceDescriptor.decode)

/-- The body of a `status.read` reply. -/
def decodeStatuses (j : Json) : Except DecodeError (List ResourceStatus) := do
  let members ← object "a status.read reply body: an object" ["statuses"] j
  required members "statuses" (sequence ResourceStatus.decode)

/-- The handshake, from the frame on. -/
def shakeHands (r : Reader) (texts : Texts) (frame : String) : Except HostError HelloReply := do
  let hello ← r.call HelloReply.decode OP_HELLO frame
  if hello.protocol ∈ OFFERED_PROTOCOLS then .ok hello
  else
    .error (.wire ⟨.unsupportedProtocol,
      "adapter selected protocol " ++ texts.debug hello.protocol ++ ", which was not offered"⟩)

/-- `AdapterHandle::resources_list`, from the frame on. -/
def listResources (r : Reader) (frame : String) : Except HostError (List ResourceDescriptor) :=
  r.call decodeResources OP_RESOURCES_LIST frame

/-- `AdapterHandle::status_read`, from the frame on. -/
def readStatus (r : Reader) (texts : Texts) (resourceIds : List String) (frame : String) :
    Except HostError (List ResourceStatus) := do
  let raw ← r.call decodeStatuses OP_STATUS_READ frame
  checkStatusCoverage texts OP_STATUS_READ resourceIds raw
  return raw

/-! ### Bodies that were values -/

/-- The two lists of a history reply are read alike from the value. -/
lemma readsValue_historyReply : ReadsValue HistoryReply.decode := by
  intro j x hx
  simp only [HistoryReply.decode, except_bind_eq_ok] at hx ⊢
  obtain ⟨members, hmembers, observations, hobservations, statuses, hstatuses, hx⟩ := hx
  obtain ⟨members', hmembers', hv⟩ := object_value hmembers
  exact ⟨members', hmembers',
    observations, required_value hv (fun j => readsValue_observation.sequence j _) hobservations,
    statuses, required_value hv (fun j => readsValue_status.sequence j _) hstatuses, hx⟩

/-- A reply to `balances.read` is read alike off the frame and off the `Value` of the frame. -/
lemma readsValue_balancesReply : ReadsValue BalancesReply.decode := by
  intro j x hx
  simp only [BalancesReply.decode, except_bind_eq_ok] at hx ⊢
  obtain ⟨members, hmembers, observations, hobservations, statuses, hstatuses, hx⟩ := hx
  obtain ⟨members', hmembers', hv⟩ := object_value hmembers
  exact ⟨members', hmembers',
    observations, required_value hv (fun j => readsValue_balance.sequence j _) hobservations,
    statuses, required_value hv (fun j => readsValue_status.sequence j _) hstatuses, hx⟩

/-- A reply to `status.read` is read alike off the frame and off the `Value` of the frame. -/
lemma readsValue_statuses : ReadsValue decodeStatuses := by
  intro j x hx
  simp only [decodeStatuses, except_bind_eq_ok] at hx ⊢
  obtain ⟨members, hmembers, hx⟩ := hx
  obtain ⟨members', hmembers', hv⟩ := object_value hmembers
  exact ⟨members', hmembers', required_value hv (fun j => readsValue_status.sequence j _) hx⟩

/-- A reply to `resources.list` is read alike off the frame and off the `Value` of the frame. -/
lemma readsValue_resources : ReadsValue decodeResources := by
  intro j x hx
  simp only [decodeResources, except_bind_eq_ok] at hx ⊢
  obtain ⟨members, hmembers, hx⟩ := hx
  obtain ⟨members', hmembers', hv⟩ := object_value hmembers
  exact ⟨members', hmembers', required_value hv (fun j => readsValue_resource.sequence j _) hx⟩

/-- A reply to `hello` is read alike off the frame and off the `Value` of the frame. -/
lemma readsValue_hello : ReadsValue HelloReply.decode := by
  intro j x hx
  simp only [HelloReply.decode, except_bind_eq_ok] at hx ⊢
  obtain ⟨members, hmembers, protocol, hprotocol, adapterId, hadapter, version, hversion,
    capabilities, hcapabilities, derivation, hderivation, maxInFlight, hmax, hx⟩ := hx
  obtain ⟨members', hmembers', hv⟩ := object_value hmembers
  exact ⟨members', hmembers',
    protocol, required_value hv (fun j => readsValue_string j _) hprotocol,
    adapterId, required_value hv (fun j => readsValue_string j _) hadapter,
    version, required_value hv (fun j => readsValue_string j _) hversion,
    capabilities, required_value hv (fun j => readsValue_string.sequence j _) hcapabilities,
    derivation, required_value hv (fun j => readsValue_string j _) hderivation,
    maxInFlight, defaulted_value hv (readsValue_unsigned 32) hmax, hx⟩

end Sumer.Host
