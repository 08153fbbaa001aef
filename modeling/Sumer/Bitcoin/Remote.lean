import Sumer.Bitcoin.Process

set_option relaxedAutoImplicit false
set_option autoImplicit false

/-!
# Remote calls

The typed calls of the host (`core/host/src/lib.rs`), made over the lines of the adapter's process
(`adapters/bitcoin/src/main.rs`). The host serializes the params of a call into the frame of a
request; the process reads them, makes its answer, and writes it into the frame of a reply; the host
reads, checks and stamps it. All that the host has in the end is what the operation of the adapter
makes of the very params of the call: nothing is lost, refused or changed on the way, except that a
reply that does not fit a frame comes as an error.

## Main definitions

* `Sumer.Bitcoin.Call`: the calls of the host.
* `Sumer.Bitcoin.Call.receive`: what the host reads of a frame.
* `Sumer.Bitcoin.Program.outcome`: what the adapter makes of a call.

## Main results

* `Sumer.Bitcoin.reply_read`: the host reads a history reply as it was made.
* `Sumer.Bitcoin.remote_calls`: a session of calls is a session of the operations.
-/

namespace Sumer.Bitcoin

open Sumer.Wire Sumer.Host Sumer.Money

/-! ### The host's side -/

/-- A typed call of the host. -/
inductive Call where
  | hello
  | resourcesList
  | balancesRead (resourceIds : List String)
  | historyRead (resources : List ResourceQuery)
  | statusRead (resourceIds : List String)

/-- The operation that is called. -/
def Call.op : Call → String
  | .hello => OP_HELLO
  | .resourcesList => OP_RESOURCES_LIST
  | .balancesRead _ => OP_BALANCES_READ
  | .historyRead _ => OP_HISTORY_READ
  | .statusRead _ => OP_STATUS_READ

/-- A resource of a `history.read` request, as it is serialized. -/
def ResourceQuery.toJson (q : ResourceQuery) : Json :=
  .obj ([("resource_id", .str q.resourceId)] ++ optional "page" pageRequestJson q.page)

/-- The params of a call, as they are serialized. -/
def Call.params : Call → Json
  | .hello => .obj [("protocol", .arr (OFFERED_PROTOCOLS.map Json.str))]
  | .resourcesList => .obj []
  | .balancesRead resourceIds => .obj [("resource_ids", .arr (resourceIds.map Json.str))]
  | .historyRead resources => .obj [("resources", .arr (resources.map ResourceQuery.toJson))]
  | .statusRead resourceIds => .obj [("resource_ids", .arr (resourceIds.map Json.str))]

/-- The request of a call, under an id. -/
def Call.request (c : Call) (id : ℕ) : Request := ⟨id, c.op, c.params.value⟩

/-- What a call returns. -/
def Call.Result : Call → Type
  | .hello => HelloReply
  | .resourcesList => List ResourceDescriptor
  | .balancesRead _ => BalancesRead
  | .historyRead _ => HistoryRead
  | .statusRead _ => List ResourceStatus

/-- A call, from the frame of its reply on. -/
def Call.receive (r : Reader) (texts : Texts) (frame : String) (receivedAt : Rfc3339) :
    (c : Call) → Except HostError c.Result
  | .hello => shakeHands r texts frame
  | .resourcesList => listResources r frame
  | .balancesRead resourceIds =>
    readBalances r texts "sumer-bitcoin" resourceIds frame receivedAt
  | .historyRead resources =>
    readHistory r texts "sumer-bitcoin" (resources.map ResourceQuery.resourceId) frame receivedAt
  | .statusRead resourceIds => readStatus r texts resourceIds frame

/-! ### The adapter's side -/

/-- What the adapter says of itself. -/
def announced : HelloReply where
  protocol := "1"
  adapterId := "sumer-bitcoin"
  adapterVersion := "0.1.0"
  capabilities := [OP_RESOURCES_LIST, OP_BALANCES_READ, OP_HISTORY_READ, OP_STATUS_READ]
  localIdDerivation := "btc-txid@1"
  maxInFlight := 1

/-- A resource that is served. -/
def Program.descriptor (p : Program) (w : Wallet) : ResourceDescriptor where
  resourceId := w.resourceId
  providerId := p.adapter.providerId
  kind := "bitcoin_wallet"
  label := p.label w
  providerExtra := some [("address_count", Json.nat w.addresses.length),
    ("address_set_sha256", .str w.addressHash)]

/-- What the host has of a balances reply. -/
def BalancesReply.received (r : BalancesReply) : Host.BalancesReply :=
  ⟨r.observations, r.statuses.map StatusEntry.received⟩

/-- A balances reply, stamped: what is not too large, each line by the outcome of its resource. -/
def BalancesReply.stamped (texts : Texts) (receivedAt : Rfc3339) (r : BalancesReply) :
    BalancesRead :=
  let (kept, statuses) := dropOversized texts.balanceBytes (fun _ => true)
    (fun b => (b.resourceId, none)) r.observations (r.statuses.map StatusEntry.received)
  ⟨kept.map fun b => Balance.stamp b receivedAt
    (stalenessFor (stalenessByResource (r.statuses.map StatusEntry.received)) b.resourceId),
    statuses⟩

/-- A history reply, stamped: every observation is live. -/
def HistoryReply.stamped (receivedAt : Rfc3339) (r : HistoryReply) : HistoryRead :=
  ⟨r.observations.map fun o => Observation.stamp o receivedAt .live,
    r.statuses.map StatusEntry.received⟩

/-- What the adapter makes of a call. -/
def Program.outcome (p : Program) (texts : Texts) (m : Moment) (s : Process)
    (receivedAt : Rfc3339) : (c : Call) → Except ErrorBody c.Result
  | .hello => .ok announced
  | .resourcesList => .ok (p.adapter.wallets.map p.descriptor)
  | .balancesRead resourceIds =>
    (Bitcoin.balancesRead p.adapter p.store (balanceCall resourceIds m.now m.world m.writes)
      s.disk).2.map (BalancesReply.stamped texts receivedAt)
  | .historyRead resources =>
    (Bitcoin.historyRead p.debug p.adapter m.world s.crawls resources).2.map
      (HistoryReply.stamped receivedAt)
  | .statusRead resourceIds =>
    (noRepeats resourceIds).map fun _ =>
      (resourceIds.foldl (statusTurn p.adapter m.world) ⟨[], false⟩).statuses.map
        StatusEntry.received

/-- The body that the adapter answers a call with. -/
def Program.made (p : Program) (m : Moment) (s : Process) : Call → Except ErrorBody Json
  | .hello => .ok helloReplyJson.value
  | .resourcesList =>
    .ok (Json.obj [("resources",
      .arr (p.adapter.wallets.map (descriptorJson p.adapter p.label)))]).value
  | .balancesRead resourceIds =>
    (Bitcoin.balancesRead p.adapter p.store (balanceCall resourceIds m.now m.world m.writes)
      s.disk).2.map fun reply => reply.toJson.value
  | .historyRead resources =>
    (Bitcoin.historyRead p.debug p.adapter m.world s.crawls resources).2.map
      fun reply => reply.toJson.value
  | .statusRead resourceIds =>
    (noRepeats resourceIds).map fun _ =>
      (statusReplyJson
        (resourceIds.foldl (statusTurn p.adapter m.world) ⟨[], false⟩).statuses).value

/-- The process after a call. -/
def Program.after (p : Program) (m : Moment) (s : Process) : Call → Process
  | .balancesRead resourceIds =>
    { s with disk := (Bitcoin.balancesRead p.adapter p.store
        (balanceCall resourceIds m.now m.world m.writes) s.disk).1 }
  | .historyRead resources =>
    { s with crawls := (Bitcoin.historyRead p.debug p.adapter m.world s.crawls resources).1 }
  | _ => s

/-- The sizes of the records that a call omits are 64-bit numbers. -/
def Program.Measured (p : Program) (m : Moment) (s : Process) : Call → Prop
  | .historyRead resources =>
    ∀ reply, (Bitcoin.historyRead p.debug p.adapter m.world s.crawls resources).2 = .ok reply →
      ∀ e ∈ reply.statuses, ∀ d ∈ e.degraded, d.bytes < 2 ^ 64
  | _ => True

/-- An error of the adapter, as the host has it. -/
def ErrorBody.wire (e : ErrorBody) : HostError := .wire ⟨e.code, e.message⟩

/-! ### Params -/

section Params

/-- Params with one list are read back. -/
lemma list_value {α : Type} (toJson : α → Json) {decode : Json → Except DecodeError α}
    (h : ReadsValue decode) (hitem : ∀ x, decode (toJson x) = .ok x) (expecting key : String)
    (l : List α) :
    (object expecting [key] (Json.obj [(key, .arr (l.map toJson))]).value >>= fun members =>
      required members key (sequence decode)) = .ok l := by
  have hmembers : object expecting [key] (Json.obj [(key, .arr (l.map toJson))]).value =
      .ok [(key, (Json.arr (l.map toJson)).value)] :=
    object_of_sublist (.refl _) (List.nodup_singleton key)
  have hlist : sequence decode (.arr (l.map toJson)) = .ok l := by
    rw [sequence_map toJson id fun x _ => hitem x, List.map_id]
  exact except_bind_eq_ok.mpr ⟨_, hmembers, required_eq (by simp) (h.sequence _ _ hlist)⟩

/-- A list of resources is read back. -/
lemma resourceIdsParams_value (expecting : String) (resourceIds : List String) :
    resourceIdsParams expecting
      (Json.obj [("resource_ids", .arr (resourceIds.map Json.str))]).value = .ok resourceIds :=
  list_value Json.str readsValue_string string_str expecting _ _

/-- The adapter reads a query as the host has written it, with its page or without one. -/
lemma ResourceQuery.decode_toJson (q : ResourceQuery) :
    ResourceQuery.decode q.toJson = .ok q := by
  have hmembers (expecting : String) : object expecting ["resource_id", "page"] q.toJson =
      .ok ([("resource_id", .str q.resourceId)] ++ optional "page" pageRequestJson q.page) := by
    refine object_of_sublist ?_ (by decide)
    simp only [List.map_append]
    exact (List.Sublist.refl _).append (map_fst_optional _)
  simp only [ResourceQuery.decode, except_bind_eq_ok]
  refine ⟨_, hmembers _, _, required_eq (by simp) (string_str q.resourceId), q.page,
    omittable_eq pageRequestJson (by simp) fun page _ => ⟨?_, decode_pageRequestJson page⟩, rfl⟩
  cases page <;> exact Json.noConfusion

/-- A query is read of its value. -/
lemma readsValue_query : ReadsValue ResourceQuery.decode := by
  intro j x hx
  simp only [ResourceQuery.decode, except_bind_eq_ok] at hx ⊢
  obtain ⟨members, hmembers, resourceId, hresource, page, hpage, hx⟩ := hx
  obtain ⟨members', hmembers', hv⟩ := object_value hmembers
  exact ⟨members', hmembers',
    resourceId, required_value hv (fun j => readsValue_string j _) hresource,
    page, omittable_value hv readsValue_pageRequest hpage, hx⟩

/-- The queries of a request are read back. -/
lemma historyReadParams_value (queries : List ResourceQuery) :
    historyReadParams (Call.historyRead queries).params.value = .ok queries :=
  list_value ResourceQuery.toJson readsValue_query ResourceQuery.decode_toJson _ _ _

/-- The versions that are offered are read back. -/
lemma helloParams_value : helloParams Call.hello.params.value = .ok OFFERED_PROTOCOLS :=
  list_value Json.str readsValue_string string_str _ _ _

end Params

/-! ### Answers -/

/-- What comes of an answer: the outcome, unless its reply does not fit a frame. -/
def Answered.delivered {T : Type} (x : Answered) (outcome : Except ErrorBody T) :
    Except HostError T :=
  if MAX_FRAME_BYTES < x.toJson.size then .error (tooLarge x.toJson.size).wire
  else outcome.mapError ErrorBody.wire

/-- A result has an outcome in it. -/
def Carries {T : Type} (decode : Json → Except DecodeError T) :
    Except ErrorBody Json → Except ErrorBody T → Prop
  | .ok body, .ok x => decode body = .ok x
  | .error e, .error e' => e = e'
  | _, _ => False

section Answers

variable {T U α : Type} {decode : Json → Except DecodeError T} {x : Answered} {r : Reader}
  {op : String} {outcome : Except ErrorBody T} {result : Except ErrorBody α}

/-- A result carries an outcome when each body, turned into a value, is decoded as what the outcome
makes of it. -/
lemma Carries.of_map (toJson : α → Json) (f : α → T)
    (h : ∀ y, result = .ok y → decode (toJson y).value = .ok (f y)) :
    Carries decode (result.map fun y => (toJson y).value) (result.map f) := by
  cases result with
  | ok y => exact h y rfl
  | error e => exact rfl

/-- **The host reads what the adapter has made**, or that it does not fit.

**Proof sketch.** By what was written. If the reply was too large, it is the error in its place that
is read. Otherwise the reply has a body, and the decoder for it gives the outcome, or an error,
which is read back as the adapter made it. -/
lemma call_written (hid : x.id < 2 ^ 64)
    (hparse : .obj <$> r.parse x.written.text = some x.written)
    (h : Carries decode x.result outcome) :
    r.call decode op x.written.text = x.delivered outcome := by
  obtain ⟨members, hmembers, hsame⟩ := Option.map_eq_some_iff.mp hparse
  unfold Answered.delivered
  unfold Answered.written at hsame hmembers ⊢
  split_ifs at hsame hmembers ⊢
  · cases hsame
    exact Reader.call_err hid hmembers (ErrorBody.decode_toJson _)
  · rw [Answered.toJson] at hsame
    cases hresult : x.result with
    | ok body =>
      rw [hresult] at hsame h
      cases houtcome : outcome with
      | ok y =>
        rw [houtcome] at h
        cases hsame
        exact Reader.call_ok hid hmembers h
      | error e =>
        rw [houtcome] at h
        exact h.elim
    | error e =>
      rw [hresult] at hsame h
      cases houtcome : outcome with
      | ok y =>
        rw [houtcome] at h
        exact h.elim
      | error e' =>
        rw [houtcome] at h
        cases hsame
        cases h
        exact Reader.call_err hid hmembers (ErrorBody.decode_toJson _)

/-- What the host does with a body that it accepts. -/
lemma delivered_bind (result : Except ErrorBody α) (f : α → T) (g : α → U)
    {k : T → Except HostError U} (h : ∀ y, result = .ok y → k (f y) = .ok (g y)) :
    (x.delivered (result.map f) >>= k) = x.delivered (result.map g) := by
  unfold Answered.delivered
  split_ifs
  · rfl
  · cases result with
    | ok y => exact h y rfl
    | error e => rfl

end Answers

/-! ### Bodies -/

section Bodies

variable {a : Adapter} {store : Store} {call : BalanceCall} {asOf : Rfc3339} {d : Disk}
  {world : String → Responses} {ids : List String}

/-- An entry with only an outcome can be read by the host, if the delay of its rate limit, should it
be one, is a number of 64 bits. -/
lemma fits_status {resourceId : String} {o : ReadOutcome}
    (h : ∀ ms, o = .rateLimited ms → ms < 2 ^ 64) : (status resourceId o).Fits where
  retryAfter := h
  degraded := fun _ hd => absurd hd List.not_mem_nil
  pageSize := fun _ _ hp => by cases hp

/-- Evidence does not matter for whether the host can read an entry. -/
lemma StatusEntry.Fits.withDetail {e : StatusEntry} (h : e.Fits) (detail : ProviderDetail) :
    (e.withDetail detail).Fits := ⟨h.retryAfter, h.degraded, h.pageSize⟩

/-- The entry of one resource in a balances reply.

**Proof sketch.** By the branches of the answer. None of its entries has a page, and the delay of a
rate limit is a number of 64 bits as the provider's error has it. -/
lemma fits_answerOf (a : Adapter) (store : Store) (call : BalanceCall) (asOf : Rfc3339) (d : Disk)
    (abandoned : Bool) (resourceId : String) :
    (answerOf a store call asOf d abandoned resourceId).entry.Fits := by
  have hbare {o : ReadOutcome} (ho : ∀ ms, o ≠ .rateLimited ms) (id : String) :
      (status id o).Fits := fits_status fun ms h => absurd h (ho ms)
  unfold answerOf
  split
  · exact (hbare (by simp) _).withDetail _
  · dsimp only [readUnless]
    split_ifs
    · exact hbare (by simp) _
    · unfold readWallet
      split
      · exact hbare (by simp) _
      · rename_i ms detail h
        refine (fits_status fun ms' hms => ?_).withDetail _
        cases hms
        exact ms.isLt
      · dsimp only
        split <;> exact (hbare (by simp) _).withDetail _

/-- The lines of one resource name this adapter. -/
lemma adapterId_answerOf {abandoned : Bool} {resourceId : String} {line : BalanceWire}
    (h : line ∈ (answerOf a store call asOf d abandoned resourceId).lines) :
    line.provenance.adapterId = "sumer-bitcoin" := by
  unfold answerOf at h
  split at h
  · exact absurd h List.not_mem_nil
  · simp only [linesOf, List.mem_cons, List.not_mem_nil, or_false] at h
    rcases h with rfl | rfl <;> rfl

/-- A balances reply is read back when the host can read each of its entries; its lines can always
be read. -/
lemma BalancesReply.decode_toJson {r : BalancesReply} (h : ∀ e ∈ r.statuses, e.Fits) :
    Host.BalancesReply.decode r.toJson = .ok r.received := by
  have hmembers (expecting : String) :
      object expecting ["observations", "statuses"] r.toJson =
        .ok [("observations", .arr (r.observations.map BalanceWire.toJson)),
          ("statuses", .arr (r.statuses.map StatusEntry.toJson))] :=
    object_of_sublist (.refl _) (by decide)
  have hobservations : sequence BalanceWire.decode
      (.arr (r.observations.map BalanceWire.toJson)) = .ok r.observations := by
    rw [sequence_map BalanceWire.toJson id fun b _ => b.decode_toJson, List.map_id]
  have hentries : sequence ResourceStatus.decode (.arr (r.statuses.map StatusEntry.toJson)) =
      .ok (r.statuses.map StatusEntry.received) :=
    sequence_map StatusEntry.toJson StatusEntry.received fun e he =>
      StatusEntry.decode_toJson (h e he)
  simp only [Host.BalancesReply.decode, except_bind_eq_ok]
  exact ⟨_, hmembers _, _, required_eq (by simp) hobservations, _, required_eq (by simp) hentries,
    rfl⟩

/-- **The host accepts every balances reply** of this adapter.

**Proof sketch.** Every line of the reply belongs to the answer of a resource that was asked for,
and is stamped with the adapter's own id, so the host finds nothing foreign and nothing it did not
ask for. The entries are one for each resource of the call, in order, so the statuses cover the
request. -/
lemma balancesRead_received (texts : Texts) {reply : BalancesReply}
    (h : (Bitcoin.balancesRead a store call d).2 = .ok reply) (receivedAt : Rfc3339) :
    (∀ e ∈ reply.statuses, e.Fits) ∧
      Host.balancesRead texts "sumer-bitcoin" call.resourceIds reply.received receivedAt =
        .ok (reply.stamped texts receivedAt) := by
  obtain ⟨hnodup, asOf, -, rfl⟩ := Bitcoin.balancesRead_eq_ok h
  have hanswer {x : Answer} (hx : x ∈ answersOf a store call asOf d false call.resourceIds) :
      x.entry.Fits ∧ ∀ line ∈ x.lines, line.provenance.adapterId = "sumer-bitcoin" ∧
        line.resourceId ∈ call.resourceIds := by
    obtain ⟨before, resourceId, after, hids, rfl⟩ := mem_answersOf.mp hx
    refine ⟨fits_answerOf _ _ _ _ _ _ _, fun line hline => ⟨adapterId_answerOf hline, ?_⟩⟩
    rw [(resourceId_answerOf _ _ _ _ _ _ _).2 line hline, hids]
    exact List.mem_append_right _ List.mem_cons_self
  have hline {line : BalanceWire}
      (hline : line ∈ (answersOf a store call asOf d false call.resourceIds).flatMap Answer.lines) :
      line.provenance.adapterId = "sumer-bitcoin" ∧ line.resourceId ∈ call.resourceIds := by
    obtain ⟨x, hx, hmem⟩ := List.mem_flatMap.mp hline
    exact (hanswer hx).2 line hmem
  refine ⟨fun e he => ?_, ?_⟩
  · obtain ⟨x, hx, rfl⟩ := List.mem_map.mp he
    exact (hanswer hx).1
  have hids : (((answersOf a store call asOf d false call.resourceIds).map Answer.entry).map
      StatusEntry.received).map ResourceStatus.resourceId = call.resourceIds := by
    rw [List.map_map, List.map_map]
    exact resourceIds_answersOf call.resourceIds
  have hcoverage : checkStatusCoverage texts OP_BALANCES_READ call.resourceIds
      (((answersOf a store call asOf d false call.resourceIds).map Answer.entry).map
        StatusEntry.received) = .ok () := by
    rw [checkStatusCoverage_eq_ok, hids]
    exact ⟨hnodup, fun id hid => hid⟩
  have hforeign : ((answersOf a store call asOf d false call.resourceIds).flatMap
      Answer.lines).find? (fun b => decide (b.provenance.adapterId ≠ "sumer-bitcoin")) = none :=
    List.find?_eq_none.mpr fun line hmem => by simp [(hline hmem).1]
  have hunasked : ((answersOf a store call asOf d false call.resourceIds).flatMap
      Answer.lines).find? (fun b => decide (b.resourceId ∉ call.resourceIds)) = none :=
    List.find?_eq_none.mpr fun line hmem => by simp [(hline hmem).2]
  simp only [Host.balancesRead, BalancesReply.received, hcoverage, hforeign, hunasked]
  rfl

/-- What the loop over the resources of a `status.read` request makes.

**Proof sketch.** One turn adds one entry, of its own resource, which the host can read: it has
no page, and a rate limit in it is a number of 64 bits. The loop is then by induction on the
resources. -/
lemma statuses_statusTurns (a : Adapter) (world : String → Responses) (ids : List String)
    (s : StatusReading) (h : ∀ e ∈ s.statuses, e.Fits) :
    (∀ e ∈ (ids.foldl (statusTurn a world) s).statuses, e.Fits) ∧
      (ids.foldl (statusTurn a world) s).statuses.map StatusEntry.resourceId =
        s.statuses.map StatusEntry.resourceId ++ ids := by
  have hturn (s : StatusReading) (resourceId : String) : ∃ e : StatusEntry,
      (statusTurn a world s resourceId).statuses = s.statuses ++ [e] ∧
        e.resourceId = resourceId ∧ e.Fits := by
    have hbare {o : ReadOutcome} (ho : ∀ ms, o ≠ .rateLimited ms) :
        (status resourceId o).Fits := fits_status fun ms h => absurd h (ho ms)
    unfold statusTurn
    split
    · exact ⟨_, rfl, rfl, (hbare (by simp)).withDetail _⟩
    split_ifs
    · exact ⟨_, rfl, rfl, hbare (by simp)⟩
    split
    · exact ⟨_, rfl, rfl, hbare (by simp)⟩
    · rename_i ms detail hstats
      refine ⟨_, rfl, rfl, (fits_status fun ms' hms => ?_).withDetail _⟩
      cases hms
      exact ms.isLt
    · exact ⟨_, rfl, rfl, (hbare (by simp)).withDetail _⟩
  induction ids generalizing s with
  | nil => exact ⟨h, by simp⟩
  | cons resourceId ids ih =>
    obtain ⟨e, hstatuses, hid, hfits⟩ := hturn s resourceId
    obtain ⟨hall, hids⟩ := ih (statusTurn a world s resourceId) (by
      rw [hstatuses]
      exact List.forall_mem_append.mpr ⟨h, List.forall_mem_singleton.mpr hfits⟩)
    refine ⟨hall, ?_⟩
    rw [List.foldl_cons, hids, hstatuses]
    simp [hid]

end Bodies

/-! ### Calls -/

section Calls

variable {p : Program} {m : Moment} {s : Process} {c : Call} {id : ℕ} {r : Reader} {x : Answered}

/-- Nothing at the end of an object is cut from its line. -/
lemma trimEnd_text (members : List (String × Json)) :
    trimEnd ((Json.obj members).text ++ "\n") = (Json.obj members).text ∧
      (Json.obj members).text.isEmpty = false := by
  have hchars : (Json.obj members).text.toList = ['\x7b'] ++ membersChars members ++ ['\x7d'] := by
    rw [Json.text, String.toList_ofList, Json.chars]
  constructor
  · have htail : ("\n" : String).toList = ['\n'] := by decide
    rw [trimEnd, String.toList_append, htail, List.rdropWhile_concat_pos _ _ _ (by decide), hchars,
      List.rdropWhile_concat_neg _ _ _ (by decide), ← hchars, String.ofList_toList]
  · rw [← Bool.not_eq_true, String.isEmpty_iff, ← String.toList_eq_nil_iff, hchars]
    simp

/-- **A frame is handed to its operation**, with the params of the call. -/
lemma turn_frame (hid : id < 2 ^ 64)
    (hparse : p.parse (c.request id).toJson.text = some (c.request id).toJson) :
    p.turn s m ((c.request id).toJson.text ++ "\n") =
      ((p.dispatch m s c.op c.params.value).1,
        some ⟨id, (p.dispatch m s c.op c.params.value).2⟩) := by
  have hrequest : Request.decode (c.request id).toJson.value =
      .ok ⟨id, c.op, c.params.value⟩ := by
    have hvalue := Request.decode_value (Request.decode_toJson (c.request id) hid)
    rw [hvalue, Call.request, Json.value_value]
  have hparams : paramsOrEmpty c.params.value = c.params.value := by cases c <;> rfl
  obtain ⟨htrim, hempty⟩ := trimEnd_text [("id", Json.nat id), ("op", .str c.op),
    ("params", c.params.value)]
  rw [Program.turn]
  rw [show (c.request id).toJson = .obj [("id", Json.nat id), ("op", .str c.op),
    ("params", c.params.value)] from rfl] at hparse hrequest ⊢
  rw [htrim, hempty, if_neg Bool.false_ne_true, Program.handle, hparse, Option.map_some]
  dsimp only
  rw [hrequest]
  dsimp only
  rw [hparams]

/-- The host reads the adapter's announcement from its value: the protocol, the identity and the
operations. -/
lemma decode_helloReplyJson : HelloReply.decode helloReplyJson.value = .ok announced := by
  have hmembers (expecting : String) : object expecting ["protocol", "adapter_id",
      "adapter_version", "capabilities", "local_id_derivation", "max_in_flight"] helloReplyJson =
      .ok [("protocol", .str "1"), ("adapter_id", .str "sumer-bitcoin"),
        ("adapter_version", .str "0.1.0"),
        ("capabilities", .arr [.str OP_RESOURCES_LIST, .str OP_BALANCES_READ,
          .str OP_HISTORY_READ, .str OP_STATUS_READ]),
        ("local_id_derivation", .str "btc-txid@1"), ("max_in_flight", Json.nat 1)] :=
    object_of_sublist (.refl _) (by decide)
  refine readsValue_hello _ _ ?_
  simp only [HelloReply.decode, except_bind_eq_ok]
  exact ⟨_, hmembers _, _, required_eq (by simp) (string_str _), _,
    required_eq (by simp) (string_str _), _, required_eq (by simp) (string_str _), _,
    required_eq (by simp; rfl) rfl, _, required_eq (by simp) (string_str _), 1,
    defaulted_eq_ok.mpr (.inr ⟨_, by simp, unsigned_nat (by decide)⟩), rfl⟩

/-- The resources are read back.

**Proof sketch.** One descriptor is read back member by member, and its two extra members are in the
order of their keys, so they form a map. The list is then read item by item. -/
lemma decode_resources (p : Program) : decodeResources (Json.obj [("resources",
    .arr (p.adapter.wallets.map (descriptorJson p.adapter p.label)))]).value =
      .ok (p.adapter.wallets.map p.descriptor) := by
  have hkeys : "address_count" < "address_set_sha256" := by
    rw [String.lt_iff_toList_lt]
    decide
  have hextra (w : Wallet) : IsMap [("address_count", Json.nat w.addresses.length),
      ("address_set_sha256", .str w.addressHash)] :=
    Record.toMap_of_pairwise (List.pairwise_pair.mpr hkeys)
  have hitem (w : Wallet) : ResourceDescriptor.decode (descriptorJson p.adapter p.label w) =
      .ok (p.descriptor w) := by
    have hmembers (expecting : String) : object expecting
        ["resource_id", "provider_id", "kind", "label", "provider_extra"]
        (descriptorJson p.adapter p.label w) =
        .ok [("resource_id", .str w.resourceId), ("provider_id", .str p.adapter.providerId),
          ("kind", .str "bitcoin_wallet"), ("label", .str (p.label w)),
          ("provider_extra", .obj [("address_count", Json.nat w.addresses.length),
            ("address_set_sha256", .str w.addressHash)])] :=
      object_of_sublist (.refl _) (by decide)
    simp only [ResourceDescriptor.decode, except_bind_eq_ok]
    refine ⟨_, hmembers _, _, required_eq (by simp) (string_str _), _,
      required_eq (by simp) (string_str _), _, required_eq (by simp) (string_str _), _,
      required_eq (by simp) (string_str _), _,
      omittable_eq Json.obj (by simp) fun members h => ⟨Json.noConfusion, ?_⟩, rfl⟩
    cases h
    exact congrArg Except.ok (hextra w)
  have hlist : sequence ResourceDescriptor.decode
      (.arr (p.adapter.wallets.map (descriptorJson p.adapter p.label))) =
        .ok (p.adapter.wallets.map p.descriptor) :=
    sequence_map _ p.descriptor fun w _ => hitem w
  refine readsValue_resources _ _ (except_bind_eq_ok.mpr ⟨_, object_of_sublist (.refl _)
    (List.nodup_singleton _), required_eq (by simp) hlist⟩)

/-- A status reply is read back from its value when the host can read each of its entries. -/
lemma decode_statusReplyJson {statuses : List StatusEntry} (h : ∀ e ∈ statuses, e.Fits) :
    decodeStatuses (statusReplyJson statuses).value =
      .ok (statuses.map StatusEntry.received) := by
  have hlist : sequence ResourceStatus.decode (.arr (statuses.map StatusEntry.toJson)) =
      .ok (statuses.map StatusEntry.received) :=
    sequence_map StatusEntry.toJson StatusEntry.received fun e he =>
      StatusEntry.decode_toJson (h e he)
  refine readsValue_statuses _ _ (except_bind_eq_ok.mpr ⟨_, object_of_sublist (.refl _)
    (List.nodup_singleton _), required_eq (by simp) hlist⟩)

/-- Each operation is dispatched by its name: the greeting, the listing and the status leave the
process as it was, the two reads may change what it has in hand or on disk. -/
lemma dispatch_eq (p : Program) (m : Moment) (s : Process) (params : Json) :
    p.dispatch m s OP_HELLO params = (s, p.hello params) ∧
      p.dispatch m s OP_RESOURCES_LIST params = (s, p.resourcesList params) ∧
      p.dispatch m s OP_BALANCES_READ params = p.balancesRead m s params ∧
      p.dispatch m s OP_HISTORY_READ params = p.historyRead m s params ∧
      p.dispatch m s OP_STATUS_READ params = (s, p.statusRead m params) := by
  refine ⟨?_, ?_, ?_, ?_, ?_⟩ <;> rw [Program.dispatch]
  · rw [if_pos rfl]
  · rw [if_neg (by decide), if_pos rfl]
  · rw [if_neg (by decide), if_neg (by decide), if_pos rfl]
  · rw [if_neg (by decide), if_neg (by decide), if_neg (by decide), if_pos rfl]
  · rw [if_neg (by decide), if_neg (by decide), if_neg (by decide), if_neg (by decide),
      if_pos rfl]

/-- The greeting is what the adapter says of itself. -/
lemma receive_hello (texts : Texts) (hid : x.id < 2 ^ 64) (hx : x.result = .ok helloReplyJson.value)
    (hparse : .obj <$> r.parse x.written.text = some x.written) :
    shakeHands r texts x.written.text = x.delivered (.ok announced) := by
  have hcarries : Carries HelloReply.decode x.result ((Except.ok announced).map id) := by
    rw [hx]
    exact decode_helloReplyJson
  show (r.call HelloReply.decode OP_HELLO x.written.text >>= _) = _
  rw [call_written hid hparse hcarries]
  refine delivered_bind (.ok announced) id id fun hello hhello => ?_
  cases hhello
  exact if_pos (by decide)

/-- The host has of a balances reply what the read has made, stamped.

**Proof sketch.** The body is written as a value, and what is read of it is what would be read of
the reply itself; the checks of the host pass, since there is one entry for each resource. -/
lemma receive_balances (texts : Texts) (receivedAt : Rfc3339) {a : Adapter} {store : Store}
    {resourceIds : List String} {now : ℤ} {world : String → Responses} {writes : Wallet → Bool}
    {d : Disk} (hid : x.id < 2 ^ 64)
    (hx : x.result = (balancesRead a store (balanceCall resourceIds now world writes) d).2.map
      fun reply => reply.toJson.value)
    (hparse : .obj <$> r.parse x.written.text = some x.written) :
    readBalances r texts "sumer-bitcoin" resourceIds x.written.text receivedAt =
      x.delivered ((balancesRead a store (balanceCall resourceIds now world writes) d).2.map
        (BalancesReply.stamped texts receivedAt)) := by
  have hcarries : Carries Host.BalancesReply.decode x.result
      ((balancesRead a store (balanceCall resourceIds now world writes) d).2.map
        BalancesReply.received) := by
    rw [hx]
    exact Carries.of_map BalancesReply.toJson _ fun reply hreply => readsValue_balancesReply _ _
      (BalancesReply.decode_toJson (balancesRead_received texts hreply receivedAt).1)
  show (r.call Host.BalancesReply.decode OP_BALANCES_READ x.written.text >>= _) = _
  rw [call_written hid hparse hcarries]
  exact delivered_bind _ _ (BalancesReply.stamped texts receivedAt)
    fun reply hreply => (balancesRead_received texts hreply receivedAt).2

/-- The host has of a history reply what the loop has made, stamped as live.

**Proof sketch.** Whatever the loop makes is within what the decoder takes (`readable_of_loop`), so
the body is read as the reply that was made, and the host accepts it (`historyRead_received`). -/
lemma receive_history (texts : Texts) (receivedAt : Rfc3339) {debug : String → String} {a : Adapter}
    {world : String → Responses} {crawls : Crawls} {queries : List ResourceQuery}
    (hid : x.id < 2 ^ 64)
    (hx : x.result = (historyRead debug a world crawls queries).2.map
      fun reply => reply.toJson.value)
    (hparse : .obj <$> r.parse x.written.text = some x.written)
    (hmeasured : ∀ reply, (historyRead debug a world crawls queries).2 = .ok reply →
      ∀ e ∈ reply.statuses, ∀ d ∈ e.degraded, d.bytes < 2 ^ 64) :
    readHistory r texts "sumer-bitcoin" (queries.map ResourceQuery.resourceId) x.written.text
        receivedAt =
      x.delivered ((historyRead debug a world crawls queries).2.map
        (HistoryReply.stamped receivedAt)) := by
  have hcarries : Carries Host.HistoryReply.decode x.result
      ((historyRead debug a world crawls queries).2.map HistoryReply.received) := by
    rw [hx]
    refine Carries.of_map HistoryReply.toJson _ fun reply hreply =>
      readsValue_historyReply _ _ ?_
    obtain ⟨-, s', hs', rfl⟩ := exists_loop hreply
    have hreadable := readable_of_loop hs'
    exact HistoryReply.decode_toJson _ hreadable.decode fun e he =>
      ⟨hreadable.retryAfter e he, hmeasured _ hreply e he, hreadable.pageSize e he⟩
  show (r.call Host.HistoryReply.decode OP_HISTORY_READ x.written.text >>= _) = _
  rw [call_written hid hparse hcarries]
  exact delivered_bind _ _ (HistoryReply.stamped receivedAt)
    fun reply hreply => historyRead_received hreply receivedAt

/-- The host has of a status reply the entries that the loop has made.

**Proof sketch.** What the loop made fits the host's bounds and names every requested resource once
(`statuses_statusTurns`), so the entries are decoded, and the coverage check of the host passes
exactly when the request repeats no resource. -/
lemma receive_status (texts : Texts) {a : Adapter} {world : String → Responses}
    {resourceIds : List String} (hid : x.id < 2 ^ 64)
    (hx : x.result = (noRepeats resourceIds).map fun _ =>
      (statusReplyJson (resourceIds.foldl (statusTurn a world) ⟨[], false⟩).statuses).value)
    (hparse : .obj <$> r.parse x.written.text = some x.written) :
    readStatus r texts resourceIds x.written.text =
      x.delivered ((noRepeats resourceIds).map fun _ =>
        (resourceIds.foldl (statusTurn a world) ⟨[], false⟩).statuses.map
          StatusEntry.received) := by
  obtain ⟨hfits, hids⟩ := statuses_statusTurns a world resourceIds ⟨[], false⟩
    fun e he => absurd he List.not_mem_nil
  set read := resourceIds.foldl (statusTurn a world) ⟨[], false⟩
  have hcarries : Carries decodeStatuses x.result
      ((noRepeats resourceIds).map fun _ => read.statuses.map StatusEntry.received) := by
    rw [hx]
    exact Carries.of_map (fun _ => statusReplyJson read.statuses)
      (fun _ => read.statuses.map StatusEntry.received) fun _ _ => decode_statusReplyJson hfits
  show (r.call decodeStatuses OP_STATUS_READ x.written.text >>= _) = _
  rw [call_written hid hparse hcarries]
  refine delivered_bind (noRepeats resourceIds) (fun _ => read.statuses.map StatusEntry.received)
    (fun _ => read.statuses.map StatusEntry.received) fun u hrepeats => ?_
  have hnodup : resourceIds.Nodup := by
    unfold noRepeats at hrepeats
    split_ifs at hrepeats with hnodup
    exact hnodup
  have hsame : (read.statuses.map StatusEntry.received).map ResourceStatus.resourceId =
      resourceIds := by
    rw [List.map_map]
    exact hids
  have hcoverage : checkStatusCoverage texts OP_STATUS_READ resourceIds
      (read.statuses.map StatusEntry.received) = .ok () := by
    rw [checkStatusCoverage_eq_ok, hsame]
    exact ⟨hnodup, fun id hid => hid⟩
  rw [hcoverage]
  rfl

/-- **What the process makes of a call**: the params are read as they were given, and the operation
is called with them.

**Proof sketch.** By the operation. The params of a call, as a value, are read back
(`helloParams_value`, `resourceIdsParams_value`, `historyReadParams_value`). -/
lemma dispatch_call (p : Program) (m : Moment) (s : Process) (c : Call) :
    p.dispatch m s c.op c.params.value = (p.after m s c, p.made m s c) := by
  obtain ⟨hhello, hresources, hbalances, hhistory, hstatus⟩ := dispatch_eq p m s c.params.value
  cases c with
  | hello =>
    rw [Call.op, hhello, Program.hello, helloParams_value]
    rfl
  | resourcesList =>
    rw [Call.op, hresources]
    rfl
  | balancesRead resourceIds =>
    rw [Call.op, hbalances, Program.balancesRead, balancesReadParams, Call.params,
      resourceIdsParams_value]
    rfl
  | historyRead resources =>
    rw [Call.op, hhistory, Program.historyRead, historyReadParams_value]
    rfl
  | statusRead resourceIds =>
    rw [Call.op, hstatus, Program.statusRead, statusReadParams, Call.params,
      resourceIdsParams_value]
    simp only [Program.made]
    cases noRepeats resourceIds <;> rfl

/-- **A call is a call of the operation**: the process goes on as the operation leaves it, and the
host has of the answer what the operation has made. -/
lemma receive_dispatch (texts : Texts) (receivedAt : Rfc3339) (hid : x.id < 2 ^ 64)
    (hx : x.result = (p.dispatch m s c.op c.params.value).2)
    (hparse : .obj <$> r.parse x.written.text = some x.written) (hmeasured : p.Measured m s c) :
    (p.dispatch m s c.op c.params.value).1 = p.after m s c ∧
      c.receive r texts x.written.text receivedAt =
        x.delivered (p.outcome texts m s receivedAt c) := by
  rw [dispatch_call] at hx ⊢
  refine ⟨rfl, ?_⟩
  cases c with
  | hello => exact receive_hello texts hid hx hparse
  | resourcesList =>
    refine call_written hid hparse ?_
    rw [hx]
    exact decode_resources p
  | balancesRead resourceIds => exact receive_balances texts receivedAt hid hx hparse
  | historyRead resources => exact receive_history texts receivedAt hid hx hparse hmeasured
  | statusRead resourceIds => exact receive_status texts hid hx hparse

end Calls

/-! ### One read of a history -/

/-- **A reply is read as it was made.** The host reads from the frame that goes out the observations
and the status entries that the loop has made, whatever the request and the provider: the coverage
holds, no observation is dropped for its size, and each is stamped as live. When the request fails,
the host reads its error, and in place of a reply that does not fit a frame the error that says so.
The frame is written through a value, whose keys are sorted. The sizes of records that were omitted
are 64-bit numbers, and the host's JSON parser reads the frame as the document that was written.

**Proof sketch.** An invariant of the loop keeps all that it makes within what the decoder takes, so
the body is read back (`receive_history`), and the checks of the host pass, since there is one entry
for each resource and a record only where the entry says fetched. -/
theorem reply_read (r : Reader) (texts : Texts) (debug : String → String) (a : Adapter)
    (world : String → Responses) (crawls : Crawls) (queries : List ResourceQuery)
    (requestId : U64) (receivedAt : Rfc3339) (x : Answered)
    (hx : x = ⟨requestId.val, (historyRead debug a world crawls queries).2.map
      fun reply => reply.toJson.value⟩)
    (hparse : .obj <$> r.parse x.written.text = some x.written)
    (hdegraded : ∀ reply, (historyRead debug a world crawls queries).2 = .ok reply →
      ∀ e ∈ reply.statuses, ∀ d ∈ e.degraded, d.bytes < 2 ^ 64) :
    readHistory r texts "sumer-bitcoin" (queries.map ResourceQuery.resourceId) x.written.text
        receivedAt =
      if MAX_FRAME_BYTES < x.toJson.size then .error (tooLarge x.toJson.size).wire
      else receivedOf receivedAt (historyRead debug a world crawls queries).2 := by
  have hid : x.id < 2 ^ 64 := hx ▸ requestId.isLt
  have hresult : x.result = (historyRead debug a world crawls queries).2.map
      fun reply => reply.toJson.value := hx ▸ rfl
  rw [receive_history texts receivedAt hid hresult hparse hdegraded, Answered.delivered]
  cases (historyRead debug a world crawls queries).2 <;> rfl

/-- The answer about a wallet with one transaction in the mempool. -/
@[irreducible]
def waitingAnswer : Answered :=
  ⟨1, (historyRead quotes savingsAdapter (fun _ => waiting 0) (fun _ => none)
    [⟨"w", none⟩]).2.map fun reply => reply.toJson.value⟩

/-- A host that knows the frame of that answer, and no other. -/
def waitingReader : Reader :=
  ⟨fun text => (known [waitingAnswer.written] text).bind membersOf, fun _ => "", fun _ => ""⟩

/-- The host reads the transaction.

**Proof sketch.** The frame is within the limit and its reply names nothing degraded, both by
evaluation. The reader reads the one frame it is for, so the theorem applies to it. -/
theorem reply_read_waiting :
    readHistory waitingReader ⟨fun _ => 0, quotes⟩ "sumer-bitcoin" ["w"]
        waitingAnswer.written.text receiptDay =
      receivedOf receiptDay (historyRead quotes savingsAdapter (fun _ => waiting 0)
        (fun _ => none) [⟨"w", none⟩]).2 := by
  have hone : [⟨"w", none⟩].map ResourceQuery.resourceId = ["w"] := rfl
  have hanswer : waitingAnswer = ⟨(1 : U64).val, (historyRead quotes savingsAdapter
      (fun _ => waiting 0) (fun _ => none) [⟨"w", none⟩]).2.map
        fun reply => reply.toJson.value⟩ := by
    unfold waitingAnswer
    rfl
  have hparse : .obj <$> waitingReader.parse waitingAnswer.written.text =
      some waitingAnswer.written := by
    have hnodup : ([waitingAnswer.written].map Json.text).Nodup := List.nodup_singleton _
    have hread : waitingReader.parse waitingAnswer.written.text =
        membersOf waitingAnswer.written :=
      congrArg (Option.bind · membersOf) (known_text hnodup (List.mem_singleton_self _))
    rw [hread, obj_membersOf_written]
  have hclean : OmitsNothing (historyRead quotes savingsAdapter (fun _ => waiting 0)
      (fun _ => none) [⟨"w", none⟩]).2 = true := by decide +kernel
  have hdegraded : ∀ reply, (historyRead quotes savingsAdapter (fun _ => waiting 0)
      (fun _ => none) [⟨"w", none⟩]).2 = .ok reply → ∀ e ∈ reply.statuses, ∀ d ∈ e.degraded,
        d.bytes < 2 ^ 64 := by
    intro reply hreply e he d hd
    rw [hreply, OmitsNothing, List.all_eq_true] at hclean
    rw [List.isEmpty_iff.mp (hclean e he)] at hd
    exact absurd hd List.not_mem_nil
  have hfits : ¬ MAX_FRAME_BYTES < waitingAnswer.toJson.size := by decide +kernel
  have hread := reply_read waitingReader ⟨fun _ => 0, quotes⟩ quotes savingsAdapter
    (fun _ => waiting 0) (fun _ => none) [⟨"w", none⟩] 1 receiptDay waitingAnswer hanswer hparse
    hdegraded
  rwa [if_neg hfits, hone] at hread

/-! ### Sessions -/

/-- One call of a session: when it is served, its id, and when its reply is received. -/
structure Invocation where
  moment : Moment
  id : ℕ
  call : Call
  receivedAt : Rfc3339

/-- The line of a call, and what is met while it is served. -/
def Invocation.input (i : Invocation) : Moment × String :=
  (i.moment, (i.call.request i.id).toJson.text ++ "\n")

/-- The process after some calls. -/
def Program.afterAll (p : Program) (s : Process) (calls : List Invocation) : Process :=
  calls.foldl (fun s i => p.after i.moment s i.call) s

/-- **A session of calls is a session of the operations.** Take any calls, of any of the five
operations with any params, one after the other on one process. Every call has one answer, under its
id. What the host returns from it is what the operation of the adapter makes of the params of the
call, in the state that the operations before it have left: no params are misread, no observation,
balance, status or resource is lost, refused or changed, and each is stamped with the time at which
the frame came. The only other thing that can come is the error in place of a reply that does not
fit a frame. Each parser reads the documents that the other side wrote, and sizes are 64-bit
numbers.

**Proof sketch.** The params, as a value, are read as they were before, so the frame is handed to
its operation. The body is written as a value too, and what is read of it is what would be read of
the reply itself. The checks of the host pass, since the adapter answers for each resource once and
only for those it was asked for. -/
theorem remote_calls (r : Reader) (texts : Texts) (p : Program) (s : Process)
    (calls : List Invocation) (hid : ∀ i ∈ calls, i.id < 2 ^ 64)
    (hadapter : ∀ i ∈ calls,
      p.parse (i.call.request i.id).toJson.text = some (i.call.request i.id).toJson)
    (hhost : ∀ x ∈ (p.run s (calls.map Invocation.input)).2,
      .obj <$> r.parse x.written.text = some x.written)
    (hmeasured : ∀ before i after, calls = before ++ i :: after →
      p.Measured i.moment (p.afterAll s before) i.call) :
    ∃ answers, p.run s (calls.map Invocation.input) = (p.afterAll s calls, answers) ∧
      answers.map Answered.id = calls.map Invocation.id ∧
      ∀ before i after, calls = before ++ i :: after → ∃ x, answers[before.length]? = some x ∧
        i.call.receive r texts x.written.text i.receivedAt =
          x.delivered (p.outcome texts i.moment (p.afterAll s before) i.receivedAt i.call) := by
  induction calls generalizing s with
  | nil =>
    refine ⟨[], rfl, rfl, fun before i after h => ?_⟩
    cases before <;> cases h
  | cons i calls ih =>
    have hturn := turn_frame (s := s) (m := i.moment) (hid i List.mem_cons_self)
      (hadapter i List.mem_cons_self)
    set x : Answered := ⟨i.id, (p.dispatch i.moment s i.call.op i.call.params.value).2⟩
    have hrun : p.run s ((i :: calls).map Invocation.input) =
        ((p.run (p.dispatch i.moment s i.call.op i.call.params.value).1
            (calls.map Invocation.input)).1,
          x :: (p.run (p.dispatch i.moment s i.call.op i.call.params.value).1
            (calls.map Invocation.input)).2) := by
      rw [List.map_cons, Invocation.input, Program.run, hturn]
      rfl
    have hwritten := hhost x (by rw [hrun]; exact List.mem_cons_self)
    have hfirst : p.Measured i.moment s i.call := hmeasured [] i calls rfl
    obtain ⟨hafter, hreceive⟩ := receive_dispatch texts i.receivedAt (hid i List.mem_cons_self) rfl
      hwritten hfirst
    rw [hafter] at hrun
    obtain ⟨answers, hanswers, hids, hall⟩ := ih (p.after i.moment s i.call)
      (fun i' hi' => hid i' (List.mem_cons_of_mem _ hi'))
      (fun i' hi' => hadapter i' (List.mem_cons_of_mem _ hi'))
      (fun x' hx' => hhost x' (by rw [hrun]; exact List.mem_cons_of_mem _ hx'))
      fun before i' after h => hmeasured (i :: before) i' after (congrArg (i :: ·) h)
    rw [hanswers] at hrun
    refine ⟨x :: answers, hrun, congrArg (i.id :: ·) hids, fun before i' after h => ?_⟩
    cases before with
    | nil =>
      cases h
      exact ⟨x, rfl, hreceive⟩
    | cons first before =>
      obtain ⟨rfl, hrest⟩ := List.cons.inj h
      exact hall before i' after hrest

/-- A transaction waits in the mempool. -/
def waitingMoment : Moment := ⟨0, fun _ => waiting 0, fun _ => true⟩

/-- A handshake, a read of each kind, and the list of the resources. -/
def firstCalls : List Invocation :=
  [⟨waitingMoment, 0, .hello, receiptDay⟩,
    ⟨waitingMoment, 1, .historyRead [⟨"w", none⟩], receiptDay⟩,
    ⟨waitingMoment, 2, .balancesRead ["w"], receiptDay⟩,
    ⟨waitingMoment, 3, .statusRead ["w", "other"], receiptDay⟩,
    ⟨waitingMoment, 4, .resourcesList, receiptDay⟩]

/-- The documents of their frames. -/
def firstDocuments : List Json := firstCalls.map fun i => (i.call.request i.id).toJson

/-- A program that knows these documents. -/
def firstProgram : Program := { sessionProgram with parse := known firstDocuments }

/-- A process that has just started. -/
def started : Process := ⟨fun _ => none, Disk.empty⟩

/-- What is answered. -/
@[irreducible]
def firstAnswers : List Answered :=
  (firstProgram.run started (firstCalls.map Invocation.input)).2

/-- A host that reads those answers. -/
def firstReader : Reader :=
  ⟨fun text => (known (firstAnswers.map Answered.written) text).bind membersOf, fun _ => "",
    fun _ => ""⟩

/-- The adapter's parser reads each call of the example as the document that the host wrote. -/
lemma parse_first : ∀ i ∈ firstCalls, firstProgram.parse (i.call.request i.id).toJson.text =
    some (i.call.request i.id).toJson := by
  have hnodup : (firstDocuments.map Json.text).Nodup := by decide +kernel
  have hparse : firstProgram.parse = known firstDocuments := rfl
  intro i hi
  rw [hparse]
  exact known_text hnodup (List.mem_map.mpr ⟨i, hi, rfl⟩)

/-- The host's parser reads each answer of the example as the document that the adapter wrote. -/
lemma read_first : ∀ x ∈ (firstProgram.run started (firstCalls.map Invocation.input)).2,
    Json.obj <$> firstReader.parse x.written.text = some x.written := by
  have hnodup : (firstAnswers.map Answered.id).Nodup := by decide +kernel
  have hrun : (firstProgram.run started (firstCalls.map Invocation.input)).2 = firstAnswers := by
    unfold firstAnswers
    rfl
  intro x hx
  rw [hrun] at hx
  have hread : firstReader.parse x.written.text = membersOf x.written :=
    congrArg (Option.bind · membersOf)
      (known_text (nodup_written hnodup) (List.mem_map_of_mem hx))
  rw [hread, obj_membersOf_written]

/-- In none of the first calls is anything measured that a reply has to fit: nothing is omitted.

**Proof sketch.** Of the calls, the one for the history names nothing degraded, by evaluation, and
for the others there is nothing to measure. -/
lemma measured_first : ∀ before i after, firstCalls = before ++ i :: after →
    firstProgram.Measured i.moment (firstProgram.afterAll started before) i.call := by
  have hclean : OmitsNothing (Bitcoin.historyRead firstProgram.debug firstProgram.adapter
      waitingMoment.world started.crawls [⟨"w", none⟩]).2 = true := by decide +kernel
  intro before i after h
  cases before with
  | nil =>
    cases h
    trivial
  | cons first before =>
    cases before with
    | nil =>
      cases h
      intro reply hreply e he d hd
      rw [show (firstProgram.afterAll started [_]).crawls = started.crawls from rfl] at hreply
      rw [hreply, OmitsNothing, List.all_eq_true] at hclean
      rw [List.isEmpty_iff.mp (hclean e he)] at hd
      exact absurd hd List.not_mem_nil
    | cons second before =>
      have hrest : firstCalls.drop 2 = before ++ i :: after := congrArg (List.drop 2) h
      have hmem : i ∈ firstCalls.drop 2 := hrest ▸ List.mem_append_right _ List.mem_cons_self
      simp only [firstCalls, List.drop_succ_cons, List.drop_zero, List.mem_cons,
        List.not_mem_nil, or_false] at hmem
      rcases hmem with rfl | rfl | rfl <;> trivial

/-- The first calls of a session: a greeting, a read of each kind and a listing, which the host
reads as the adapter made them. -/
theorem remote_calls_first :
    ∃ answers, firstProgram.run started (firstCalls.map Invocation.input) =
        (firstProgram.afterAll started firstCalls, answers) ∧
      answers.map Answered.id = firstCalls.map Invocation.id ∧
      ∀ before i after, firstCalls = before ++ i :: after →
        ∃ x, answers[before.length]? = some x ∧
          i.call.receive firstReader ⟨fun _ => 0, quotes⟩ x.written.text i.receivedAt =
            x.delivered (firstProgram.outcome ⟨fun _ => 0, quotes⟩ i.moment
              (firstProgram.afterAll started before) i.receivedAt i.call) :=
  remote_calls firstReader ⟨fun _ => 0, quotes⟩ firstProgram started firstCalls (by decide)
    parse_first read_first measured_first

end Sumer.Bitcoin
