import Sumer.Lib.Fallible
import Sumer.Host.ReadLoop

set_option relaxedAutoImplicit false
set_option autoImplicit false

/-!
# The reply envelope

The decoding of a reply (`core/wire/src/envelope.rs`), member by member as they stand in the text,
and its two uses: the reader routes a frame by its id without looking at the payload, and the caller
decodes the same text into the shape its request expects. How a payload or an error body is decoded,
and how an error of the decoder is printed, are parameters.

## Main definitions

* `Sumer.Host.decodeReply`: the members of an object as a reply.
* `Sumer.Host.Collected`: what a run through the members comes to, whatever their order.
* `Sumer.Host.callTyped`: what a call makes of the frame it was answered with.

## Main results

* `Sumer.Host.envelope_decode`: acceptance, order independence, and the agreement of the two uses.
-/

namespace Sumer.Host

open Sumer.Wire

/-- A decoded reply. -/
inductive Reply (T : Type) where
  | ok (id : ℕ) (ok : T)
  | err (id : ℕ) (err : ErrorBody)

/-- `Reply::id`. -/
def Reply.id {T : Type} : Reply T → ℕ
  | .ok id _ => id
  | .err id _ => id

/-- Why an envelope is refused. -/
inductive EnvelopeError where
  | duplicateField (key : String)
  | unknownField (key : String)
  | missingField (key : String)
  | both
  | neither
  | value (message : String)

/-- A `RequestId`: a number written with digits alone, below `2 ^ 64`. -/
def requestId : Json → Except String ℕ
  | .num literal =>
    if literal.toList.isEmpty || !literal.toList.all Char.isDigit then
      .error ("invalid type: number " ++ literal ++ ", expected u64")
    else if Nat.ofDigitChars 10 literal.toList 0 ≤ U64_MAX then
      .ok (Nat.ofDigitChars 10 literal.toList 0)
    else .error ("invalid value: number " ++ literal ++ ", expected u64")
  | _ => .error "invalid type, expected u64"

/-- The variables of the visitor. -/
structure Members (T : Type) where
  id : Option ℕ
  ok : Option T
  err : Option ErrorBody

/-- A value of a member. -/
def member {α : Type} (decode : Json → Except String α) (value : Json) : Except EnvelopeError α :=
  (decode value).mapError .value

/-- One turn of the visitor's loop. -/
def visitMember {T : Type} (payload : Json → Except String T)
    (errorBody : Json → Except String ErrorBody) (s : Members T) (m : String × Json) :
    Except EnvelopeError (Members T) :=
  if m.1 = "id" then
    if s.id.isSome then .error (.duplicateField "id")
    else (member requestId m.2).map fun id => { s with id := some id }
  else if m.1 = "ok" then
    if s.ok.isSome then .error (.duplicateField "ok")
    else (member payload m.2).map fun ok => { s with ok := some ok }
  else if m.1 = "err" then
    if s.err.isSome then .error (.duplicateField "err")
    else (member errorBody m.2).map fun err => { s with err := some err }
  else .error (.unknownField m.1)

/-- What the visitor makes of its variables after the last member. -/
def Members.reply {T : Type} (s : Members T) : Except EnvelopeError (Reply T) :=
  match s.id with
  | none => .error (.missingField "id")
  | some id =>
    match s.ok, s.err with
    | some ok, none => .ok (.ok id ok)
    | none, some err => .ok (.err id err)
    | some _, some _ => .error .both
    | none, none => .error .neither

/-- `Deserialize` for a reply, over the members of an object in the order of the text. -/
def decodeReply {T : Type} (payload : Json → Except String T)
    (errorBody : Json → Except String ErrorBody) (members : List (String × Json)) :
    Except EnvelopeError (Reply T) :=
  members.foldlM (visitMember payload errorBody) ⟨none, none, none⟩ >>= Members.reply

/-- The id that the reader routes a frame by: the payload is skipped. -/
def routedId (parse : String → Option (List (String × Json)))
    (errorBody : Json → Except String ErrorBody) (frame : String) : Option ℕ :=
  (parse frame).bind fun members =>
    (decodeReply (fun _ => .ok ()) errorBody members).toOption.map Reply.id

/-- `call_typed_with_receipt`, once the frame has come: an envelope that is not of the expected
shape is an ordinary error of this call. -/
def callTyped {T : Type} (parse : String → Option (List (String × Json)))
    (payload : Json → Except String T) (errorBody : Json → Except String ErrorBody)
    (display : EnvelopeError → String) (op frame : String) : Except HostError T :=
  match parse frame with
  | none =>
    .error (.wire ⟨.invalidRequest,
      "malformed " ++ op ++ " reply: " ++ display (.value "not JSON")⟩)
  | some members =>
    match decodeReply payload errorBody members with
    | .error e => .error (.wire ⟨.invalidRequest, "malformed " ++ op ++ " reply: " ++ display e⟩)
    | .ok (.err _ err) => .error (.wire err)
    | .ok (.ok _ ok) => .ok ok

/-! ### What is collected -/

/-- What a variable of the visitor is left with: nothing when no member has its key, and else the
value of one. -/
def Filled {α : Type} (key : String) (decode : Json → Except String α)
    (members : List (String × Json)) : Option α → Prop
  | none => key ∉ members.map Prod.fst
  | some x => ∃ value, (key, value) ∈ members ∧ decode value = .ok x

/-- **What a run through the members comes to**, whatever their order. -/
structure Collected {T : Type} (payload : Json → Except String T)
    (errorBody : Json → Except String ErrorBody) (members : List (String × Json))
    (s : Members T) : Prop where
  keys : ∀ key ∈ members.map Prod.fst, key = "id" ∨ key = "ok" ∨ key = "err"
  nodup : (members.map Prod.fst).Nodup
  id : Filled "id" requestId members s.id
  ok : Filled "ok" payload members s.ok
  err : Filled "err" errorBody members s.err

section Visit

variable {T α : Type} {payload : Json → Except String T}
  {errorBody : Json → Except String ErrorBody} {members : List (String × Json)} {s s' : Members T}
  {key : String} {decode : Json → Except String α}

/-- A variable after a member with its key, which no member before has. -/
lemma filled_concat_self {value : Json} (hnew : key ∉ members.map Prod.fst) {x : Option α} :
    Filled key decode (members ++ [(key, value)]) x ↔ ∃ a, decode value = .ok a ∧ x = some a := by
  cases x with
  | none => simp [Filled]
  | some a =>
    have hmem (v : Json) : (key, v) ∈ members ++ [(key, value)] ↔ v = value := by
      rw [List.mem_append, List.mem_singleton, Prod.mk.injEq]
      refine ⟨fun h => (h.resolve_left fun hv => hnew (List.mem_map_of_mem hv)).2, fun h => ?_⟩
      exact .inr ⟨rfl, h⟩
    simp [Filled, hmem]

/-- A variable after a member with another key. -/
lemma filled_concat_ne {m : String × Json} (hne : m.1 ≠ key) {x : Option α} :
    Filled key decode (members ++ [m]) x ↔ Filled key decode members x := by
  cases x with
  | none => simp [Filled, Ne.symm hne]
  | some a =>
    have hmem (v : Json) : (key, v) ∈ members ++ [m] ↔ (key, v) ∈ members := by
      rw [List.mem_append, List.mem_singleton, or_iff_left]
      exact fun h => hne (congrArg Prod.fst h).symm
    simp [Filled, hmem]

/-- A member of the envelope is collected exactly when its value is decoded, and it is then what was
decoded. -/
lemma member_map_eq_ok {β : Type} {value : Json} {f : α → β} {y : β} :
    (member decode value).map f = .ok y ↔ ∃ a, decode value = .ok a ∧ f a = y := by
  unfold member
  cases decode value <;> simp [Except.mapError, Except.map]

/-- What a turn of the loop does. -/
lemma visitMember_eq_ok {m : String × Json} :
    visitMember payload errorBody s m = .ok s' ↔
      (m.1 = "id" ∧ s.id = none ∧ ∃ id, requestId m.2 = .ok id ∧ { s with id := some id } = s') ∨
      (m.1 = "ok" ∧ s.ok = none ∧ ∃ ok, payload m.2 = .ok ok ∧ { s with ok := some ok } = s') ∨
      (m.1 = "err" ∧ s.err = none ∧ ∃ err, errorBody m.2 = .ok err ∧
        { s with err := some err } = s') := by
  unfold visitMember
  by_cases hid : m.1 = "id"
  · cases h : s.id <;> simp [hid, member_map_eq_ok]
  by_cases hok : m.1 = "ok"
  · cases h : s.ok <;> simp [hok, member_map_eq_ok]
  by_cases herr : m.1 = "err"
  · cases h : s.err <;> simp [herr, member_map_eq_ok]
  · simp [hid, hok, herr]

/-- **What the loop collects.**

**Proof sketch.** Induction on the members from the last one. That one has one of the three keys,
which has not been collected before, and its value is decoded; what is collected for the other
two keys stays what it was. Conversely, what is collected without it is what the members before
it give. -/
lemma foldlM_visitMember_eq_ok :
    members.foldlM (visitMember payload errorBody) ⟨none, none, none⟩ = .ok s ↔
      Collected payload errorBody members s := by
  induction members using List.reverseRecOn generalizing s with
  | nil =>
    constructor
    · intro h
      cases h
      exact ⟨by simp, List.nodup_nil, List.not_mem_nil, List.not_mem_nil, List.not_mem_nil⟩
    · rintro ⟨-, -, hid, hok, herr⟩
      obtain ⟨id, ok, err⟩ := s
      cases id <;> cases ok <;> cases err <;> simp_all [Filled]
      rfl
  | append_singleton members m ih =>
    have hnodup : ((members ++ [m]).map Prod.fst).Nodup ↔
        m.1 ∉ members.map Prod.fst ∧ (members.map Prod.fst).Nodup := by
      rw [List.map_append, List.map_singleton, ← List.concat_eq_append, List.nodup_concat]
    have hkeys : (∀ key ∈ (members ++ [m]).map Prod.fst, key = "id" ∨ key = "ok" ∨ key = "err") ↔
        (∀ key ∈ members.map Prod.fst, key = "id" ∨ key = "ok" ∨ key = "err") ∧
          (m.1 = "id" ∨ m.1 = "ok" ∨ m.1 = "err") := by
      rw [List.map_append, List.forall_mem_append, List.map_singleton, List.forall_mem_singleton]
    rw [foldlM_append_eq_ok]
    constructor
    · rintro ⟨mid, hmid, hstep⟩
      obtain ⟨hmkeys, hmnodup, hid, hok, herr⟩ := ih.mp hmid
      obtain ⟨mid', hstep, hnil⟩ := foldlM_cons_eq_ok.mp hstep
      cases hnil
      obtain ⟨key, value⟩ := m
      have hne {key key' : String} (h : key ≠ key') : (key, value).1 ≠ key' := h
      rcases visitMember_eq_ok.mp hstep with ⟨rfl, hnone, x, hx, rfl⟩ | ⟨rfl, hnone, x, hx, rfl⟩ |
        ⟨rfl, hnone, x, hx, rfl⟩
      · rw [hnone] at hid
        exact ⟨hkeys.mpr ⟨hmkeys, .inl rfl⟩, hnodup.mpr ⟨hid, hmnodup⟩,
          (filled_concat_self hid).mpr ⟨x, hx, rfl⟩, (filled_concat_ne (hne (by decide))).mpr hok,
          (filled_concat_ne (hne (by decide))).mpr herr⟩
      · rw [hnone] at hok
        exact ⟨hkeys.mpr ⟨hmkeys, .inr (.inl rfl)⟩, hnodup.mpr ⟨hok, hmnodup⟩,
          (filled_concat_ne (hne (by decide))).mpr hid, (filled_concat_self hok).mpr ⟨x, hx, rfl⟩,
          (filled_concat_ne (hne (by decide))).mpr herr⟩
      · rw [hnone] at herr
        exact ⟨hkeys.mpr ⟨hmkeys, .inr (.inr rfl)⟩, hnodup.mpr ⟨herr, hmnodup⟩,
          (filled_concat_ne (hne (by decide))).mpr hid,
          (filled_concat_ne (hne (by decide))).mpr hok,
          (filled_concat_self herr).mpr ⟨x, hx, rfl⟩⟩
    · rintro ⟨hskeys, hsnodup, hid, hok, herr⟩
      obtain ⟨hmkeys, hkey⟩ := hkeys.mp hskeys
      obtain ⟨hnew, hmnodup⟩ := hnodup.mp hsnodup
      obtain ⟨key, value⟩ := m
      have hne {key key' : String} (h : key ≠ key') : (key, value).1 ≠ key' := h
      obtain ⟨id, ok, err⟩ := s
      rcases hkey with rfl | rfl | rfl
      · obtain ⟨x, hx, rfl⟩ := (filled_concat_self hnew).mp hid
        exact ⟨⟨none, ok, err⟩, ih.mpr ⟨hmkeys, hmnodup, hnew,
          (filled_concat_ne (hne (by decide))).mp hok,
          (filled_concat_ne (hne (by decide))).mp herr⟩, foldlM_cons_eq_ok.mpr
          ⟨_, visitMember_eq_ok.mpr (.inl ⟨rfl, rfl, x, hx, rfl⟩), rfl⟩⟩
      · obtain ⟨x, hx, rfl⟩ := (filled_concat_self hnew).mp hok
        exact ⟨⟨id, none, err⟩, ih.mpr ⟨hmkeys, hmnodup,
          (filled_concat_ne (hne (by decide))).mp hid, hnew,
          (filled_concat_ne (hne (by decide))).mp herr⟩, foldlM_cons_eq_ok.mpr
          ⟨_, visitMember_eq_ok.mpr (.inr (.inl ⟨rfl, rfl, x, hx, rfl⟩)), rfl⟩⟩
      · obtain ⟨x, hx, rfl⟩ := (filled_concat_self hnew).mp herr
        exact ⟨⟨id, ok, none⟩, ih.mpr ⟨hmkeys, hmnodup,
          (filled_concat_ne (hne (by decide))).mp hid,
          (filled_concat_ne (hne (by decide))).mp hok, hnew⟩, foldlM_cons_eq_ok.mpr
          ⟨_, visitMember_eq_ok.mpr (.inr (.inr ⟨rfl, rfl, x, hx, rfl⟩)), rfl⟩⟩

/-- What is collected does not depend on the order of the members. -/
lemma Collected.perm {members' : List (String × Json)} (h : Collected payload errorBody members s)
    (hperm : members.Perm members') : Collected payload errorBody members' s := by
  have hkeys := hperm.map Prod.fst
  have hfilled {α : Type} {key : String} {decode : Json → Except String α} {x : Option α}
      (h : Filled key decode members x) : Filled key decode members' x := by
    cases x with
    | none => exact fun hmem => h (hkeys.mem_iff.mpr hmem)
    | some a =>
      obtain ⟨value, hvalue, hdecode⟩ := h
      exact ⟨value, hperm.mem_iff.mp hvalue, hdecode⟩
  exact ⟨fun key hkey => h.keys key (hkeys.mem_iff.mpr hkey), hkeys.nodup_iff.mp h.nodup,
    hfilled h.id, hfilled h.ok, hfilled h.err⟩

/-- A reply is decoded from the members exactly when they are collected and what was collected makes
that reply. -/
lemma decodeReply_eq_ok {r : Reply T} :
    decodeReply payload errorBody members = .ok r ↔
      ∃ s, Collected payload errorBody members s ∧ s.reply = .ok r := by
  rw [decodeReply, except_bind_eq_ok]
  simp only [foldlM_visitMember_eq_ok]

/-- What was collected makes a reply exactly when there is an id and one of the two payloads, and
not both. -/
lemma reply_eq_ok {r : Reply T} :
    s.reply = .ok r ↔
      (∃ id ok, s = ⟨some id, some ok, none⟩ ∧ r = .ok id ok) ∨
      ∃ id err, s = ⟨some id, none, some err⟩ ∧ r = .err id err := by
  obtain ⟨id, ok, err⟩ := s
  cases id <;> cases ok <;> cases err <;> simp [Members.reply, eq_comm]

/-- Members with one key have one value. -/
lemma Collected.value_unique (h : Collected payload errorBody members s) {value value' : Json}
    (hvalue : (key, value) ∈ members) (hvalue' : (key, value') ∈ members) : value = value' :=
  congrArg Prod.snd (List.inj_on_of_nodup_map h.nodup hvalue hvalue' rfl)

/-- **A payload that is not of its shape** is the only thing that is wrong with an envelope that the
reader accepted.

**Proof sketch.** Nothing is collected with a payload that cannot be decoded, so the loop fails at
some member. It is not the id, and not a key that the reader would have refused, since the reader
took all members in; it is the payload itself, and the error is the payload's. -/
lemma decodeReply_eq_error {id : ℕ} {value : Json} {e : String}
    (h : Collected (fun _ => .ok ()) errorBody members ⟨some id, some (), none⟩)
    (hvalue : ("ok", value) ∈ members) (hpayload : payload value = .error e) :
    decodeReply payload errorBody members = .error (.value e) := by
  have hfails : ∀ s : Members T, ¬ Collected payload errorBody members s := by
    intro s hs
    have hok := hs.ok
    cases hsok : s.ok with
    | none =>
      rw [hsok] at hok
      exact hok (List.mem_map_of_mem hvalue)
    | some x =>
      rw [hsok] at hok
      obtain ⟨value', hvalue', hx⟩ := hok
      rw [h.value_unique hvalue' hvalue, hpayload] at hx
      cases hx
  cases hfold : members.foldlM (visitMember payload errorBody) ⟨none, none, none⟩ with
  | ok s => exact absurd (foldlM_visitMember_eq_ok.mp hfold) (hfails s)
  | error e' =>
    rw [decodeReply, hfold]
    obtain ⟨before, m, after, mid, hmembers, hmid, hstep⟩ := foldlM_eq_error.mp hfold
    obtain ⟨key, value'⟩ := m
    have hmem : (key, value') ∈ members := hmembers ▸ List.mem_append_right _ List.mem_cons_self
    have hcollected := foldlM_visitMember_eq_ok.mp hmid
    have hnew : key ∉ before.map Prod.fst := by
      have hnodup := h.nodup
      rw [hmembers, List.map_append, List.map_cons] at hnodup
      exact fun hkey => (List.nodup_append.mp hnodup).2.2 key hkey key List.mem_cons_self rfl
    have hnone {α : Type} {decode : Json → Except String α} {x : Option α}
        (hx : Filled key decode before x) : x = none := by
      cases x with
      | none => rfl
      | some a =>
        obtain ⟨v, hv, -⟩ := hx
        exact absurd (List.mem_map_of_mem hv) hnew
    rcases h.keys key (List.mem_map_of_mem hmem) with rfl | rfl | rfl
    · -- the id is one
      obtain ⟨v, hv, hid⟩ := h.id
      have hmidid := hnone hcollected.id
      rw [← h.value_unique hmem hv] at hid
      simp [visitMember, hmidid, member, hid, Except.mapError, Except.map] at hstep
    · have hmidok := hnone hcollected.ok
      rw [h.value_unique hmem hvalue] at hstep
      simp [visitMember, hmidok, member, hpayload, Except.mapError, Except.map] at hstep
      rw [hstep]
      rfl
    · exact absurd (List.mem_map_of_mem hmem) h.err

end Visit

/-- **A well-formed envelope**, and what it yields: the keys are `id`, `ok` and `err`, none twice;
the id is there and is one; exactly one of the other two is there, and its value is of its shape. -/
structure WellFormed {T : Type} (payload : Json → Except String T)
    (errorBody : Json → Except String ErrorBody) (members : List (String × Json))
    (r : Reply T) : Prop where
  keys : ∀ key ∈ members.map Prod.fst, key = "id" ∨ key = "ok" ∨ key = "err"
  nodup : (members.map Prod.fst).Nodup
  id : ∃ value, ("id", value) ∈ members ∧ requestId value = .ok r.id
  choice : match r with
    | .ok _ ok => (∃ value, ("ok", value) ∈ members ∧ payload value = .ok ok) ∧
        "err" ∉ members.map Prod.fst
    | .err _ err => (∃ value, ("err", value) ∈ members ∧ errorBody value = .ok err) ∧
        "ok" ∉ members.map Prod.fst

/-- **An envelope is accepted exactly when it is well formed**, in whatever order its members stand;
and a frame that the reader accepts and routes by its id is decoded by the caller to the same id and
the same choice, or fails there because of its payload, as an ordinary error of that call.

**Proof sketch.** The loop over the members collects each of the three keys at most once and refuses
every other (`foldlM_visitMember_eq_ok`), which does not depend on their order; a reply is made of
what it collected. The reader and the caller collect alike except for the payload, so that what the
reader has routed is either decoded by the caller to the same choice, or fails at the payload
(`decodeReply_eq_error`). -/
theorem envelope_decode {T : Type} (parse : String → Option (List (String × Json)))
    (payload : Json → Except String T) (errorBody : Json → Except String ErrorBody)
    (display : EnvelopeError → String) (op : String) :
    (∀ members r, decodeReply payload errorBody members = .ok r ↔
      WellFormed payload errorBody members r) ∧
    (∀ members members' r, members.Perm members' →
      (decodeReply payload errorBody members = .ok r ↔
        decodeReply payload errorBody members' = .ok r)) ∧
    ∀ frame members, parse frame = some members → ∀ (m m' : Mux) helloDone helloDone' receivedAt,
      m.onFrame (routedId parse errorBody) helloDone frame receivedAt = (m', helloDone', .ok ()) →
        ∃ id, routedId parse errorBody frame = some id ∧
          m' = (m.deliver id frame receivedAt).1 ∧
          ((∃ ok, decodeReply (fun _ => .ok ()) errorBody members = .ok (.ok id ()) ∧
              decodeReply payload errorBody members = .ok (.ok id ok) ∧
              callTyped parse payload errorBody display op frame = .ok ok) ∨
            (∃ err, decodeReply (fun _ => .ok ()) errorBody members = .ok (.err id err) ∧
              decodeReply payload errorBody members = .ok (.err id err) ∧
              callTyped parse payload errorBody display op frame = .error (.wire err)) ∨
            ∃ value e, decodeReply (fun _ => .ok ()) errorBody members = .ok (.ok id ()) ∧
              ("ok", value) ∈ members ∧ payload value = .error e ∧
              callTyped parse payload errorBody display op frame = .error (.wire
                ⟨.invalidRequest, "malformed " ++ op ++ " reply: " ++ display (.value e)⟩)) := by
  refine ⟨fun members r => ?_, fun members members' r hperm => ?_, ?_⟩
  · rw [decodeReply_eq_ok]
    constructor
    · rintro ⟨s, hs, hr⟩
      rcases reply_eq_ok.mp hr with ⟨id, ok, rfl, rfl⟩ | ⟨id, err, rfl, rfl⟩
      · exact ⟨hs.keys, hs.nodup, hs.id, hs.ok, hs.err⟩
      · exact ⟨hs.keys, hs.nodup, hs.id, hs.err, hs.ok⟩
    · rintro ⟨hkeys, hnodup, hid, hchoice⟩
      cases r with
      | ok id ok =>
        exact ⟨⟨some id, some ok, none⟩, ⟨hkeys, hnodup, hid, hchoice.1, hchoice.2⟩, rfl⟩
      | err id err =>
        exact ⟨⟨some id, none, some err⟩, ⟨hkeys, hnodup, hid, hchoice.2, hchoice.1⟩, rfl⟩
  · rw [decodeReply_eq_ok, decodeReply_eq_ok]
    exact exists_congr fun s => and_congr_left fun _ =>
      ⟨fun h => h.perm hperm, fun h => h.perm hperm.symm⟩
  · intro frame members hparse m m' helloDone helloDone' receivedAt hframe
    unfold Mux.onFrame at hframe
    cases hrouted : routedId parse errorBody frame with
    | none =>
      rw [hrouted] at hframe
      cases hframe
    | some id =>
      rw [hrouted] at hframe
      dsimp only at hframe
      by_cases hpre : (!helloDone && decide (id ≠ HELLO)) = true
      · rw [if_pos hpre] at hframe
        cases congrArg (fun x => x.2.2) hframe
      rw [if_neg hpre] at hframe
      refine ⟨id, rfl, (congrArg Prod.fst hframe).symm, ?_⟩
      rw [routedId, hparse, Option.bind_some, Option.map_eq_some_iff] at hrouted
      obtain ⟨r, hr, rfl⟩ := hrouted
      have hreader : decodeReply (fun _ => .ok ()) errorBody members = .ok r := by
        cases hdecode : decodeReply (fun _ => .ok ()) errorBody members with
        | error e =>
          rw [hdecode] at hr
          cases hr
        | ok r' =>
          rw [hdecode] at hr
          rw [Option.some.inj hr]
      obtain ⟨s, hs, hreply⟩ := decodeReply_eq_ok.mp hreader
      have hcall {result : Except EnvelopeError (Reply T)}
          (h : decodeReply payload errorBody members = result) :
          callTyped parse payload errorBody display op frame =
            match result with
            | .error e => .error (.wire
                ⟨.invalidRequest, "malformed " ++ op ++ " reply: " ++ display e⟩)
            | .ok (.err _ err) => .error (.wire err)
            | .ok (.ok _ ok) => .ok ok := by
        simp only [callTyped, hparse, h]
        cases result with
        | error e => rfl
        | ok r => cases r <;> rfl
      rcases reply_eq_ok.mp hreply with ⟨id, ok, rfl, rfl⟩ | ⟨id, err, rfl, rfl⟩
      · obtain ⟨value, hvalue, -⟩ := hs.ok
        cases hpayload : payload value with
        | ok x =>
          have htyped : decodeReply payload errorBody members = .ok (.ok id x) :=
            decodeReply_eq_ok.mpr ⟨⟨some id, some x, none⟩,
              ⟨hs.keys, hs.nodup, hs.id, ⟨value, hvalue, hpayload⟩, hs.err⟩, rfl⟩
          exact .inl ⟨x, hreader, htyped, hcall htyped⟩
        | error e =>
          have htyped := decodeReply_eq_error hs hvalue hpayload
          exact .inr (.inr ⟨value, e, hreader, hvalue, hpayload, hcall htyped⟩)
      · have htyped : decodeReply payload errorBody members = .ok (.err id err) :=
          decodeReply_eq_ok.mpr ⟨⟨some id, none, some err⟩,
            ⟨hs.keys, hs.nodup, hs.id, hs.ok, hs.err⟩, rfl⟩
        exact .inr (.inl ⟨err, hreader, htyped, hcall htyped⟩)

end Sumer.Host
