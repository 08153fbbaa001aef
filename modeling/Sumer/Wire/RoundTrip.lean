import Sumer.Money.Grammar
import Sumer.Wire.Decode

set_option relaxedAutoImplicit false
set_option autoImplicit false

/-!
# What is written is read

The serialized form of an observation, read back: it is the same observation exactly when its
description is plain text, and is refused otherwise. Whatever was read has a plain description.

## Main results

* `Sumer.Wire.object_of_sublist`: what is written field by field has the members that were written.
* `Sumer.Wire.ObservationWire.decode_toJson`: an observation is read back.
* `Sumer.Wire.BalanceWire.decode_toJson`: so is a balance line.
-/

namespace Sumer.Wire

open Sumer.Money

/-! ### Members -/

section Members

variable {α : Type} {expecting key : String} {fields : List String}
  {members : List (String × Json)} {decode : Json → Except DecodeError α} {x : α} {j : Json}

/-- Which documents are objects with given fields.

**Proof sketch.** An object is accepted when its members are collected, which is when each key is a
field and none comes twice; no other document is an object. -/
lemma object_eq_ok : object expecting fields j = .ok members ↔ ∃ members', j = .obj members' ∧
    (∀ m ∈ members', m.1 ∈ fields) ∧ (members'.map Prod.fst).Nodup ∧ members = members' := by
  cases j with
  | obj members' =>
    rw [object]
    cases h : Record.collect fields members' with
    | error e =>
      have hnot : ¬ ((∀ m ∈ members', m.1 ∈ fields) ∧ (members'.map Prod.fst).Nodup) := by
        rintro ⟨hfields, hnodup⟩
        have hok := h.symm.trans (Record.collect_eq_ok.mpr ⟨hfields, hnodup, rfl⟩)
        cases hok
      constructor
      · intro h
        cases h
      · rintro ⟨_, heq, hfields, hnodup, -⟩
        cases heq
        exact absurd ⟨hfields, hnodup⟩ hnot
    | ok out =>
      obtain ⟨hfields, hnodup, rfl⟩ := Record.collect_eq_ok.mp h
      constructor
      · intro heq
        cases heq
        exact ⟨_, rfl, hfields, hnodup, rfl⟩
      · rintro ⟨_, heq, -, -, rfl⟩
        cases heq
        rfl
  | _ => simp [object]

/-- A required member is read exactly when it is there and its value is decoded. -/
lemma required_eq_ok : required members key decode = .ok x ↔
    ∃ j, members.lookup key = some j ∧ decode j = .ok x := by
  rw [required]
  cases members.lookup key <;> simp

/-- When a member with a default is read. -/
lemma defaulted_eq_ok {default : α} : defaulted members key default decode = .ok x ↔
    (members.lookup key = none ∧ x = default) ∨
      ∃ j, members.lookup key = some j ∧ decode j = .ok x := by
  rw [defaulted]
  cases members.lookup key <;> simp [eq_comm]

/-- **What is written field by field** has the members that were written. -/
lemma object_of_sublist (h : (members.map Prod.fst).Sublist fields) (hnodup : fields.Nodup) :
    object expecting fields (.obj members) = .ok members := by
  rw [object, Record.collect_of_sublist h hnodup]
  rfl

/-- The key of a member that may be left out. -/
lemma map_fst_optional {toJson : α → Json} (value : Option α) :
    ((optional key toJson value).map Prod.fst).Sublist [key] := by
  cases value with
  | none => exact List.nil_sublist _
  | some x => exact .refl _

/-- What a member that may be left out has. -/
@[simp]
lemma lookup_optional {toJson : α → Json} (value : Option α) (key' : String) :
    (optional key toJson value).lookup key' = if key' = key then value.map toJson else none := by
  cases value with
  | none => simp [optional]
  | some x =>
    by_cases h : key' = key
    · simp [optional, h]
    · simp [optional, List.lookup_cons, beq_false_of_ne h, h]

/-- What an object has with a first member. -/
@[simp]
lemma lookup_member (key' : String) : ((key, j) :: members).lookup key' =
    if key' = key then some j else members.lookup key' := by
  by_cases h : key' = key
  · simp [h]
  · rw [List.lookup_cons, beq_false_of_ne h, if_neg h]

/-- A string is read back as the text it was written from. -/
lemma string_str (s : String) : string (.str s) = .ok s := rfl

/-- A required member that is there, and whose value is decoded, is read. -/
lemma required_eq (h : members.lookup key = some j) (hj : decode j = .ok x) :
    required members key decode = .ok x := by
  rw [required, h]
  exact hj

/-- A value that is not `null` is read as what it decodes to. -/
lemma nullable_eq (hnull : j ≠ .null) (hj : decode j = .ok x) :
    nullable decode j = .ok (some x) := by
  rw [nullable, hj]
  · rfl
  · exact hnull

/-- A member that may be left out, and what is read of it. -/
lemma omittable_map {β : Type} (toJson : β → Json) (f : β → α) {value : Option β}
    (h : members.lookup key = value.map toJson)
    (hvalue : ∀ x, value = some x → toJson x ≠ .null ∧ decode (toJson x) = .ok (f x)) :
    omittable members key decode = .ok (value.map f) := by
  rw [omittable, defaulted, h]
  cases value with
  | none => rfl
  | some x => exact nullable_eq (hvalue x rfl).1 (hvalue x rfl).2

/-- A member that may be left out is read as it was written. -/
lemma omittable_eq (toJson : α → Json) {value : Option α}
    (h : members.lookup key = value.map toJson)
    (hvalue : ∀ x, value = some x → toJson x ≠ .null ∧ decode (toJson x) = .ok x) :
    omittable members key decode = .ok value := by
  rw [omittable_map toJson id h hvalue, Option.map_id, id]

end Members

/-! ### Values -/

/-- A grade of completeness that is written is read back. -/
lemma Completeness.decode_spelling (c : Completeness) : decode (.str c.spelling) = .ok c := by
  cases c <;> rfl

/-- The state of an observation that is written is read back. -/
lemma ObservationState.decode_spelling (s : ObservationState) :
    decode (.str s.spelling) = .ok s := by
  cases s <;> rfl

/-- A posting that is written is read back. -/
lemma Posting.decode_spelling (p : Posting) : decode (.str p.spelling) = .ok p := by
  cases p <;> rfl

/-- A sign that is written is read back. -/
lemma RawSign.decode_spelling (s : RawSign) : decode (.str s.spelling) = .ok s := by
  cases s <;> rfl

/-- A timestamp is read back from its document: its text passes the check again. -/
lemma decodeTimestamp_timestampJson (t : Rfc3339) : decodeTimestamp (timestampJson t) = .ok t := by
  show (Rfc3339.new t.text).mapError _ = _
  rw [Rfc3339.new_text]
  rfl

/-- An amount is read back from its document, with its asset and its scale. -/
lemma decodeAmount_amountJson (a : Amount) : decodeAmount (amountJson a) = .ok a := by
  have hmembers : object "an object with string fields asset and amount" ["asset", "amount"]
      (amountJson a) = .ok [("asset", .str a.asset.text), ("amount", .str a.toText)] :=
    object_of_sublist (.refl _) (by decide)
  have hasset : (AssetId.new a.asset.text).mapError DecodeError.money = .ok a.asset := by
    rw [AssetId.new_text]
    rfl
  have hamount : (Amount.parse a.asset a.toText).mapError DecodeError.money = .ok a := by
    rw [Amount.parse_toText]
    rfl
  simp only [decodeAmount, except_bind_eq_ok]
  exact ⟨_, hmembers, _, required_eq (by simp) (string_str a.asset.text), _,
    required_eq (by simp) (string_str a.toText), _, hasset, hamount⟩

/-- A number of so many bits is read back from its document. -/
lemma unsigned_nat {bits n : ℕ} (h : n < 2 ^ bits) : unsigned bits (Json.nat n) = .ok n := by
  have hlist : (toString n).toList = Nat.toDigits 10 n := Nat.toList_repr
  have hne : (Nat.toDigits 10 n).isEmpty = false := by
    rw [List.isEmpty_eq_false_iff]
    exact Nat.toDigits_ne_nil
  have hall : (Nat.toDigits 10 n).all Char.isDigit = true :=
    List.all_eq_true.mpr fun ch hch => Nat.isDigit_of_mem_toDigits (by decide) le_rfl hch
  rw [Json.nat, unsigned, hlist, hne, hall, Nat.ofDigitChars_ten_toDigits, if_pos h]
  rfl

/-! ### Observations -/

/-- What the members of provenance are read as. -/
structure ProvenanceWire.Reads (members : List (String × Json)) (p : ProvenanceWire) : Prop where
  adapterId : required members "adapter_id" string = .ok p.adapterId
  providerId : required members "provider_id" string = .ok p.providerId
  surface : required members "surface" string = .ok p.surface
  observedAt : required members "observed_at" decodeTimestamp = .ok p.observedAt
  effectiveAt : omittable members "effective_at" decodeTimestamp = .ok p.effectiveAt
  completeness : required members "completeness" Completeness.decode = .ok p.completeness

/-- A document is provenance exactly when it is an object with no other fields than those of
provenance, and its members are read as the parts. -/
lemma ProvenanceWire.decode_eq_ok {j : Json} {p : ProvenanceWire} : decode j = .ok p ↔
    ∃ members, object "provenance: an object, never a positional array" provenanceFields j =
      .ok members ∧ Reads members p := by
  simp only [decode, except_bind_eq_ok, pure, Except.pure, Except.ok.injEq]
  constructor
  · rintro ⟨members, hmembers, _, h₁, _, h₂, _, h₃, _, h₄, _, h₅, _, h₆, rfl⟩
    exact ⟨members, hmembers, h₁, h₂, h₃, h₄, h₅, h₆⟩
  · rintro ⟨members, hmembers, h₁, h₂, h₃, h₄, h₅, h₆⟩
    exact ⟨members, hmembers, _, h₁, _, h₂, _, h₃, _, h₄, _, h₅, _, h₆, rfl⟩

/-- A timestamp that may be left out. -/
lemma omittable_timestamp {key : String} {members : List (String × Json)} {value : Option Rfc3339}
    (h : members.lookup key = value.map timestampJson) :
    omittable members key decodeTimestamp = .ok value :=
  omittable_eq timestampJson h fun t _ => ⟨Json.noConfusion, decodeTimestamp_timestampJson t⟩

/-- Provenance is read back from its document, the effective time that may be missing included. -/
lemma ProvenanceWire.decode_toJson (p : ProvenanceWire) : decode p.toJson = .ok p := by
  refine decode_eq_ok.mpr ⟨_, object_of_sublist ?_ (by decide), ?_⟩
  · simp only [List.map_append]
    exact ((List.Sublist.refl _).append (map_fst_optional _)).append (.refl _)
  · constructor
    · exact required_eq (by simp) (string_str _)
    · exact required_eq (by simp) (string_str _)
    · exact required_eq (by simp) (string_str _)
    · exact required_eq (by simp) (decodeTimestamp_timestampJson _)
    · exact omittable_timestamp (by simp)
    · exact required_eq (by simp)
        (Completeness.decode_spelling _)

/-- An amount that may be left out. -/
lemma omittable_amount {key : String} {members : List (String × Json)} {value : Option Amount}
    (h : members.lookup key = value.map amountJson) :
    omittable members key decodeAmount = .ok value :=
  omittable_eq amountJson h fun a _ => ⟨Json.noConfusion, decodeAmount_amountJson a⟩

/-- A string that may be left out. -/
lemma omittable_string {key : String} {members : List (String × Json)} {value : Option String}
    (h : members.lookup key = value.map Json.str) : omittable members key string = .ok value :=
  omittable_eq Json.str h fun _ _ => ⟨Json.noConfusion, rfl⟩

/-- A description is read back when it is plain text. -/
lemma plainText_eq_ok {j : Json} {s : String} :
    plainText j = .ok s ↔ j = .str s ∧ validatePlainText s = .ok () := by
  rw [plainText, except_bind_eq_ok]
  constructor
  · rintro ⟨s', hs', h⟩
    cases j <;> cases hs'
    cases hplain : validatePlainText s' with
    | error i =>
      rw [hplain] at h
      cases h
    | ok u =>
      rw [hplain] at h
      cases h
      exact ⟨rfl, hplain⟩
  · rintro ⟨rfl, hplain⟩
    exact ⟨s, rfl, by rw [hplain]⟩

/-- The members of a document that is kept as a value: keys in order, each once, and so on
below. -/
def IsMap (members : List (String × Json)) : Prop := Record.toMap (memberValues members) = members

/-- Members whose values are kept as they are. -/
lemma memberValues_eq_self {members : List (String × Json)} (h : ∀ m ∈ members, m.2.value = m.2) :
    memberValues members = members := by
  induction members with
  | nil => rfl
  | cons m members ih =>
    rw [memberValues, h m List.mem_cons_self, ih fun x hx => h x (List.mem_cons_of_mem _ hx)]

mutual

/-- A document that is kept as a value is its own value. -/
lemma Json.value_value : ∀ j : Json, j.value.value = j.value
  | .null => rfl
  | .bool _ => rfl
  | .num _ => rfl
  | .str _ => rfl
  | .arr items => by
    rw [Json.value, Json.value, itemValues_itemValues items]
  | .obj members => by
    obtain ⟨hsorted, hmem⟩ := Record.toMap_spec (memberValues members)
    rw [Json.value, Json.value,
      memberValues_eq_self fun m hm => value_of_mem_memberValues members m (hmem m hm),
      Record.toMap_of_pairwise hsorted]

/-- The items of an array that were brought into the form of a `Value` are in it already. -/
lemma itemValues_itemValues : ∀ items : List Json, itemValues (itemValues items) = itemValues items
  | [] => rfl
  | item :: items => by
    rw [itemValues, itemValues, Json.value_value item, itemValues_itemValues items]

/-- The members of an object in the form of a `Value` are in that form themselves: the form is
brought about at every level, not only at the outermost. -/
lemma value_of_mem_memberValues :
    ∀ (members : List (String × Json)), ∀ m ∈ memberValues members, m.2.value = m.2
  | [], m, hm => absurd hm List.not_mem_nil
  | (key, value) :: members, m, hm => by
    rcases List.mem_cons.mp hm with rfl | hm
    · exact Json.value_value value
    · exact value_of_mem_memberValues members m hm

end

/-- What is read as a map is one. -/
lemma isMap_of_valueMap {j : Json} {members : List (String × Json)}
    (h : valueMap j = .ok members) : IsMap members := by
  cases j <;> cases h
  rename_i members
  obtain ⟨hsorted, hmem⟩ := Record.toMap_spec (memberValues members)
  rw [IsMap, memberValues_eq_self fun m hm => value_of_mem_memberValues members m (hmem m hm),
    Record.toMap_of_pairwise hsorted]

/-- What the members of an observation are read as. -/
structure ObservationWire.Reads (members : List (String × Json)) (o : ObservationWire) : Prop where
  resourceId : required members "resource_id" string = .ok o.resourceId
  localId : required members "local_id" string = .ok o.localId
  providerId : omittable members "provider_id" string = .ok o.providerId
  supersedesProviderId :
    omittable members "supersedes_provider_id" string = .ok o.supersedesProviderId
  state : required members "state" ObservationState.decode = .ok o.state
  tombstoneReason : omittable members "tombstone_reason" string = .ok o.tombstoneReason
  surface : required members "surface" string = .ok o.surface
  posting : required members "posting" Posting.decode = .ok o.posting
  amount : required members "amount" decodeAmount = .ok o.amount
  fees : omittable members "fees" decodeAmount = .ok o.fees
  rawSign : required members "raw_sign" RawSign.decode = .ok o.rawSign
  description : required members "description" plainText = .ok o.description
  providerExtra : defaulted members "provider_extra" [] valueMap = .ok o.providerExtra
  provenance : required members "provenance" ProvenanceWire.decode = .ok o.provenance

/-- **Which documents are observations**: an object with the fields of one and no other, each once,
and each with a value of its type. -/
lemma ObservationWire.decode_eq_ok {j : Json} {o : ObservationWire} : decode j = .ok o ↔
    ∃ members, object "a history observation: an object" observationFields j = .ok members ∧
      Reads members o := by
  simp only [decode, except_bind_eq_ok, pure, Except.pure, Except.ok.injEq]
  constructor
  · rintro ⟨members, hmembers, _, h₁, _, h₂, _, h₃, _, h₄, _, h₅, _, h₆, _, h₇, _, h₈, _, h₉,
      _, h₁₀, _, h₁₁, _, h₁₂, _, h₁₃, _, h₁₄, rfl⟩
    exact ⟨members, hmembers, h₁, h₂, h₃, h₄, h₅, h₆, h₇, h₈, h₉, h₁₀, h₁₁, h₁₂, h₁₃, h₁₄⟩
  · rintro ⟨members, hmembers, h₁, h₂, h₃, h₄, h₅, h₆, h₇, h₈, h₉, h₁₀, h₁₁, h₁₂, h₁₃, h₁₄⟩
    exact ⟨members, hmembers, _, h₁, _, h₂, _, h₃, _, h₄, _, h₅, _, h₆, _, h₇, _, h₈, _, h₉,
      _, h₁₀, _, h₁₁, _, h₁₂, _, h₁₃, _, h₁₄, rfl⟩

/-- The members that an observation is written with. -/
def ObservationWire.members (o : ObservationWire) : List (String × Json) :=
  [("resource_id", .str o.resourceId), ("local_id", .str o.localId)] ++
    optional "provider_id" Json.str o.providerId ++
    optional "supersedes_provider_id" Json.str o.supersedesProviderId ++
    [("state", .str o.state.spelling)] ++
    optional "tombstone_reason" Json.str o.tombstoneReason ++
    [("surface", .str o.surface), ("posting", .str o.posting.spelling),
      ("amount", amountJson o.amount)] ++
    optional "fees" amountJson o.fees ++
    [("raw_sign", .str o.rawSign.spelling), ("description", .str o.description),
      ("provider_extra", .obj o.providerExtra), ("provenance", o.provenance.toJson)]

/-- What is written for an observation is one object, with the members that the struct has a value
for. -/
lemma ObservationWire.toJson_eq (o : ObservationWire) : o.toJson = .obj o.members := rfl

/-- They are the fields of an observation, in order. -/
lemma ObservationWire.object_members (o : ObservationWire) (expecting : String) :
    object expecting observationFields (.obj o.members) = .ok o.members := by
  refine object_of_sublist ?_ (by decide)
  simp only [members, List.map_append]
  exact ((((((((List.Sublist.refl _).append (map_fst_optional _)).append
    (map_fst_optional _)).append (.refl _)).append (map_fst_optional _)).append
    (.refl _)).append (map_fst_optional _)).append (.refl _))

/-- **An observation is read back** exactly when its description is plain text.

**Proof sketch.** If it is read back, the description was read as plain text, and the member that it
was read from is the one that was written. Conversely every member is looked up among those that
were written, where it stands once, and is read back by the round trip of its own type; an absent
one was left out because there was no value. -/
theorem ObservationWire.decode_toJson (o : ObservationWire) (hextra : IsMap o.providerExtra) :
    decode o.toJson = .ok o ↔ validatePlainText o.description = .ok () := by
  constructor
  · intro h
    obtain ⟨members, hmembers, hreads⟩ := decode_eq_ok.mp h
    rw [toJson_eq, o.object_members, Except.ok.injEq] at hmembers
    have hdescription := hreads.description
    have hlookup : o.members.lookup "description" = some (.str o.description) := by
      simp [ObservationWire.members]
    rw [← hmembers, required, hlookup] at hdescription
    exact (plainText_eq_ok.mp hdescription).2
  · intro hplain
    refine decode_eq_ok.mpr ⟨o.members, o.object_members _, ?_⟩
    constructor
    · exact required_eq (by simp [members]) (string_str _)
    · exact required_eq (by simp [members]) (string_str _)
    · exact omittable_string (by simp [members])
    · exact omittable_string (by simp [members])
    · exact required_eq (by simp [members]) (ObservationState.decode_spelling _)
    · exact omittable_string (by simp [members])
    · exact required_eq (by simp [members]) (string_str _)
    · exact required_eq (by simp [members]) (Posting.decode_spelling _)
    · exact required_eq (by simp [members]) (decodeAmount_amountJson _)
    · exact omittable_amount (by simp [members])
    · exact required_eq (by simp [members]) (RawSign.decode_spelling _)
    · exact required_eq (by simp [members]) (plainText_eq_ok.mpr ⟨rfl, hplain⟩)
    · have hlookup : o.members.lookup "provider_extra" = some (.obj o.providerExtra) := by
        simp [members]
      rw [defaulted, hlookup]
      exact congrArg Except.ok hextra
    · exact required_eq (by simp [members]) (ProvenanceWire.decode_toJson _)

/-- What an observation is read as depends on the values of its keys alone. -/
lemma ObservationWire.Reads.congr {members members' : List (String × Json)} {o : ObservationWire}
    (h : Reads members o) (hsame : ∀ key, members'.lookup key = members.lookup key) :
    Reads members' o := by
  obtain ⟨h₁, h₂, h₃, h₄, h₅, h₆, h₇, h₈, h₉, h₁₀, h₁₁, h₁₂, h₁₃, h₁₄⟩ := h
  constructor
  all_goals simp only [required, omittable, defaulted, hsame] at *
  all_goals assumption

/-- **The codec of an observation.** What is accepted is an object with the fields of an
observation and no other, each once, in any order; its description is plain text, and its written
form is read as the same observation again. An observation is read back from its written form
exactly when its description is plain text. -/
theorem observation_codec :
    (∀ j o, ObservationWire.decode j = .ok o → ∃ members, j = .obj members ∧
        (∀ m ∈ members, m.1 ∈ observationFields) ∧ (members.map Prod.fst).Nodup ∧
        (∀ members', members.Perm members' →
          ObservationWire.decode (.obj members') = .ok o) ∧
        validatePlainText o.description = .ok () ∧ ObservationWire.decode o.toJson = .ok o) ∧
      ∀ o : ObservationWire, IsMap o.providerExtra →
        (ObservationWire.decode o.toJson = .ok o ↔ validatePlainText o.description = .ok ()) := by
  refine ⟨fun j o h => ?_, fun o hextra => o.decode_toJson hextra⟩
  obtain ⟨members, hmembers, hreads⟩ := ObservationWire.decode_eq_ok.mp h
  obtain ⟨members, rfl, hfields, hnodup, rfl⟩ := object_eq_ok.mp hmembers
  have hplain : validatePlainText o.description = .ok () := by
    obtain ⟨value, -, hvalue⟩ := required_eq_ok.mp hreads.description
    exact (plainText_eq_ok.mp hvalue).2
  have hextra : IsMap o.providerExtra := by
    rcases defaulted_eq_ok.mp hreads.providerExtra with ⟨-, hnone⟩ | ⟨value, -, hvalue⟩
    · rw [hnone]
      rfl
    · exact isMap_of_valueMap hvalue
  refine ⟨members, rfl, hfields, hnodup, fun members' hperm => ?_, hplain,
    (o.decode_toJson hextra).mpr hplain⟩
  refine ObservationWire.decode_eq_ok.mpr ⟨members', object_eq_ok.mpr ⟨members', rfl,
    fun m hm => hfields m (hperm.mem_iff.mpr hm), (hperm.map Prod.fst).nodup_iff.mp hnodup, rfl⟩,
    hreads.congr fun key => (Record.lookup_perm hperm hnodup).symm⟩

/-! ### Balance lines -/

/-- The wire spelling of a hint. -/
def CanonicalHint.spelling : CanonicalHint → String
  | .available => "available"
  | .total => "total"
  | .pending => "pending"
  | .held => "held"
  | .confirmed => "confirmed"
  | .unconfirmed => "unconfirmed"

/-- A hint that is written is read back. -/
lemma CanonicalHint.decode_spelling (c : CanonicalHint) : decode (.str c.spelling) = .ok c := by
  cases c <;> rfl

/-- An amount that is written as `null` when it is unknown. -/
def amountOrNull : Option Amount → Json
  | none => .null
  | some a => amountJson a

/-- The members that a balance line is written with. -/
def BalanceWire.members (b : BalanceWire) : List (String × Json) :=
  [("resource_id", .str b.resourceId), ("category", .str b.category)] ++
    optional "canonical_hint" (fun c : CanonicalHint => Json.str c.spelling) b.canonicalHint ++
    [("amount", amountOrNull b.amount), ("provenance", b.provenance.toJson)]

/-- A balance line, as it is serialized. -/
def BalanceWire.toJson (b : BalanceWire) : Json := .obj b.members

/-- What the members of a balance line are read as. -/
structure BalanceWire.Reads (members : List (String × Json)) (b : BalanceWire) : Prop where
  resourceId : required members "resource_id" string = .ok b.resourceId
  category : required members "category" string = .ok b.category
  canonicalHint : omittable members "canonical_hint" CanonicalHint.decode = .ok b.canonicalHint
  amount : required members "amount" (nullable decodeAmount) = .ok b.amount
  provenance : required members "provenance" ProvenanceWire.decode = .ok b.provenance

/-- A document is a balance line exactly when it is an object with no other fields than those of
one, and its members are read as the parts. -/
lemma BalanceWire.decode_eq_ok {j : Json} {b : BalanceWire} : decode j = .ok b ↔
    ∃ members, object "a balance line: an object" balanceFields j = .ok members ∧
      Reads members b := by
  simp only [decode, except_bind_eq_ok, pure, Except.pure, Except.ok.injEq]
  constructor
  · rintro ⟨members, hmembers, _, h₁, _, h₂, _, h₃, _, h₄, _, h₅, rfl⟩
    exact ⟨members, hmembers, h₁, h₂, h₃, h₄, h₅⟩
  · rintro ⟨members, hmembers, h₁, h₂, h₃, h₄, h₅⟩
    exact ⟨members, hmembers, _, h₁, _, h₂, _, h₃, _, h₄, _, h₅, rfl⟩

/-- What a balance line is read as depends on the values of its keys alone. -/
lemma BalanceWire.Reads.congr {members members' : List (String × Json)} {b : BalanceWire}
    (h : Reads members b) (hsame : ∀ key, members'.lookup key = members.lookup key) :
    Reads members' b := by
  obtain ⟨h₁, h₂, h₃, h₄, h₅⟩ := h
  constructor
  all_goals simp only [required, omittable, defaulted, hsame] at *
  all_goals assumption

/-- **A balance line is read back**: amount, asset, category and provenance are those it was written
from. -/
lemma BalanceWire.decode_toJson (b : BalanceWire) : decode b.toJson = .ok b := by
  have hmembers (expecting : String) :
      object expecting balanceFields b.toJson = .ok b.members := by
    refine object_of_sublist ?_ (by decide)
    simp only [members, List.map_append]
    exact ((List.Sublist.refl _).append (map_fst_optional _)).append (.refl _)
  refine decode_eq_ok.mpr ⟨b.members, hmembers _, ?_⟩
  constructor
  · exact required_eq (by simp [members]) (string_str _)
  · exact required_eq (by simp [members]) (string_str _)
  · exact omittable_eq (fun c : CanonicalHint => Json.str c.spelling) (by simp [members])
      fun c _ => ⟨Json.noConfusion, c.decode_spelling⟩
  · refine required_eq (j := amountOrNull b.amount) (by simp [members]) ?_
    cases b.amount with
    | none => rfl
    | some a => exact nullable_eq Json.noConfusion (decodeAmount_amountJson a)
  · exact required_eq (by simp [members]) (ProvenanceWire.decode_toJson _)

/-- **The codec of a balance line.** What is accepted is an object with the fields of a balance
line and no other, each once, in any order. It has an amount, which is `null` exactly when the
balance is read as unknown: an object without an amount is refused, and an unknown balance never
becomes a number. Every balance line is read back from its written form.

**Proof sketch.** What is accepted is an object whose members were collected, which fixes their keys
and makes each come once; a lookup does not see their order. The amount is required, so it is there,
and its decoder reads a null as unknown and nothing else. -/
theorem balance_codec :
    (∀ j b, BalanceWire.decode j = .ok b → ∃ members, j = .obj members ∧
        (∀ m ∈ members, m.1 ∈ balanceFields) ∧ (members.map Prod.fst).Nodup ∧
        (∀ members', members.Perm members' → BalanceWire.decode (.obj members') = .ok b) ∧
        ∃ amount, members.lookup "amount" = some amount ∧ (amount = .null ↔ b.amount = none)) ∧
      ∀ b : BalanceWire, BalanceWire.decode b.toJson = .ok b := by
  refine ⟨fun j b h => ?_, BalanceWire.decode_toJson⟩
  obtain ⟨members, hmembers, hreads⟩ := BalanceWire.decode_eq_ok.mp h
  obtain ⟨members, rfl, hfields, hnodup, rfl⟩ := object_eq_ok.mp hmembers
  obtain ⟨amount, hamount, hvalue⟩ := required_eq_ok.mp hreads.amount
  refine ⟨members, rfl, hfields, hnodup, fun members' hperm => ?_, amount, hamount, ?_⟩
  · refine BalanceWire.decode_eq_ok.mpr ⟨members', object_eq_ok.mpr ⟨members', rfl,
      fun m hm => hfields m (hperm.mem_iff.mpr hm), (hperm.map Prod.fst).nodup_iff.mp hnodup, rfl⟩,
      hreads.congr fun key => (Record.lookup_perm hperm hnodup).symm⟩
  · constructor
    · rintro rfl
      exact (Except.ok.inj hvalue).symm
    · intro hnone
      by_contra hnull
      rw [hnone, nullable] at hvalue
      · cases hdecode : decodeAmount amount with
        | error e =>
          rw [hdecode] at hvalue
          cases hvalue
        | ok a =>
          rw [hdecode] at hvalue
          cases hvalue
      · exact hnull

end Sumer.Wire
