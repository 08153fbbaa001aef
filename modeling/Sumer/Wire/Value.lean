import Sumer.Wire.RoundTrip

set_option relaxedAutoImplicit false
set_option autoImplicit false

/-!
# Reading a value

A document may be parsed as a `serde_json::Value` first, and be read from that (`from_value` in
`adapters/bitcoin/src/main.rs`), or be read from its text at once (`core/host/src/lib.rs`). A value
is a map: its keys are sorted, and of a key that comes twice the last value stays. What is read of a
document at once is read of its value too. The other direction fails, since the value of a document
with a duplicate key has none; so a reader that refuses duplicate keys must not read values.

## Main definitions

* `Sumer.Wire.ReadsValue`: what a decoder reads of a document, it reads of its value.

## Main results

* `Sumer.Wire.object_value`: the members of a value.
* `Sumer.Wire.readsValue_observation`, `Sumer.Wire.readsValue_balance`,
  `Sumer.Wire.readsValue_status`: the types of a reply.
-/

namespace Sumer.Wire

open Sumer.Money

/-- What is read of a document is read of its value. -/
def ReadsValue {α : Type} (decode : Json → Except DecodeError α) : Prop :=
  ∀ j x, decode j = .ok x → decode j.value = .ok x

/-- Members that have the values of other members. -/
def ValuesOf (members members' : List (String × Json)) : Prop :=
  ∀ key, members'.lookup key = (members.lookup key).map Json.value

/-! ### Members -/

section Members

variable {α β : Type} {expecting key : String} {fields : List String}
  {members members' out : List (String × Json)} {decode : Json → Except DecodeError α} {j : Json}

/-- The keys of a value are those of its document. -/
lemma map_fst_memberValues (members : List (String × Json)) :
    (memberValues members).map Prod.fst = members.map Prod.fst := by
  induction members with
  | nil => rfl
  | cons m members ih =>
    obtain ⟨k, v⟩ := m
    rw [memberValues, List.map_cons, ih]
    rfl

/-- The values of the members, member by member. -/
lemma valuesOf_memberValues (members : List (String × Json)) :
    ValuesOf members (memberValues members) := by
  intro key
  induction members with
  | nil => rfl
  | cons m members ih =>
    obtain ⟨k, v⟩ := m
    rw [memberValues, lookup_member, lookup_member, ih]
    split_ifs <;> rfl

/-- An object whose members are put in another order, as values, is accepted like the original. -/
lemma object_of_perm (h : object expecting fields (.obj members) = .ok out)
    (hperm : members'.Perm (memberValues members)) :
    object expecting fields (.obj members') = .ok members' ∧ ValuesOf out members' := by
  obtain ⟨_, heq, hfields, hnodup, rfl⟩ := object_eq_ok.mp h
  cases heq
  have hkeys : (members'.map Prod.fst).Perm (members.map Prod.fst) := by
    rw [← map_fst_memberValues members]
    exact hperm.map Prod.fst
  have hnodup' := hkeys.nodup_iff.mpr hnodup
  refine ⟨object_eq_ok.mpr ⟨members', rfl, fun m hm => ?_, hnodup', rfl⟩, fun key => ?_⟩
  · obtain ⟨m', hm', heq⟩ := List.mem_map.mp (hkeys.mem_iff.mp (List.mem_map_of_mem hm))
    exact heq ▸ hfields m' hm'
  · rw [Record.lookup_perm hperm hnodup']
    exact valuesOf_memberValues members key

/-- A map is made of the members of an object with different keys. -/
lemma perm_toMap_memberValues (hnodup : (members.map Prod.fst).Nodup) :
    (Record.toMap (memberValues members)).Perm (memberValues members) :=
  Record.toMap_perm (by rwa [map_fst_memberValues])

/-- **The members of a value**: an object that is accepted is accepted as a value as well, and each
key then has the value of what it had. -/
lemma object_value (h : object expecting fields j = .ok members) :
    ∃ members', object expecting fields j.value = .ok members' ∧ ValuesOf members members' := by
  obtain ⟨members, rfl, -, hnodup, rfl⟩ := object_eq_ok.mp h
  exact ⟨_, object_of_perm h (perm_toMap_memberValues hnodup)⟩

/-- A required member is read from the value, if its decoder reads values. -/
lemma required_value {decode' : Json → Except DecodeError β} {x : α} {y : β}
    (h : ValuesOf members members') (hdecode : ∀ j, decode j = .ok x → decode' j.value = .ok y)
    (hx : required members key decode = .ok x) : required members' key decode' = .ok y := by
  obtain ⟨j, hj, hx⟩ := required_eq_ok.mp hx
  exact required_eq_ok.mpr ⟨j.value, by rw [h, hj]; rfl, hdecode j hx⟩

/-- A member of a value with a default. -/
lemma defaulted_value {default x : α} (h : ValuesOf members members') (hdecode : ReadsValue decode)
    (hx : defaulted members key default decode = .ok x) :
    defaulted members' key default decode = .ok x := by
  rcases defaulted_eq_ok.mp hx with ⟨hnone, rfl⟩ | ⟨j, hj, hx⟩
  · exact defaulted_eq_ok.mpr (.inl ⟨by rw [h, hnone]; rfl, rfl⟩)
  · exact defaulted_eq_ok.mpr (.inr ⟨j.value, by rw [h, hj]; rfl, hdecode j _ hx⟩)

end Members

/-! ### Combinators -/

section Combinators

variable {α β : Type} {decode : Json → Except DecodeError α}

/-- What is made of a value that was read. -/
lemma ReadsValue.bind (h : ReadsValue decode) (f : α → Except DecodeError β) :
    ReadsValue fun j => decode j >>= f := by
  intro j x hx
  obtain ⟨y, hy, hx⟩ := except_bind_eq_ok.mp hx
  exact except_bind_eq_ok.mpr ⟨y, h j y hy, hx⟩

/-- If a decoder reads values, so does the one that takes `null` besides. -/
lemma ReadsValue.nullable (h : ReadsValue decode) : ReadsValue (nullable decode) := by
  intro j x hx
  have hsome {j : Json} (hj : Wire.nullable decode j = (decode j).map some)
      (hj' : Wire.nullable decode j.value = (decode j.value).map some)
      (hx : Wire.nullable decode j = .ok x) : Wire.nullable decode j.value = .ok x := by
    rw [hj] at hx
    cases hread : decode j with
    | error e =>
      rw [hread] at hx
      cases hx
    | ok y =>
      rw [hread] at hx
      rw [hj', h j y hread]
      exact hx
  cases j with
  | null => exact hx
  | _ => exact hsome rfl rfl hx

/-- A member that may be left out. -/
lemma omittable_value {key : String} {members members' : List (String × Json)} {x : Option α}
    (h : ValuesOf members members') (hdecode : ReadsValue decode)
    (hx : omittable members key decode = .ok x) : omittable members' key decode = .ok x :=
  defaulted_value h hdecode.nullable hx

/-- If a decoder reads values, an array of what it decodes is read from its value, item by item. -/
lemma ReadsValue.sequence (h : ReadsValue decode) : ReadsValue (sequence decode) := by
  intro j xs hxs
  cases j with
  | arr items =>
    show (itemValues items).mapM decode = .ok xs
    replace hxs : items.mapM decode = .ok xs := hxs
    induction items generalizing xs with
    | nil => exact hxs
    | cons item items ih =>
      rw [List.mapM_cons] at hxs
      obtain ⟨x, hx, hxs⟩ := except_bind_eq_ok.mp hxs
      obtain ⟨rest, hrest, hxs⟩ := except_bind_eq_ok.mp hxs
      rw [itemValues, List.mapM_cons, h item x hx, ih rest hrest]
      exact hxs
  | _ => cases hxs

/-- A string is its own value, so it is read alike. -/
lemma readsValue_string : ReadsValue string := by
  intro j x hx
  cases j with
  | str s => exact hx
  | _ => cases hx

/-- A truth value is its own value, so it is read alike. -/
lemma readsValue_boolean : ReadsValue boolean := by
  intro j x hx
  cases j with
  | bool b => exact hx
  | _ => cases hx

/-- A number is its own value, so it is read alike. -/
lemma readsValue_unsigned (bits : ℕ) : ReadsValue (unsigned bits) := by
  intro j x hx
  cases j with
  | num literal => exact hx
  | _ => cases hx

/-- The name of a variant, alone or as the one key of an object, is read alike from the value. -/
lemma readsValue_variant : ReadsValue variant := by
  intro j x hx
  unfold variant at hx
  split at hx
  · exact hx
  · exact hx
  · cases hx

/-- One of some named variants is read alike from the value. -/
lemma readsValue_oneOf (variants : List (String × α)) : ReadsValue (oneOf variants) :=
  readsValue_variant.bind _

/-- A map of values is read alike from the value: it was sorted by its keys anyway. -/
lemma readsValue_valueMap : ReadsValue valueMap := by
  intro j members hmembers
  cases j with
  | obj given =>
    have hsame := Json.value_value (.obj given)
    cases hmembers
    exact congrArg Except.ok (Json.obj.inj hsame)
  | _ => cases hmembers

end Combinators

/-! ### Values -/

/-- A timestamp is read from its string, which a `Value` keeps as it is. -/
lemma readsValue_timestamp : ReadsValue decodeTimestamp := readsValue_string.bind _

/-- The name of an asset is read from its string, which a `Value` keeps as it is. -/
lemma readsValue_assetId : ReadsValue decodeAssetId := readsValue_string.bind _

/-- A plain text is read from its string, which a `Value` keeps as it is. -/
lemma readsValue_plainText : ReadsValue plainText := readsValue_string.bind _

/-- An amount is read alike from the value: its two members are looked up by their keys. -/
lemma readsValue_amount : ReadsValue decodeAmount := by
  intro j x hx
  simp only [decodeAmount, except_bind_eq_ok] at hx ⊢
  obtain ⟨members, hmembers, asset, hasset, amount, hamount, hx⟩ := hx
  obtain ⟨members', hmembers', hv⟩ := object_value hmembers
  exact ⟨members', hmembers', asset, required_value hv (fun j => readsValue_string j _) hasset,
    amount, required_value hv (fun j => readsValue_string j _) hamount, hx⟩

/-! ### Observations -/

/-- Provenance is read alike from the value, member by member. -/
lemma readsValue_provenance : ReadsValue ProvenanceWire.decode := by
  intro j x hx
  simp only [ProvenanceWire.decode, except_bind_eq_ok] at hx ⊢
  obtain ⟨members, hmembers, adapterId, hadapter, providerId, hprovider, surface, hsurface,
    observedAt, hobserved, effectiveAt, heffective, completeness, hcompleteness, hx⟩ := hx
  obtain ⟨members', hmembers', hv⟩ := object_value hmembers
  exact ⟨members', hmembers',
    adapterId, required_value hv (fun j => readsValue_string j _) hadapter,
    providerId, required_value hv (fun j => readsValue_string j _) hprovider,
    surface, required_value hv (fun j => readsValue_string j _) hsurface,
    observedAt, required_value hv (fun j => readsValue_timestamp j _) hobserved,
    effectiveAt, omittable_value hv readsValue_timestamp heffective,
    completeness, required_value hv (fun j => readsValue_oneOf _ j _) hcompleteness, hx⟩

/-- A balance line is read alike from the value, member by member. -/
lemma readsValue_balance : ReadsValue BalanceWire.decode := by
  intro j x hx
  simp only [BalanceWire.decode, except_bind_eq_ok] at hx ⊢
  obtain ⟨members, hmembers, resourceId, hresource, category, hcategory, hint, hhint, amount,
    hamount, provenance, hprovenance, hx⟩ := hx
  obtain ⟨members', hmembers', hv⟩ := object_value hmembers
  exact ⟨members', hmembers',
    resourceId, required_value hv (fun j => readsValue_string j _) hresource,
    category, required_value hv (fun j => readsValue_string j _) hcategory,
    hint, omittable_value hv (readsValue_oneOf _) hhint,
    amount, required_value hv (fun j => readsValue_amount.nullable j _) hamount,
    provenance, required_value hv (fun j => readsValue_provenance j _) hprovenance, hx⟩

/-- A history observation.

**Proof sketch.** The members of the object and of its `Value` are the same up to order, and every
decoder of a member reads a value as it reads the text; so each member is decoded alike. -/
lemma readsValue_observation : ReadsValue ObservationWire.decode := by
  intro j x hx
  simp only [ObservationWire.decode, except_bind_eq_ok] at hx ⊢
  obtain ⟨members, hmembers, resourceId, hresource, localId, hlocal, providerId, hprovider,
    supersedes, hsupersedes, state, hstate, reason, hreason, surface, hsurface, posting, hposting,
    amount, hamount, fees, hfees, rawSign, hsign, description, hdescription, extra, hextra,
    provenance, hprovenance, hx⟩ := hx
  obtain ⟨members', hmembers', hv⟩ := object_value hmembers
  exact ⟨members', hmembers',
    resourceId, required_value hv (fun j => readsValue_string j _) hresource,
    localId, required_value hv (fun j => readsValue_string j _) hlocal,
    providerId, omittable_value hv readsValue_string hprovider,
    supersedes, omittable_value hv readsValue_string hsupersedes,
    state, required_value hv (fun j => readsValue_oneOf _ j _) hstate,
    reason, omittable_value hv readsValue_string hreason,
    surface, required_value hv (fun j => readsValue_string j _) hsurface,
    posting, required_value hv (fun j => readsValue_oneOf _ j _) hposting,
    amount, required_value hv (fun j => readsValue_amount j _) hamount,
    fees, omittable_value hv readsValue_amount hfees,
    rawSign, required_value hv (fun j => readsValue_oneOf _ j _) hsign,
    description, required_value hv (fun j => readsValue_plainText j _) hdescription,
    extra, defaulted_value hv readsValue_valueMap hextra,
    provenance, required_value hv (fun j => readsValue_provenance j _) hprovenance, hx⟩

/-! ### Status entries -/

/-- A provider's evidence: whatever is in it. -/
lemma readsValue_providerDetail : ReadsValue decodeProviderDetail := by
  intro j x hx
  simp only [decodeProviderDetail, except_bind_eq_ok] at hx ⊢
  obtain ⟨members, hmembers, code, hcode, message, hmessage, raw, hraw, hx⟩ := hx
  obtain ⟨members', hmembers', hv⟩ := object_value hmembers
  refine ⟨members', hmembers', code, required_value hv (fun j => readsValue_string j _) hcode,
    message, required_value hv (fun j => readsValue_string j _) hmessage, raw.value,
    required_value hv (fun j hj => ?_) hraw, hx⟩
  cases hj
  rfl

/-- A record that was omitted is read alike from the value, with its local id or without one. -/
lemma readsValue_degraded : ReadsValue Degraded.decode := by
  intro j x hx
  simp only [Degraded.decode, except_bind_eq_ok] at hx ⊢
  obtain ⟨members, hmembers, localId, hlocal, bytes, hbytes, hx⟩ := hx
  obtain ⟨members', hmembers', hv⟩ := object_value hmembers
  exact ⟨members', hmembers', localId, omittable_value hv readsValue_string hlocal,
    bytes, required_value hv (fun j => readsValue_unsigned 64 j _) hbytes, hx⟩

/-- The body of an outcome is read alike from the value, whichever outcome it is of.

**Proof sketch.** Four outcomes have a body, each with one member, which is read from the value as
from the text. -/
lemma readsValue_outcomeBody (name : String) : ReadsValue (outcomeBody name) := by
  intro j x hx
  unfold outcomeBody at hx ⊢
  split_ifs at hx ⊢
  · simp only [except_bind_eq_ok] at hx ⊢
    obtain ⟨members, hmembers, pageEmpty, hempty, hx⟩ := hx
    obtain ⟨members', hmembers', hv⟩ := object_value hmembers
    exact ⟨members', hmembers', pageEmpty,
      required_value hv (fun j => readsValue_boolean j _) hempty, hx⟩
  · simp only [except_bind_eq_ok] at hx ⊢
    obtain ⟨members, hmembers, asOf, hasOf, hx⟩ := hx
    obtain ⟨members', hmembers', hv⟩ := object_value hmembers
    exact ⟨members', hmembers', asOf,
      required_value hv (fun j => readsValue_timestamp j _) hasOf, hx⟩
  · simp only [except_bind_eq_ok] at hx ⊢
    obtain ⟨members, hmembers, ms, hms, hx⟩ := hx
    obtain ⟨members', hmembers', hv⟩ := object_value hmembers
    exact ⟨members', hmembers', ms,
      required_value hv (fun j => readsValue_unsigned 64 j _) hms, hx⟩

/-- An outcome is read alike from the value, be it a bare name or a name with a body. -/
lemma readsValue_outcome : ReadsValue ReadOutcome.decode := by
  intro j x hx
  unfold ReadOutcome.decode at hx
  split at hx
  · exact hx
  · cases hx
  · exact readsValue_outcomeBody _ _ _ hx
  · obtain ⟨_, -, hx⟩ := except_bind_eq_ok.mp hx
    cases hx
  · cases hx

/-- Members that are picked by their keys. -/
lemma filter_memberValues (p : String → Bool) (members : List (String × Json)) :
    (memberValues members).filter (fun m => p m.1) =
      memberValues (members.filter fun m => p m.1) := by
  induction members with
  | nil => rfl
  | cons m members ih =>
    obtain ⟨k, v⟩ := m
    rw [memberValues, List.filter_cons, List.filter_cons, ih]
    dsimp only
    split_ifs <;> rfl

/-- The kind of a page, and its fields, in a value.

**Proof sketch.** The keys of the object are distinct: those that are left over are, and the tag is
not among them. So its value has the same members up to order, each as a value, and both filters may
be taken there. -/
lemma page_value {expecting : String} {fields : List String}
    {members out : List (String × Json)} {key name : String}
    (hkind : members.filter (fun m => m.1 == "kind") = [(key, .str name)])
    (hout : object expecting fields (.obj (members.filter fun m => m.1 != "kind")) = .ok out) :
    ∃ members' out', (Json.obj members).value = .obj members' ∧
      members'.filter (fun m => m.1 == "kind") = [(key, .str name)] ∧
      object expecting fields (.obj (members'.filter fun m => m.1 != "kind")) = .ok out' ∧
      ValuesOf out out' := by
  have hnodup : (members.map Prod.fst).Nodup := by
    obtain ⟨_, heq, -, hrest, -⟩ := object_eq_ok.mp hout
    cases heq
    have hsplit := List.filter_append_perm (fun m : String × Json => m.1 == "kind") members
    have hmem : (key, Json.str name) ∈ members.filter (fun m => m.1 == "kind") := by
      rw [hkind]
      exact List.mem_singleton_self _
    have hkey : key = "kind" := by simpa using (List.mem_filter.mp hmem).2
    refine (hsplit.map Prod.fst).nodup_iff.mp ?_
    rw [hkind, List.map_append, List.map_singleton, List.singleton_append, List.nodup_cons]
    refine ⟨fun hmem => ?_, hrest⟩
    obtain ⟨m, hm, heq⟩ := List.mem_map.mp hmem
    have hne : m.1 ≠ "kind" := by simpa using (List.mem_filter.mp hm).2
    exact hne (heq.trans hkey)
  have hperm := perm_toMap_memberValues hnodup
  refine ⟨_, _, rfl, ?_, object_of_perm hout ?_⟩
  · have hfilter := hperm.filter (fun m => m.1 == "kind")
    rw [filter_memberValues (· == "kind"), hkind] at hfilter
    exact List.perm_singleton.mp hfilter
  · have hfilter := hperm.filter (fun m => m.1 != "kind")
    rwa [filter_memberValues (· != "kind")] at hfilter

/-- A page request.

**Proof sketch.** The tag is read first, off the object and off its `Value` alike, since the members
that are left over after it are the same up to their order (`page_value`). Each of the two kinds
then reads its own members, all of them by decoders that read a `Value` as they read the text. -/
lemma readsValue_pageRequest : ReadsValue PageRequest.decode := by
  intro j x hx
  cases j with
  | obj members =>
    simp only [PageRequest.decode] at hx
    split at hx
    · cases hx
    · rename_i key kind hkind
      obtain ⟨name, hname, hpage⟩ := except_bind_eq_ok.mp hx
      cases kind with
      | str name' =>
        cases hname
        split_ifs at hpage with hcursor hwindow
        · obtain ⟨out, hout, hpage⟩ := except_bind_eq_ok.mp hpage
          obtain ⟨members', out', hvalue, hkind', hout', hv⟩ := page_value hkind hout
          obtain ⟨cursor, hcursor', hpage⟩ := except_bind_eq_ok.mp hpage
          rw [hvalue]
          simp only [PageRequest.decode, hkind']
          refine except_bind_eq_ok.mpr ⟨_, string_str _, ?_⟩
          rw [if_pos hcursor]
          simp only [except_bind_eq_ok]
          exact ⟨out', hout', cursor,
            required_value hv (fun j => readsValue_string j _) hcursor', hpage⟩
        · simp only [except_bind_eq_ok] at hpage
          obtain ⟨out, hout, resourceId, hresource, asset, hasset, start, hstart, stop, hstop,
            hpage⟩ := hpage
          obtain ⟨members', out', hvalue, hkind', hout', hv⟩ := page_value hkind hout
          rw [hvalue]
          simp only [PageRequest.decode, hkind']
          refine except_bind_eq_ok.mpr ⟨_, string_str _, ?_⟩
          rw [if_neg hcursor, if_pos hwindow]
          simp only [except_bind_eq_ok]
          exact ⟨out', hout',
            resourceId, required_value hv (fun j => readsValue_string j _) hresource,
            asset, omittable_value hv readsValue_assetId hasset,
            start, required_value hv (fun j => readsValue_timestamp j _) hstart,
            stop, required_value hv (fun j => readsValue_timestamp j _) hstop, hpage⟩
      | _ => cases hname
    · cases hx
  | _ => cases hx

/-- A page reply is read alike from the value, with the request for the next page in it. -/
lemma readsValue_pageReply : ReadsValue PageReply.decode := by
  intro j x hx
  simp only [PageReply.decode, except_bind_eq_ok] at hx ⊢
  obtain ⟨members, hmembers, resumable, hresumable, next, hnext, capped, hcapped, size, hsize,
    hx⟩ := hx
  obtain ⟨members', hmembers', hv⟩ := object_value hmembers
  exact ⟨members', hmembers',
    resumable, required_value hv (fun j => readsValue_oneOf _ j _) hresumable,
    next, omittable_value hv readsValue_pageRequest hnext,
    capped, omittable_value hv readsValue_timestamp hcapped,
    size, omittable_value hv (readsValue_unsigned 32) hsize, hx⟩

/-- A status entry is read alike from the value, member by member. -/
lemma readsValue_status : ReadsValue ResourceStatus.decode := by
  intro j x hx
  simp only [ResourceStatus.decode, except_bind_eq_ok] at hx ⊢
  obtain ⟨members, hmembers, resourceId, hresource, outcome, houtcome, degraded, hdegraded, detail,
    hdetail, page, hpage, credential, hcredential, strong, hstrong, start, hstart, hx⟩ := hx
  obtain ⟨members', hmembers', hv⟩ := object_value hmembers
  exact ⟨members', hmembers',
    resourceId, required_value hv (fun j => readsValue_string j _) hresource,
    outcome, required_value hv (fun j => readsValue_outcome j _) houtcome,
    degraded, defaulted_value hv readsValue_degraded.sequence hdegraded,
    detail, omittable_value hv readsValue_providerDetail hdetail,
    page, omittable_value hv readsValue_pageReply hpage,
    credential, omittable_value hv readsValue_timestamp hcredential,
    strong, omittable_value hv readsValue_timestamp hstrong,
    start, omittable_value hv readsValue_timestamp hstart, hx⟩

/-- A resource that is served is read alike from the value, member by member. -/
lemma readsValue_resource : ReadsValue ResourceDescriptor.decode := by
  intro j x hx
  simp only [ResourceDescriptor.decode, except_bind_eq_ok] at hx ⊢
  obtain ⟨members, hmembers, resourceId, hresource, providerId, hprovider, kind, hkind, label,
    hlabel, extra, hextra, hx⟩ := hx
  obtain ⟨members', hmembers', hv⟩ := object_value hmembers
  exact ⟨members', hmembers',
    resourceId, required_value hv (fun j => readsValue_string j _) hresource,
    providerId, required_value hv (fun j => readsValue_string j _) hprovider,
    kind, required_value hv (fun j => readsValue_string j _) hkind,
    label, required_value hv (fun j => readsValue_string j _) hlabel,
    extra, omittable_value hv readsValue_valueMap hextra, hx⟩

end Sumer.Wire
