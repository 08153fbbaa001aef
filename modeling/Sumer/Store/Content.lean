import Sumer.Money.Grammar
import Sumer.Store.Sample

set_option relaxedAutoImplicit false
set_option autoImplicit false

/-!
# What the content hash discriminates

Two reports have one content hash exactly when they agree on every field the adapter wrote about the
record. That the digest and the JSON text tell the inputs considered apart is assumed of the crates;
that the fields do, through optional, enumerated, decimal and nested encodings, is proved here.

## Main results

* `Sumer.Store.object_inj`: an object determines its members, in whatever order they were put.
* `Sumer.Store.hashedFields_eq_iff`: what two equal lists of hashed fields have in common.
* `Sumer.Store.contentHash_eq_iff`: the hash discriminates on exactly the content.
-/

namespace Sumer.Store

open Sumer.Wire Sumer.Money

/-! ### The encodings of single fields -/

section Fields

/-- A present text is told from an absent one, also when it is empty. -/
lemma optStr_injective : Function.Injective optStr := by
  intro s t heq
  cases s <;> cases t <;> simp_all [optStr]

/-- Two states are never spelled alike, so that a hash of the spelling tells them apart. -/
lemma ObservationState.spelling_injective : Function.Injective ObservationState.spelling := by
  intro s t heq
  cases s <;> cases t <;> first | rfl | exact absurd heq (by decide)

/-- Two postings are never spelled alike. -/
lemma Posting.spelling_injective : Function.Injective Posting.spelling := by
  intro s t heq
  cases s <;> cases t <;> first | rfl | exact absurd heq (by decide)

/-- Two signs are never spelled alike. -/
lemma RawSign.spelling_injective : Function.Injective RawSign.spelling := by
  intro s t heq
  cases s <;> cases t <;> first | rfl | exact absurd heq (by decide)

/-- Two grades of completeness are never spelled alike. -/
lemma Completeness.spelling_injective : Function.Injective Completeness.spelling := by
  intro s t heq
  cases s <;> cases t <;> first | rfl | exact absurd heq (by decide)

/-- A timestamp is its text and nothing else, so equal texts are equal timestamps. -/
lemma Rfc3339.text_injective : Function.Injective Rfc3339.text := fun _ _ heq => Rfc3339.ext heq

/-- Members with the same names in the same places, no name twice, are determined by the object
that they make. -/
lemma object_inj {fields fields' : List (String × Json)}
    (hkeys : fields.map Prod.fst = fields'.map Prod.fst) (hnodup : (fields.map Prod.fst).Nodup)
    (heq : object fields = object fields') : fields = fields' := by
  have hperm : fields.Perm fields' := by
    have hsorted := Json.obj.inj heq
    exact (List.perm_insertionSort _ fields).symm.trans
      (hsorted ▸ List.perm_insertionSort _ fields')
  have hlen : fields.length = fields'.length := hperm.length_eq
  refine List.ext_getElem hlen fun i hi hi' => ?_
  obtain ⟨j, hj, hmem⟩ := List.getElem_of_mem (hperm.mem_iff.mp (List.getElem_mem hi))
  have hi₁ : i < (fields.map Prod.fst).length := by simpa using hi
  have hj₁ : j < (fields.map Prod.fst).length := by simpa [hlen] using hj
  have hj₂ : j < (fields'.map Prod.fst).length := by simpa using hj
  have hname : (fields.map Prod.fst)[i] = (fields.map Prod.fst)[j] := by
    have hback : (fields.map Prod.fst)[j] = (fields'.map Prod.fst)[j] := by
      simp only [hkeys]
    rw [hback, List.getElem_map, List.getElem_map, hmem]
  obtain rfl : i = j := (hnodup.getElem_inj_iff).mp hname
  exact hmem.symm

/-- An amount is told apart by its asset and its text: the text has all its digits and its
scale.

**Proof sketch.** An amount is written as an object and a missing one is not. The members of two
objects that are equal are equal one by one, and the text of an amount is read back as the
amount. -/
lemma moneyJson_injective : Function.Injective moneyJson := by
  intro a b heq
  cases a with
  | none =>
    cases b with
    | none => rfl
    | some b => simp [moneyJson, object] at heq
  | some a =>
    cases b with
    | none => simp [moneyJson, object] at heq
    | some b =>
      have hfields := object_inj (by rfl) (by simp) heq
      simp only [List.cons.injEq, Prod.mk.injEq, true_and, and_true, Json.str.injEq] at hfields
      obtain ⟨hasset, htext⟩ := hfields
      have hparse := a.parse_toText a.asset
      rw [htext, b.parse_toText a.asset] at hparse
      have hsame := Except.ok.inj hparse
      have hassets : a.asset = b.asset := by
        obtain ⟨⟨text, hvalid⟩, _⟩ := a
        obtain ⟨⟨text', hvalid'⟩, _⟩ := b
        obtain rfl : text = text' := hasset
        rfl
      obtain ⟨asset, units, scale, _, _⟩ := a
      obtain ⟨asset', units', scale', _, _⟩ := b
      obtain rfl : asset = asset' := hassets
      simp only [Amount.mk.injEq, true_and] at hsame
      obtain ⟨rfl, rfl⟩ := hsame
      rfl

end Fields

/-! ### The fields together -/

variable {a b : Observation}

/-- The names of the hashed fields are distinct. -/
lemma nodup_hashedFields (o : Observation) : ((hashedFields o).map Prod.fst).Nodup := by
  have hnames : (hashedFields o).map Prod.fst =
      ["resource_id", "local_id", "provider_id", "supersedes_provider_id", "state",
        "tombstone_reason", "surface", "posting", "amount", "fees", "raw_sign", "description",
        "provider_extra", "observed_at", "effective_at", "completeness"] := rfl
  rw [hnames]
  decide

/-- **What equal hashed fields have in common**: everything the adapter wrote about the record. -/
lemma hashedFields_eq_iff :
    hashedFields a = hashedFields b ↔
      a.resourceId = b.resourceId ∧ a.localId = b.localId ∧ a.providerId = b.providerId ∧
        a.supersedesProviderId = b.supersedesProviderId ∧ a.state = b.state ∧
        a.tombstoneReason = b.tombstoneReason ∧ a.surface = b.surface ∧ a.posting = b.posting ∧
        a.amount = b.amount ∧ a.fees = b.fees ∧ a.rawSign = b.rawSign ∧
        a.description = b.description ∧ a.providerExtra = b.providerExtra ∧
        a.provenance.observedAt = b.provenance.observedAt ∧
        a.provenance.effectiveAt = b.provenance.effectiveAt ∧
        a.provenance.completeness = b.provenance.completeness := by
  have htimes : Function.Injective (Option.map Rfc3339.text) :=
    Option.map_injective Rfc3339.text_injective
  simp only [hashedFields, List.cons.injEq, Prod.mk.injEq, true_and, and_true, Json.str.injEq,
    Json.obj.injEq, optStr_injective.eq_iff, ObservationState.spelling_injective.eq_iff,
    Posting.spelling_injective.eq_iff, RawSign.spelling_injective.eq_iff,
    Completeness.spelling_injective.eq_iff, Rfc3339.text_injective.eq_iff, htimes.eq_iff,
    moneyJson_injective.eq_iff, Option.some.injEq]

/-- **The content hash discriminates on exactly the content.** Of any observations that the JSON
text and the digest tell apart as far as they are different inputs, two have one hash exactly when
they agree on every field the adapter wrote about the record, whatever their receipt stamps and
whatever adapter, provider and surface their provenance names. -/
theorem contentHash_eq_iff (c : Crates) (considered : Set Observation)
    (hjson : Set.InjOn c.jsonText ((fun o => object (hashedFields o)) '' considered))
    (hsha : Set.InjOn c.sha256Hex
      ((fun o => asBytes (c.jsonText (object (hashedFields o)))) '' considered))
    (a b : Observation) (ha : a ∈ considered) (hb : b ∈ considered) :
    contentHash c a = contentHash c b ↔
      a.resourceId = b.resourceId ∧ a.localId = b.localId ∧ a.providerId = b.providerId ∧
        a.supersedesProviderId = b.supersedesProviderId ∧ a.state = b.state ∧
        a.tombstoneReason = b.tombstoneReason ∧ a.surface = b.surface ∧ a.posting = b.posting ∧
        (a.amount.asset = b.amount.asset ∧ a.amount.units = b.amount.units ∧
          a.amount.scale = b.amount.scale) ∧
        a.fees = b.fees ∧ a.rawSign = b.rawSign ∧ a.description = b.description ∧
        a.providerExtra = b.providerExtra ∧
        a.provenance.observedAt = b.provenance.observedAt ∧
        a.provenance.effectiveAt = b.provenance.effectiveAt ∧
        a.provenance.completeness = b.provenance.completeness := by
  have hamount : a.amount = b.amount ↔ a.amount.asset = b.amount.asset ∧
      a.amount.units = b.amount.units ∧ a.amount.scale = b.amount.scale := by
    obtain ⟨asset, units, scale, _, _⟩ := a.amount
    obtain ⟨asset', units', scale', _, _⟩ := b.amount
    exact Amount.mk.injEq .. ▸ Iff.rfl
  rw [← hamount, ← hashedFields_eq_iff]
  constructor
  · intro heq
    have hbytes := hsha ⟨a, ha, rfl⟩ ⟨b, hb, rfl⟩ heq
    have hobject := hjson ⟨a, ha, rfl⟩ ⟨b, hb, rfl⟩ (asBytes_injective hbytes)
    exact object_inj rfl (nodup_hashedFields a) hobject
  · intro heq
    rw [contentHash, contentHash, heq]

/-- A record without a provider id. -/
def Sample.unnamed : Observation :=
  Sample.record "acct" "L1" "checking" "coffee" .active Sample.day₁

/-- The record with an empty provider id. -/
def Sample.emptyNamed : Observation := { Sample.unnamed with providerId := some "" }

/-- The texts of the two records differ: `null` takes more bytes than an empty string. -/
lemma Sample.jsonText_unnamed_ne :
    Sample.textCrates.jsonText (object (hashedFields Sample.unnamed)) ≠
      Sample.textCrates.jsonText (object (hashedFields Sample.emptyNamed)) := by
  have hsize : (object (hashedFields Sample.unnamed)).size ≠
      (object (hashedFields Sample.emptyNamed)).size := by decide +kernel
  intro h
  have hbytes : (asBytes (object (hashedFields Sample.unnamed)).text).length =
      (asBytes (object (hashedFields Sample.emptyNamed)).text).length :=
    congrArg (fun s => (asBytes s).length) h
  rw [Json.length_text, Json.length_text] at hbytes
  exact hsize hbytes

/-- A record with an empty provider id does not have the hash of the record without one. -/
theorem contentHash_ne_of_empty_providerId :
    contentHash Sample.textCrates Sample.unnamed ≠
      contentHash Sample.textCrates Sample.emptyNamed := by
  have hjson : Set.InjOn Sample.textCrates.jsonText ((fun o => object (hashedFields o)) ''
      {Sample.unnamed, Sample.emptyNamed}) := by
    rw [Set.image_pair]
    exact Set.injOn_pair.mpr fun h => absurd h Sample.jsonText_unnamed_ne
  have hsha : Set.InjOn Sample.textCrates.sha256Hex
      ((fun o => asBytes (Sample.textCrates.jsonText (object (hashedFields o)))) ''
        {Sample.unnamed, Sample.emptyNamed}) := Sample.hex_injective.injOn
  intro heq
  have hfields := (contentHash_eq_iff Sample.textCrates {Sample.unnamed, Sample.emptyNamed} hjson
    hsha Sample.unnamed Sample.emptyNamed (Set.mem_insert _ _)
    (Set.mem_insert_of_mem _ rfl)).mp heq
  have hprovider : Sample.unnamed.providerId = Sample.emptyNamed.providerId := hfields.2.2.1
  exact absurd hprovider (by decide)

end Sumer.Store
