import Mathlib.Data.List.MinMax
import Sumer.Conformance.Assert

set_option relaxedAutoImplicit false
set_option autoImplicit false

/-!
# Comparing sequences

The evidence ledger of the conformance suite (`conformance/src/ledger.rs`): what an execution
emitted for one resource, in order, is compared with what a fixture declared. An execution that
had to emit everything is compared element by element; one that may have been cut short, with the
contiguous slice of the declared sequence that it fits best.

## Main definitions

* `Sumer.Conformance.alignDiffs`: the differences at one alignment.
* `Sumer.Conformance.compareSequence`: the comparison.

## Main results

* `Sumer.Conformance.compare_sequence_decides`: what it decides.
-/

namespace Sumer.Conformance

open Sumer.Wire

/-- Which of a resource's two sequences an entry belongs to. -/
inductive ObsKind where
  | balances
  | history

/-- The key a fixture spells a sequence under. -/
def ObsKind.key : ObsKind → String
  | .balances => "balances"
  | .history => "history"

/-- The assertion that a mismatch in a sequence is evidence against. -/
def ObsKind.assertion : ObsKind → String
  | .balances => "A1"
  | .history => "A2"

/-- Which sequence is compared, and under what label. -/
structure SequenceRef where
  label : String
  resourceId : String
  kind : ObsKind

/-- One observation as it was emitted. -/
structure Entry where
  localId : Option String
  json : Json

/-- Whether an execution had to emit everything. -/
inductive Completeness where
  | complete
  | truncated
deriving DecidableEq

variable (lib : Library)

/-- The differences of the emitted sequence from the declared one, from an offset in it on. `i` is
the index of the first entry. -/
def alignDiffsFrom (where_ : String) (declared : List Json) (offset : ℕ) :
    ℕ → List Entry → List String
  | _, [] => []
  | i, entry :: rest =>
    (match declared[offset + i]? with
    | none => []
    | some expected =>
      diffObservation lib entry.json expected (where_ ++ "[" ++ toString (offset + i) ++ "]")) ++
      alignDiffsFrom where_ declared offset (i + 1) rest

/-- The differences at one alignment. -/
def alignDiffs (where_ : String) (declared : List Json) (emitted : List Entry) (offset : ℕ) :
    List String :=
  alignDiffsFrom lib where_ declared offset 0 emitted

/-- Where a sequence is compared, in a message. -/
def SequenceRef.where_ (seq : SequenceRef) : String :=
  seq.label ++ ": " ++ seq.resourceId ++ "/" ++ seq.kind.key

/-- The alignments that are judged. -/
def offsets (completeness : Completeness) (declared : List Json) (emitted : List Entry) : List ℕ :=
  match completeness with
  | .complete => [0]
  | .truncated => List.range (declared.length - emitted.length + 1)

/-- The comparison of an emitted sequence with the declared one, adding to the failures. -/
def compareSequence (seq : SequenceRef) (declared : List Json) (emitted : List Entry)
    (completeness : Completeness) (failures : List Failure) : List Failure :=
  if declared.length < emitted.length then
    failures ++ [Failure.new seq.kind.assertion (seq.where_ ++ ": " ++ toString emitted.length ++
      " observation(s) emitted, only " ++ toString declared.length ++
      " declared -- the extra one(s) are orphans the fixture never named: " ++
      lib.debugTexts ((emitted.drop declared.length).map fun e => brief e.json))]
  else if completeness = .complete ∧ emitted.length ≠ declared.length then
    failures ++ [Failure.new seq.kind.assertion (seq.where_ ++ ": " ++ toString emitted.length ++
      " observation(s) emitted, " ++ toString declared.length ++
      " declared -- the sequence must be EQUAL, not a subset. Emitted: " ++
      lib.debugTexts (emitted.map fun e => brief e.json))]
  else
    -- the alignment with the fewest differences, and the first of those
    let judged := (offsets completeness declared emitted).map fun offset =>
      (offset, alignDiffs lib seq.where_ declared emitted offset)
    match List.argmin (fun aligned : ℕ × List String => aligned.2.length) judged with
    | none => failures
    | some (offset, diffs) =>
      failures ++ diffs.map fun diff => Failure.new seq.kind.assertion
        (if completeness = .truncated then
          diff ++ " (best-matching contiguous slice starts at declared index " ++ toString offset ++
            ")"
        else diff)

/-- The emitted sequence matches a declared one, element by element. -/
def MatchesAll (emitted : List Entry) (declared : List Json) : Prop :=
  List.Forall₂ (fun entry d => Matches lib entry.json d) emitted declared

variable {lib}

section Align

variable {where_ : String} {declared : List Json} {emitted : List Entry} {offset : ℕ}

/-- **An alignment has no difference exactly when the slice it points at matches.** -/
lemma alignDiffsFrom_eq_nil {i : ℕ} (hlength : offset + i + emitted.length ≤ declared.length) :
    alignDiffsFrom lib where_ declared offset i emitted = [] ↔
      MatchesAll lib emitted ((declared.drop (offset + i)).take emitted.length) := by
  induction emitted generalizing i with
  | nil => simp [alignDiffsFrom, MatchesAll]
  | cons entry rest ih =>
    rw [List.length_cons] at hlength
    have hin : offset + i < declared.length := by omega
    rw [alignDiffsFrom, List.getElem?_eq_getElem hin, List.append_eq_nil_iff,
      diffObservation_eq_nil, ih (by omega), List.drop_eq_getElem_cons hin, List.length_cons,
      List.take_succ_cons, MatchesAll, MatchesAll, List.forall₂_cons, Nat.add_assoc]

/-- What is compared at an offset is a slice of the declared sequence. -/
lemma alignDiffs_eq_nil (hlength : offset + emitted.length ≤ declared.length) :
    alignDiffs lib where_ declared emitted offset = [] ↔
      MatchesAll lib emitted ((declared.drop offset).take emitted.length) :=
  alignDiffsFrom_eq_nil (i := 0) (by simpa using hlength)

end Align

section Compare

variable {seq : SequenceRef} {declared : List Json} {emitted : List Entry}
  {completeness : Completeness} {failures : List Failure}

/-- **When no failure is added**: the sequence is not too long, not too short where it has to be
complete, and has no difference at one of the alignments.

**Proof sketch.** The two length checks come first and add a failure each, so past them the lengths
are as required. The alignment that is reported is one with the fewest differences, and there is
always one to try. If some alignment has no difference, the best has none either; and if the best
one has none it is itself an alignment of the offsets. -/
lemma compareSequence_eq_iff :
    compareSequence lib seq declared emitted completeness failures = failures ↔
      emitted.length ≤ declared.length ∧
        (completeness = .complete → emitted.length = declared.length) ∧
        ∃ offset ∈ offsets completeness declared emitted,
          alignDiffs lib seq.where_ declared emitted offset = [] := by
  unfold compareSequence
  by_cases hlong : declared.length < emitted.length
  · rw [if_pos hlong, List.append_right_eq_self]
    simp only [List.cons_ne_nil, false_iff]
    exact fun h => absurd hlong (not_lt.mpr h.1)
  rw [if_neg hlong, and_iff_right (not_lt.mp hlong)]
  by_cases hshort : completeness = .complete ∧ emitted.length ≠ declared.length
  · rw [if_pos hshort, List.append_right_eq_self]
    simp only [List.cons_ne_nil, false_iff]
    exact fun h => hshort.2 (h.1 hshort.1)
  have hequal : completeness = .complete → emitted.length = declared.length := fun h => by
    by_contra hne
    exact hshort ⟨h, hne⟩
  rw [if_neg hshort, and_iff_right hequal]
  dsimp only
  cases hbest : List.argmin (fun aligned : ℕ × List String => aligned.2.length)
      ((offsets completeness declared emitted).map fun offset =>
        (offset, alignDiffs lib seq.where_ declared emitted offset)) with
  | none =>
    rw [List.argmin_eq_none, List.map_eq_nil_iff] at hbest
    cases completeness <;> simp [offsets] at hbest
  | some best =>
    obtain ⟨offset, diffs⟩ := best
    obtain ⟨at_, hat, heq⟩ := List.mem_map.mp (List.argmin_mem hbest)
    obtain ⟨rfl, rfl⟩ := Prod.mk.inj heq
    dsimp only
    rw [List.append_right_eq_self, List.map_eq_nil_iff]
    constructor
    · exact fun h => ⟨_, hat, h⟩
    · -- an alignment without a difference leaves none to the best one
      rintro ⟨other, hother, hnone⟩
      have hle := List.le_of_mem_argmin (List.mem_map.mpr ⟨other, hother, rfl⟩) hbest
      simpa [hnone] using hle

/-- A complete sequence passes exactly when it matches element by element. -/
lemma compareSequence_complete :
    compareSequence lib seq declared emitted .complete failures = failures ↔
      MatchesAll lib emitted declared := by
  rw [compareSequence_eq_iff]
  constructor
  · rintro ⟨-, hlength, offset, hoffset, hnone⟩
    obtain rfl : offset = 0 := by simpa [offsets] using hoffset
    rw [alignDiffs_eq_nil (by rw [hlength rfl, Nat.zero_add]), hlength rfl] at hnone
    simpa using hnone
  · intro h
    have hlength := h.length_eq
    refine ⟨hlength.le, fun _ => hlength, 0, by simp [offsets], ?_⟩
    rw [alignDiffs_eq_nil (by rw [hlength, Nat.zero_add]), hlength]
    simpa using h

/-- One that may have been cut short passes exactly when it matches a contiguous slice.

**Proof sketch.** The alignments are those at which the emitted entries lie within the declared
ones; one of them has no difference exactly when the declared entries from there on match, one by
one. -/
lemma compareSequence_truncated :
    compareSequence lib seq declared emitted .truncated failures = failures ↔
      ∃ before slice after, declared = before ++ slice ++ after ∧ MatchesAll lib emitted slice := by
  rw [compareSequence_eq_iff]
  constructor
  · rintro ⟨hle, -, offset, hoffset, hnone⟩
    have hin : offset + emitted.length ≤ declared.length := by
      have hlt : offset < declared.length - emitted.length + 1 := by simpa [offsets] using hoffset
      omega
    rw [alignDiffs_eq_nil hin] at hnone
    refine ⟨declared.take offset, _, (declared.drop offset).drop emitted.length, ?_, hnone⟩
    rw [List.append_assoc, List.take_append_drop, List.take_append_drop]
  · rintro ⟨before, slice, after, rfl, h⟩
    have hlength := h.length_eq
    have hin : before.length + emitted.length ≤ (before ++ slice ++ after).length := by
      simp only [List.length_append]
      omega
    refine ⟨by omega, nofun, before.length, ?_, ?_⟩
    · simp only [offsets, List.mem_range]
      omega
    · rw [alignDiffs_eq_nil hin, List.append_assoc, List.drop_left, hlength, List.take_left]
      exact h

/-- Where no value matches two different declared entries, a sequence tells what it matches. -/
lemma MatchesAll.unique {ds : List Json}
    (hapart : ∀ o, ∀ d ∈ declared, ∀ d' ∈ declared, Matches lib o d → Matches lib o d' → d = d')
    (h : MatchesAll lib emitted declared) (hds : ∀ d ∈ ds, d ∈ declared)
    (h' : MatchesAll lib emitted ds) : ds = declared := by
  refine List.ext_getElem (h'.length_eq.symm.trans h.length_eq) fun i hi hi' => ?_
  have hin : i < emitted.length := h.length_eq ▸ hi'
  have hmatch : Matches lib emitted[i].json declared[i] := h.get hin hi'
  have hmatch' : Matches lib emitted[i].json ds[i] := h'.get hin hi
  exact hapart _ _ (hds _ (List.getElem_mem hi)) _ (List.getElem_mem hi') hmatch' hmatch

end Compare

/-- **What comparing sequences decides.** For all declared entries and emitted observations:

1. In complete mode no failure is added exactly when the two sequences have the same length and
   match element by element.
2. In truncated mode, exactly when the emitted sequence matches, element by element, some
   contiguous slice of the declared one.
3. An emitted sequence longer than the declared one passes in neither mode.
4. Where no observation matches two different declared entries, the declared entries that a
   sequence which passes in complete mode matches, one for each observation, are the declared
   sequence itself, in its order.
5. Where no observation matches the declared entries at two positions, such a sequence has its
   observations at the very positions of the entries they match, and none of them twice.

**Proof sketch.** The comparator finds no difference exactly where an observation matches an
entry, by induction on the entry. The best alignment has no difference exactly if one has none. -/
theorem compare_sequence_decides (lib : Library) (seq : SequenceRef) (declared : List Json)
    (emitted : List Entry) (failures : List Failure) :
    (compareSequence lib seq declared emitted .complete failures = failures ↔
        emitted.length = declared.length ∧ ∀ (i : ℕ) o d, (emitted.map Entry.json)[i]? = some o →
          declared[i]? = some d → Matches lib o d) ∧
      (compareSequence lib seq declared emitted .truncated failures = failures ↔
        ∃ before slice after, declared = before ++ slice ++ after ∧
          emitted.length = slice.length ∧ ∀ (i : ℕ) o d, (emitted.map Entry.json)[i]? = some o →
            slice[i]? = some d → Matches lib o d) ∧
      (declared.length < emitted.length → ∀ completeness,
        compareSequence lib seq declared emitted completeness failures ≠ failures) ∧
      ((∀ o, ∀ d ∈ declared, ∀ d' ∈ declared, Matches lib o d → Matches lib o d' → d = d') →
        compareSequence lib seq declared emitted .complete failures = failures →
        ∀ ds : List Json, (∀ d ∈ ds, d ∈ declared) → MatchesAll lib emitted ds → ds = declared) ∧
      ((∀ o (i j : ℕ) d d', declared[i]? = some d → declared[j]? = some d' → Matches lib o d →
          Matches lib o d' → i = j) →
        compareSequence lib seq declared emitted .complete failures = failures →
        (emitted.map Entry.json).Nodup ∧ ∀ (i j : ℕ) o d, (emitted.map Entry.json)[i]? = some o →
          declared[j]? = some d → (Matches lib o d ↔ i = j)) := by
  have hall (ds : List Json) : MatchesAll lib emitted ds ↔ emitted.length = ds.length ∧
      ∀ (i : ℕ) o d, (emitted.map Entry.json)[i]? = some o → ds[i]? = some d → Matches lib o d := by
    rw [MatchesAll, List.forall₂_iff_get]
    refine and_congr_right fun hlength => ⟨fun h i o d ho hd => ?_, fun h i hi hi' => ?_⟩
    · rw [List.getElem?_map, Option.map_eq_some_iff] at ho
      obtain ⟨entry, hentry, rfl⟩ := ho
      obtain ⟨hi, rfl⟩ := List.getElem?_eq_some_iff.mp hentry
      obtain ⟨hi', rfl⟩ := List.getElem?_eq_some_iff.mp hd
      exact h i hi hi'
    · refine h i _ _ ?_ (List.getElem?_eq_getElem hi')
      rw [List.getElem?_map, List.getElem?_eq_getElem hi]
      rfl
  refine ⟨compareSequence_complete.trans (hall declared), ?_, fun hlong completeness h => ?_,
    fun hapart h ds hds hmatch => ?_, fun hapart h => ?_⟩
  · simp only [compareSequence_truncated, hall]
  · exact absurd hlong (not_lt.mpr (compareSequence_eq_iff.mp h).1)
  · exact MatchesAll.unique hapart (compareSequence_complete.mp h) hds hmatch
  · obtain ⟨hlength, hat⟩ := (hall declared).mp (compareSequence_complete.mp h)
    have hposition {i j : ℕ} {o d : Json} (ho : (emitted.map Entry.json)[i]? = some o)
        (hd : declared[j]? = some d) : Matches lib o d ↔ i = j := by
      have hi : i < declared.length := by
        have hlt := (List.getElem?_eq_some_iff.mp ho).1
        rwa [List.length_map, hlength] at hlt
      have hown := hat i o declared[i] ho (List.getElem?_eq_getElem hi)
      constructor
      · exact fun hmatch => hapart o i j _ d (List.getElem?_eq_getElem hi) hd hown hmatch
      · rintro rfl
        exact hat i o d ho hd
    refine ⟨List.nodup_iff_injective_get.mpr fun i j heq => ?_, fun i j o d => hposition⟩
    -- two equal observations match the same entry
    have hj : (j : ℕ) < declared.length := by
      have hlt := j.isLt
      simpa [hlength] using hlt
    have hlast := hat j _ declared[j] (List.getElem?_eq_getElem j.isLt)
      (List.getElem?_eq_getElem hj)
    have hfirst : (emitted.map Entry.json)[(i : ℕ)]? =
        some (emitted.map Entry.json)[(j : ℕ)] := by
      rw [List.getElem?_eq_getElem i.isLt]
      exact congrArg some heq
    exact Fin.ext ((hposition hfirst (List.getElem?_eq_getElem hj)).mp hlast)

end Sumer.Conformance
