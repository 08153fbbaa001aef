import Sumer.Money.Arithmetic
import Sumer.Wire.Json

set_option relaxedAutoImplicit false
set_option autoImplicit false

/-!
# Comparing with a fixture

The comparator of the conformance suite (`conformance/src/assert.rs`): every field that a fixture
names has to be present with an equal value, the fields it does not name are ignored, money is
compared as money, and the `provider_extra` of an observation is compared as a whole. A comparison
gives the list of the differences it found.

## Main definitions

* `Sumer.Conformance.jsonSubsetDiff`, `Sumer.Conformance.compareAmount`: the comparator.
* `Sumer.Conformance.diffObservation`: one observation against its declared entry.
* `Sumer.Conformance.Covers`, `Sumer.Conformance.Matches`: what they decide.

## Main results

* `Sumer.Conformance.jsonSubsetDiff_eq_nil`: no difference is found exactly between a value and
  one that covers it.
* `Sumer.Conformance.diffObservation_eq_nil`: nor exactly between an entry and an observation that
  matches it.
-/

namespace Sumer.Conformance

open Sumer.Wire Sumer.Money

/-- One failed assertion. -/
structure Failure where
  assertion : String
  message : String
  mechanism : Option String

/-- `Failure::new`. -/
def Failure.new (assertion message : String) : Failure := ⟨assertion, message, none⟩

/-- What the suite uses of third-party code here: the equality of the numbers of two JSON values,
by their texts, and the debug text of a list of texts. -/
structure Library where
  sameNumber : String → String → Bool
  debugTexts : List String → String

variable (lib : Library)

mutual

/-- The equality of two JSON values. -/
def same : Json → Json → Bool
  | .null, .null => true
  | .bool a, .bool b => a == b
  | .num a, .num b => lib.sameNumber a b
  | .str a, .str b => a == b
  | .arr items, .arr items' => sameItems items items'
  | .obj members, .obj members' => sameMembers members members'
  | _, _ => false

/-- The equality of the elements of two arrays. -/
def sameItems : List Json → List Json → Bool
  | [], [] => true
  | item :: rest, item' :: rest' => same item item' && sameItems rest rest'
  | _, _ => false

/-- The equality of the members of two objects, which are in key order. -/
def sameMembers : List (String × Json) → List (String × Json) → Bool
  | [], [] => true
  | (key, value) :: rest, (key', value') :: rest' =>
    key == key' && same value value' && sameMembers rest rest'
  | _, _ => false

end

/-- A value as an amount. -/
def parseAmountJson (v : Json) : Except String Amount :=
  match (Json.get v "asset").bind Json.asStr with
  | none => .error "missing \"asset\""
  | some asset =>
    match (Json.get v "amount").bind Json.asStr with
    | none => .error "missing \"amount\" string"
    | some amount =>
      match AssetId.new asset with
      | .error e => .error e.display
      | .ok asset =>
        match Amount.parse asset amount with
        | .error e => .error e.display
        | .ok a => .ok a

/-- The comparison of a field that is money. `null` says that it is unknown. -/
def compareAmount (actual expected : Json) (path : String) : List String :=
  match actual, expected with
  | .null, .null => []
  | .null, _ => [path ++ ": expected " ++ expected.text ++ ", got null (unknown)"]
  | _, .null => [path ++ ": expected null (unknown), got " ++ actual.text]
  | _, _ =>
    match parseAmountJson actual, parseAmountJson expected with
    | .ok a, .ok e =>
      match a.cmpSameAsset e with
      | .ok .eq => []
      | .ok _ =>
        [path ++ ": " ++ actual.text ++ " and " ++ expected.text ++
          " are not numerically equal (cmp_same_asset)"]
      | .error err =>
        [path ++ ": " ++ actual.text ++ " vs " ++ expected.text ++ ": " ++ err.display]
    | .error e, _ => [path ++ ": could not parse actual amount " ++ actual.text ++ ": " ++ e]
    | _, .error e => [path ++ ": could not parse expected amount " ++ expected.text ++ ": " ++ e]

/-- A field that is money. -/
def isMoney (key : String) : Bool := key == "amount" || key == "fees"

/-- The difference from a value that is neither an object nor an array. -/
def scalarDiff (actual expected : Json) (path : String) : List String :=
  if same lib actual expected then []
  else [path ++ ": expected " ++ expected.text ++ ", got " ++ actual.text]

mutual

/-- The differences of a value from an expected one: each field that is expected has to be present
with an equal value. -/
def jsonSubsetDiff (actual : Json) : Json → String → List String
  | .obj expMap, path =>
    match actual with
    | .obj actMap => membersDiff actMap expMap path
    | _ => [path ++ ": expected an object, actual was " ++ actual.text]
  | .arr expArr, path =>
    match actual with
    | .arr actArr =>
      if actArr.length ≠ expArr.length then
        [path ++ ": expected " ++ toString expArr.length ++ " element(s), got " ++
          toString actArr.length ++ " -- actual=" ++ actual.text]
      else itemsDiff actArr expArr 0 path
    | _ => [path ++ ": expected an array, actual was " ++ actual.text]
  | .null, path => scalarDiff lib actual .null path
  | .bool b, path => scalarDiff lib actual (.bool b) path
  | .num literal, path => scalarDiff lib actual (.num literal) path
  | .str s, path => scalarDiff lib actual (.str s) path

/-- The differences in the members that are expected of an object. -/
def membersDiff (actMap : List (String × Json)) : List (String × Json) → String → List String
  | [], _ => []
  | (k, expV) :: rest, path =>
    (match actMap.lookup k with
    | none => [path ++ "." ++ k ++ ": missing (expected " ++ expV.text ++ ")"]
    | some actV =>
      if isMoney k then compareAmount actV expV (path ++ "." ++ k)
      else jsonSubsetDiff actV expV (path ++ "." ++ k)) ++ membersDiff actMap rest path

/-- The differences in the elements of an array, from an index on. -/
def itemsDiff : List Json → List Json → ℕ → String → List String
  | actV :: rest, expV :: rest', i, path =>
    jsonSubsetDiff actV expV (path ++ "[" ++ toString i ++ "]") ++ itemsDiff rest rest' (i + 1) path
  | _, _, _, _ => []

end

/-- A value's text, cut to 240 characters if it is longer than as many bytes. -/
def brief (value : Json) : String :=
  if (asBytes value.text).length ≤ 240 then value.text
  else
    String.ofList (value.text.toList.take 240) ++ "... [" ++ toString (asBytes value.text).length ++
      " bytes total]"

/-- One observation against its declared entry: as far as the entry goes, except that
`provider_extra` has to be the same as a whole. -/
def diffObservation (actual expected : Json) (path : String) : List String :=
  match expected with
  | .obj members =>
    match members.lookup "provider_extra" with
    | some expectedExtra =>
      let actualExtra := (Json.get actual "provider_extra").getD .null
      (if same lib actualExtra expectedExtra then []
      else
        [path ++ ".provider_extra must be EXACTLY " ++ brief expectedExtra ++ ", got " ++
          brief actualExtra]) ++
        jsonSubsetDiff lib actual (.obj (members.filter (·.1 != "provider_extra"))) path
    | none => jsonSubsetDiff lib actual expected path
  | _ => jsonSubsetDiff lib actual expected path

/-! ### What the comparator decides -/

/-- Two values of a money field that are equal: both unknown, or amounts of one asset with the same
exact value. -/
def SameAmount (actual expected : Json) : Prop :=
  (actual = .null ∧ expected = .null) ∨
    ∃ a e, parseAmountJson actual = .ok a ∧ parseAmountJson expected = .ok e ∧ a.asset = e.asset ∧
      a.value = e.value

/-- A value that is neither an object nor an array. -/
def IsScalar : Json → Prop
  | .obj _ | .arr _ => False
  | _ => True

/-- A value covers an expected one: it has every field that is expected, with an equal value; its
arrays are as long; and what is neither object nor array is equal. -/
inductive Covers : Json → Json → Prop
  | obj (actual expected : List (String × Json))
      (present : ∀ k e, (k, e) ∈ expected → ∃ a, actual.lookup k = some a)
      (money : ∀ k e a, (k, e) ∈ expected → actual.lookup k = some a → isMoney k = true →
        SameAmount a e)
      (field : ∀ k e a, (k, e) ∈ expected → actual.lookup k = some a → isMoney k = false →
        Covers a e) :
      Covers (.obj actual) (.obj expected)
  | arr (actual expected : List Json) (length : actual.length = expected.length)
      (item : ∀ (i : ℕ) a e, actual[i]? = some a → expected[i]? = some e → Covers a e) :
      Covers (.arr actual) (.arr expected)
  | scalar (actual expected : Json) (isScalar : IsScalar expected)
      (equal : same lib actual expected = true) : Covers actual expected

/-- The declared fields of an observation but its `provider_extra`. -/
def withoutExtra : Json → Json
  | .obj members => .obj (members.filter (·.1 != "provider_extra"))
  | declared => declared

/-- **An observation matches a declared entry**: it covers every declared field but
`provider_extra`, and a `provider_extra` that is declared is the same as its own, where one that
is absent counts as null. -/
def Matches (observation declared : Json) : Prop :=
  Covers lib observation (withoutExtra declared) ∧
    ∀ extra, Json.get declared "provider_extra" = some extra →
      same lib ((Json.get observation "provider_extra").getD .null) extra = true

variable {lib}

/-- A null is not an amount: what it is told to miss is the asset. -/
lemma parseAmountJson_null : parseAmountJson .null = .error "missing \"asset\"" := rfl

/-- **Money is compared as money.**

**Proof sketch.** Two amounts that parse compare as equal exactly when they are of the same asset
and have the same value, which is what `cmpSameAsset` decides. Two nulls are the same; a null on one
side only, or a text that is no amount, adds a difference, and is no amount that the other could be
the same as. -/
lemma compareAmount_eq_nil {actual expected : Json} {path : String} :
    compareAmount actual expected path = [] ↔ SameAmount actual expected := by
  have hcmp {a e : Amount} :
      a.cmpSameAsset e = .ok .eq ↔ a.asset = e.asset ∧ a.value = e.value := by
    by_cases hasset : a.asset = e.asset
    · rw [Amount.cmpSameAsset_eq hasset, Except.ok.injEq, compare_eq_iff_eq]
      exact ⟨fun h => ⟨hasset, h⟩, fun h => h.2⟩
    · rw [Amount.cmpSameAsset, if_pos hasset]
      exact iff_of_false (by simp) fun h => hasset h.1
  unfold compareAmount
  split
  · simp [SameAmount]
  · rename_i hne
    simp only [List.cons_ne_nil, SameAmount, parseAmountJson_null, reduceCtorEq, true_and,
      false_and, exists_false, or_false, false_iff]
    exact hne
  · rename_i hne
    simp only [List.cons_ne_nil, SameAmount, parseAmountJson_null, reduceCtorEq, and_true,
      false_and, and_false, exists_false, or_false, false_iff]
    exact hne
  · rename_i hactual
    have hnull : ¬ (actual = .null ∧ expected = .null) := fun h => hactual h.1 h.2
    rw [SameAmount, or_iff_right hnull]
    cases ha : parseAmountJson actual with
    | error e => simp
    | ok a =>
      cases he : parseAmountJson expected with
      | error e => simp
      | ok e =>
        dsimp only
        simp only [Except.ok.injEq, exists_and_left, exists_eq_left', ← hcmp]
        split <;> simp_all

/-- An object is covered by an object that has each of its members, covered in turn, with amounts
compared as money; it may have more members.

**Proof sketch.** The two ways to build a cover of an object, as members and as a scalar, are taken
apart; an object is no scalar, and its members give the conditions. -/
lemma covers_obj_iff {actual : Json} {expected : List (String × Json)} :
    Covers lib actual (.obj expected) ↔ ∃ members, actual = .obj members ∧
      ∀ k e, (k, e) ∈ expected → ∃ a, members.lookup k = some a ∧
        (isMoney k = true → SameAmount a e) ∧ (isMoney k = false → Covers lib a e) := by
  constructor
  · intro h
    cases h with
    | obj members _ present money field =>
      refine ⟨members, rfl, fun k e hmem => ?_⟩
      obtain ⟨a, ha⟩ := present k e hmem
      exact ⟨a, ha, money k e a hmem ha, field k e a hmem ha⟩
    | scalar _ _ isScalar => exact isScalar.elim
  · rintro ⟨members, rfl, h⟩
    refine .obj members expected (fun k e hmem => ?_) (fun k e a hmem ha => ?_)
      fun k e a hmem ha => ?_
    · obtain ⟨a, ha, -⟩ := h k e hmem
      exact ⟨a, ha⟩
    · obtain ⟨a', ha', hmoney, -⟩ := h k e hmem
      obtain rfl := Option.some.inj (ha.symm.trans ha')
      exact hmoney
    · obtain ⟨a', ha', -, hfield⟩ := h k e hmem
      obtain rfl := Option.some.inj (ha.symm.trans ha')
      exact hfield

/-- An array is covered by an array of the same length, item by item. -/
lemma covers_arr_iff {actual : Json} {expected : List Json} :
    Covers lib actual (.arr expected) ↔
      ∃ items, actual = .arr items ∧ List.Forall₂ (Covers lib) items expected := by
  constructor
  · intro h
    cases h with
    | arr items _ length item =>
      refine ⟨items, rfl, List.forall₂_iff_get.mpr ⟨length, fun i hi hi' => ?_⟩⟩
      exact item i _ _ (List.getElem?_eq_getElem hi) (List.getElem?_eq_getElem hi')
    | scalar _ _ isScalar => exact isScalar.elim
  · rintro ⟨items, rfl, h⟩
    obtain ⟨length, hitem⟩ := List.forall₂_iff_get.mp h
    refine .arr items expected length fun i a e ha he => ?_
    obtain ⟨hi, rfl⟩ := List.getElem?_eq_some_iff.mp ha
    obtain ⟨hi', rfl⟩ := List.getElem?_eq_some_iff.mp he
    exact hitem i hi hi'

/-- What any other value is covered by. -/
lemma scalarDiff_eq_nil {actual expected : Json} {path : String} (hscalar : IsScalar expected) :
    scalarDiff lib actual expected path = [] ↔ Covers lib actual expected := by
  have hsame : Covers lib actual expected ↔ same lib actual expected = true := by
    refine ⟨fun h => ?_, fun h => .scalar _ _ hscalar h⟩
    cases h with
    | obj | arr => exact hscalar.elim
    | scalar _ _ _ equal => exact equal
  rw [hsame, scalarDiff]
  split_ifs with h <;> simp [h]

mutual

/-- **No difference is found exactly between a value and one that covers it.** -/
lemma jsonSubsetDiff_eq_nil (actual : Json) (path : String) : ∀ expected : Json,
    jsonSubsetDiff lib actual expected path = [] ↔ Covers lib actual expected
  | .obj expected => by
    rw [covers_obj_iff]
    cases actual with
    | obj members =>
      rw [jsonSubsetDiff, membersDiff_eq_nil members path expected]
      simp only [Json.obj.injEq, exists_eq_left']
    | _ => simp [jsonSubsetDiff]
  | .arr expected => by
    rw [covers_arr_iff]
    cases actual with
    | arr items =>
      simp only [jsonSubsetDiff, Json.arr.injEq, exists_eq_left']
      split_ifs with hlength
      · simp only [false_iff]
        exact fun h => hlength h.length_eq
      · exact itemsDiff_eq_nil items 0 path expected (not_not.mp hlength)
    | _ => simp [jsonSubsetDiff]
  | .null => scalarDiff_eq_nil trivial
  | .bool _ => scalarDiff_eq_nil trivial
  | .num _ => scalarDiff_eq_nil trivial
  | .str _ => scalarDiff_eq_nil trivial

/-- No difference is found in the members exactly if each is present with an equal value. -/
lemma membersDiff_eq_nil (members : List (String × Json)) (path : String) :
    ∀ expected : List (String × Json), membersDiff lib members expected path = [] ↔
      ∀ k e, (k, e) ∈ expected → ∃ a, members.lookup k = some a ∧
        (isMoney k = true → SameAmount a e) ∧ (isMoney k = false → Covers lib a e)
  | [] => by simp [membersDiff]
  | (k, e) :: rest => by
    rw [membersDiff, List.append_eq_nil_iff, membersDiff_eq_nil members path rest]
    simp only [List.mem_cons, Prod.mk.injEq]
    have hfirst : (match members.lookup k with
        | none => [path ++ "." ++ k ++ ": missing (expected " ++ e.text ++ ")"]
        | some a =>
          if isMoney k then compareAmount a e (path ++ "." ++ k)
          else jsonSubsetDiff lib a e (path ++ "." ++ k)) = [] ↔
        ∃ a, members.lookup k = some a ∧ (isMoney k = true → SameAmount a e) ∧
          (isMoney k = false → Covers lib a e) := by
      cases hlookup : members.lookup k with
      | none => simp
      | some a =>
        dsimp only
        simp only [Option.some.injEq, exists_eq_left',
          ← jsonSubsetDiff_eq_nil a (path ++ "." ++ k) e]
        cases hmoney : isMoney k with
        | true => simp [compareAmount_eq_nil]
        | false => simp
    rw [hfirst]
    constructor
    · rintro ⟨h, hrest⟩ k' e' (⟨rfl, rfl⟩ | hmem)
      · exact h
      · exact hrest k' e' hmem
    · exact fun h => ⟨h k e (.inl ⟨rfl, rfl⟩), fun k' e' hmem => h k' e' (.inr hmem)⟩

/-- No difference is found in the elements exactly if each is covered. -/
lemma itemsDiff_eq_nil (items : List Json) (i : ℕ) (path : String) :
    ∀ expected : List Json, items.length = expected.length →
      (itemsDiff lib items expected i path = [] ↔ List.Forall₂ (Covers lib) items expected)
  | [], hlength => by
    obtain rfl := List.length_eq_zero_iff.mp hlength
    simp [itemsDiff]
  | e :: rest, hlength => by
    cases items with
    | nil => simp at hlength
    | cons a items =>
      rw [itemsDiff, List.append_eq_nil_iff, List.forall₂_cons,
        jsonSubsetDiff_eq_nil a (path ++ "[" ++ toString i ++ "]") e,
        itemsDiff_eq_nil items (i + 1) path rest (by simpa using hlength)]

end

/-- **No difference is found exactly between a declared entry and an observation that matches
it.**

**Proof sketch.** The declared entry is compared without its extra data, as a subset, and the extra
data, if there is any, exactly; no difference is found when both match. -/
lemma diffObservation_eq_nil {actual expected : Json} {path : String} :
    diffObservation lib actual expected path = [] ↔ Matches lib actual expected := by
  unfold diffObservation Matches
  cases expected with
  | obj members =>
    cases hextra : members.lookup "provider_extra" with
    | none =>
      have hfilter : members.filter (·.1 != "provider_extra") = members := by
        refine List.filter_eq_self.mpr fun m hm => ?_
        rw [bne_comm]
        simpa using List.lookup_eq_none_iff.mp hextra m hm
      simp [withoutExtra, Json.get, hextra, hfilter, jsonSubsetDiff_eq_nil]
    | some extra =>
      have hsame (b : Bool) (message : String) : (if b then [] else [message]) = [] ↔ b = true := by
        cases b <;> simp
      have hget : Json.get (.obj members) "provider_extra" = some extra := hextra
      rw [hget]
      simp only [withoutExtra, hextra, Option.some.injEq, forall_eq', List.append_eq_nil_iff,
        jsonSubsetDiff_eq_nil, hsame]
      exact and_comm
  | _ => simp [withoutExtra, Json.get, jsonSubsetDiff_eq_nil]

/-- Numbers that are the same text, and no debug texts. -/
private def plainLibrary : Library := ⟨fun a b => a == b, fun _ => ""⟩

example :
    diffObservation plainLibrary
      (.obj [("amount", .obj [("amount", .str "42.500"), ("asset", .str "USD")]),
        ("local_id", .str "a"), ("state", .str "posted")])
      (.obj [("amount", .obj [("amount", .str "42.50"), ("asset", .str "USD")]),
        ("local_id", .str "b")]) "[0]" = ["[0].local_id: expected \"b\", got \"a\""] := by
  decide +kernel

end Sumer.Conformance
