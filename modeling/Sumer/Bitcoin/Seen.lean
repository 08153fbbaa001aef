import Sumer.Bitcoin.Paging

set_option relaxedAutoImplicit false
set_option autoImplicit false

/-!
# The balance cache

One file a resource under the state directory (`adapters/bitcoin/src/seen.rs`): the figures that the
last successful balance read observed, and when. A file is what is read of it: its members, or
nothing at all. A write leaves the whole new file or the one before it.

## Main definitions

* `Sumer.Bitcoin.SeenFile`: what a file holds.
* `Sumer.Bitcoin.Store.load`, `Sumer.Bitcoin.Store.saveBalances`: reading and writing the cache.
* `Sumer.Bitcoin.Passes`: the checks that a file passes.

## Main results

* `Sumer.Bitcoin.Store.load_saveBalances`: what was saved is loaded, for every `i128`.
* `Sumer.Bitcoin.Store.load_eq_default`: a file that fails a check gives no figure.
-/

namespace Sumer.Bitcoin

open Sumer.Wire Sumer.Money

/-- The integers of `i128`. -/
abbrev I128 := {n : ℤ // -(2 ^ 127) ≤ n ∧ n < 2 ^ 127}

/-- `str::parse::<i128>`: digits, with an optional sign before them. -/
def parseI128 (s : String) : Option I128 :=
  let negative := s.toList.head? = some '-'
  let digits := if negative ∨ s.toList.head? = some '+' then s.toList.tail else s.toList
  if digits.isEmpty || !digits.all Char.isDigit then none
  else
    let magnitude : ℤ := Nat.ofDigitChars 10 digits 0
    let value := if negative then -magnitude else magnitude
    if h : -(2 ^ 127) ≤ value ∧ value < 2 ^ 127 then some ⟨value, h⟩ else none

/-- The text of an `i128`. -/
def I128.text (n : I128) : String := toString n.val

/-- What the previous successful balance read left behind. -/
structure Seen where
  balancesAsOf : Option Rfc3339
  confirmed : Option I128
  unconfirmed : Option I128
deriving DecidableEq

/-- A first run. -/
def Seen.default : Seen := ⟨none, none, none⟩

/-- The on-disk shape changes with this number. -/
def SCHEMA : ℕ := 3

/-- The figures of a file, as texts. -/
structure BalancesFile where
  asOf : Option String
  confirmed : Option String
  unconfirmed : Option String

/-- The on-disk shape. -/
structure SeenFile where
  schema : ℕ
  addressSetSha256 : String
  balances : BalancesFile

/-- A file of the state directory, as it is read. -/
inductive Content where
  | unreadable
  | seen (file : SeenFile)

/-- The state directory. -/
abbrev Dir := String → Option Content

/-- Where per-resource state lives, if anywhere. -/
structure Store where
  keeps : Bool

/-- `Store::path`, below the state directory. -/
def seenPath (resourceId : String) : String := resourceId ++ ".json"

/-- The file at a path, if it is a state file for this wallet. -/
def readFile (dir : Dir) (path addressHash : String) : Option SeenFile :=
  match dir path with
  | none => none
  | some .unreadable => none
  | some (.seen file) =>
    if file.schema ≠ SCHEMA then none
    else if file.addressSetSha256 ≠ addressHash then none
    else some file

/-- A recorded balance. -/
def parseBalance : Option String → Option (Option I128)
  | none => some none
  | some s => (parseI128 s).map some

/-- When the recorded balances were observed. -/
def parseAsOf : Option String → Option (Option Rfc3339)
  | none => some none
  | some s => ((Rfc3339.new s).toOption).map some

/-- The on-disk shape as this adapter uses it. -/
def decode (file : SeenFile) : Option Seen :=
  match parseAsOf file.balances.asOf with
  | none => none
  | some balancesAsOf =>
    match parseBalance file.balances.confirmed, parseBalance file.balances.unconfirmed with
    | some confirmed, some unconfirmed => some ⟨balancesAsOf, confirmed, unconfirmed⟩
    | _, _ => none

/-- `Store::load`: the cached balances of a resource, degrading to a first run on any doubt. -/
def Store.load (store : Store) (dir : Dir) (resourceId addressHash : String) : Seen :=
  if store.keeps then
    match readFile dir (seenPath resourceId) addressHash with
    | none => Seen.default
    | some file => (decode file).getD Seen.default
  else Seen.default

/-- The file that records two balances. -/
def seenFile (addressHash : String) (asOf : Rfc3339) (confirmed unconfirmed : Option I128) :
    SeenFile where
  schema := SCHEMA
  addressSetSha256 := addressHash
  balances := ⟨some asOf.text, confirmed.map I128.text, unconfirmed.map I128.text⟩

/-- `Store::save_balances`, when the file system lets it write, or not. -/
def Store.saveBalances (store : Store) (writes : Bool) (dir : Dir)
    (resourceId addressHash : String) (asOf : Rfc3339) (confirmed unconfirmed : Option I128) :
    Dir :=
  if store.keeps && writes then
    Function.update dir (seenPath resourceId)
      (some (.seen (seenFile addressHash asOf confirmed unconfirmed)))
  else dir

/-- **The checks that a file passes** before a figure is taken from it. -/
structure Passes (file : SeenFile) (addressHash : String) : Prop where
  schema : file.schema = SCHEMA
  addressSet : file.addressSetSha256 = addressHash
  asOf : ∀ s, file.balances.asOf = some s → ∃ t, Rfc3339.new s = .ok t
  confirmed : ∀ s, file.balances.confirmed = some s → ∃ n, parseI128 s = some n
  unconfirmed : ∀ s, file.balances.unconfirmed = some s → ∃ n, parseI128 s = some n

section Seen

/-- A text of digits with a sign or without.

**Proof sketch.** By the sign. A number that is not negative is written in digits and has no sign to
take off; a negative one is a dash and digits. The digits are read back as the value they were
written from, which is in range since it came from an `I128`. -/
lemma parseI128_text (n : I128) : parseI128 n.text = some n := by
  obtain ⟨n, hlow, hhigh⟩ := n
  have hdigits (m : ℕ) : (Nat.toDigits 10 m).all Char.isDigit = true :=
    List.all_eq_true.mpr fun ch hch => Nat.isDigit_of_mem_toDigits (by decide) (by decide) hch
  have hnonempty (m : ℕ) : (Nat.toDigits 10 m).isEmpty = false := by
    rw [List.isEmpty_eq_false_iff, ← List.length_pos_iff]
    exact Nat.length_toDigits_pos
  have hvalue (m : ℕ) : Nat.ofDigitChars 10 (Nat.toDigits 10 m) 0 = m := by
    simp
  have hhead (m : ℕ) (ch : Char) (hch : ch.isDigit = false) :
      (Nat.toDigits 10 m).head? ≠ some ch := by
    intro h
    have hmem := List.all_eq_true.mp (hdigits m) ch (List.mem_of_mem_head? h)
    rw [hch] at hmem
    cases hmem
  unfold parseI128 I128.text
  cases n with
  | ofNat m =>
    have htext : (toString (Int.ofNat m)).toList = Nat.toDigits 10 m := by
      show (Nat.repr m).toList = _
      rw [Nat.repr_eq_ofList_toDigits, String.toList_ofList]
    simp only [htext, hhead m '-' rfl, hhead m '+' rfl, or_self, if_false, hdigits, hnonempty,
      hvalue, Bool.not_true, Bool.or_self, Bool.false_eq_true]
    exact dif_pos ⟨hlow, hhigh⟩
  | negSucc m =>
    have htext : (toString (Int.negSucc m)).toList = '-' :: Nat.toDigits 10 (m + 1) := by
      show ("-" ++ Nat.repr (m + 1)).toList = _
      rw [Nat.repr_eq_ofList_toDigits, String.toList_append, String.toList_ofList,
        String.toList_ofList]
      rfl
    simp only [htext, List.head?_cons, true_or, if_true, List.tail_cons, hdigits, hnonempty,
      hvalue, Bool.not_true, Bool.or_self, Bool.false_eq_true, if_false]
    exact dif_pos ⟨hlow, hhigh⟩

/-- The figures of a file that records them. -/
lemma decode_seenFile (addressHash : String) (asOf : Rfc3339)
    (confirmed unconfirmed : Option I128) :
    decode (seenFile addressHash asOf confirmed unconfirmed) =
      some ⟨some asOf, confirmed, unconfirmed⟩ := by
  have hbalance (n : Option I128) : parseBalance (n.map I128.text) = some n := by
    cases n with
    | none => rfl
    | some n => simp only [Option.map_some, parseBalance, parseI128_text]
  simp [decode, seenFile, parseAsOf, Rfc3339.new_text, hbalance, Except.toOption]

/-- A file that fails a check has no figure. -/
lemma decode_isSome_iff {file : SeenFile} :
    (decode file).isSome = true ↔
      (∀ s, file.balances.asOf = some s → ∃ t, Rfc3339.new s = .ok t) ∧
      (∀ s, file.balances.confirmed = some s → ∃ n, parseI128 s = some n) ∧
      ∀ s, file.balances.unconfirmed = some s → ∃ n, parseI128 s = some n := by
  have hbalance (text : Option String) :
      (∃ n, parseBalance text = some n) ↔ ∀ s, text = some s → ∃ n, parseI128 s = some n := by
    cases text with
    | none => simp [parseBalance]
    | some s => simp [parseBalance, Option.map_eq_some_iff]
  have hasOf (text : Option String) :
      (∃ t, parseAsOf text = some t) ↔ ∀ s, text = some s → ∃ t, Rfc3339.new s = .ok t := by
    cases text with
    | none => simp [parseAsOf]
    | some s => cases hnew : Rfc3339.new s <;> simp [parseAsOf, hnew, Except.toOption]
  rw [← hasOf, ← hbalance, ← hbalance]
  unfold decode
  cases parseAsOf file.balances.asOf <;> cases parseBalance file.balances.confirmed <;>
    cases parseBalance file.balances.unconfirmed <;> simp

end Seen

namespace Store

variable {store : Store} {dir : Dir} {resourceId addressHash : String}

/-- **What was saved is loaded**, by a store that keeps its state and was let write. -/
lemma load_saveBalances (hkeeps : store.keeps = true) (asOf : Rfc3339)
    (confirmed unconfirmed : Option I128) :
    store.load (store.saveBalances true dir resourceId addressHash asOf confirmed unconfirmed)
      resourceId addressHash = ⟨some asOf, confirmed, unconfirmed⟩ := by
  have hfile : readFile (store.saveBalances true dir resourceId addressHash asOf confirmed
      unconfirmed) (seenPath resourceId) addressHash =
        some (seenFile addressHash asOf confirmed unconfirmed) := by
    simp [readFile, saveBalances, hkeeps, seenFile]
  rw [load, if_pos hkeeps, hfile]
  simp [decode_seenFile]

/-- **A file that fails a check gives no figure.**

**Proof sketch.** A file is missing, is no file of figures, or fails one of the checks in turn; in
each case there is nothing to load. -/
lemma load_eq_default (hfails : ∀ file, dir (seenPath resourceId) = some (.seen file) →
    ¬ Passes file addressHash) : store.load dir resourceId addressHash = Seen.default := by
  unfold load
  split_ifs
  · unfold readFile
    cases hcontent : dir (seenPath resourceId) with
    | none => rfl
    | some content =>
      cases content with
      | unreadable => rfl
      | seen file =>
        simp only
        split_ifs with hschema hhash
        · rfl
        · rfl
        cases hdecode : decode file with
        | none => simp only [hdecode, Option.getD_none]
        | some seen =>
          obtain ⟨hasOf, hconfirmed, hunconfirmed⟩ := decode_isSome_iff.mp (by rw [hdecode]; rfl)
          exact absurd ⟨not_not.mp hschema, not_not.mp hhash, hasOf, hconfirmed, hunconfirmed⟩
            (hfails file hcontent)
  · rfl

end Store

end Sumer.Bitcoin
