import Mathlib.Data.List.Sort
import Sumer.Bitcoin.Wallet

set_option relaxedAutoImplicit false
set_option autoImplicit false

/-!
# The wallet file

The validation of the wallet file (`adapters/bitcoin/src/wallet.rs`), from its decoded form on. The
hash of an address set, and the debug text of a string, are parameters.

## Main definitions

* `Sumer.Bitcoin.load`: the wallets of a file, or why it is refused.

## Main results

* `Sumer.Bitcoin.load_spec`: what a wallet of an accepted file satisfies.
-/

namespace Sumer.Bitcoin

open Sumer.Wire

/-- A wallet as the file lists it. -/
structure WalletFile where
  resourceId : String
  addresses : List String

/-- A character of an address encoding. -/
def isAddressChar (ch : Char) : Bool :=
  ch.isDigit || ('a' ≤ ch && ch ≤ 'z') || ('A' ≤ ch && ch ≤ 'Z')

/-- What an address must satisfy: it becomes part of a request path. -/
def isAddress (s : String) : Bool :=
  10 ≤ (asBytes s).length && (asBytes s).length ≤ 100 && s.toList.all isAddressChar

/-- A set of texts, in order. -/
def sortedSet (texts : List String) : List String := texts.dedup.insertionSort (· ≤ ·)

/-- One wallet of the file, after those before it. -/
def checkWallet (sha256Hex : String → String) (debug : String → String) (before : List Wallet)
    (w : WalletFile) : Except String Wallet :=
  if h : isResourceId w.resourceId = true then
    if before.any (·.resourceId == w.resourceId) then
      .error ("resource_id " ++ debug w.resourceId ++ " appears twice")
    else if w.addresses.isEmpty then .error (w.resourceId ++ ": no addresses")
    else
      match w.addresses.find? fun a => !isAddress a with
      | some a =>
        .error (w.resourceId ++ ": address " ++ debug a ++
          " is not 10-100 ASCII alphanumeric bytes")
      | none =>
        let owned := sortedSet w.addresses
        if owned.length ≠ w.addresses.length then
          .error (w.resourceId ++
            ": the same address is listed twice, which would double-count the balance")
        else .ok ⟨w.resourceId, owned, sha256Hex ("\n".intercalate owned), h⟩
  else
    .error ("resource_id " ++ debug w.resourceId ++ ": must be 1-64 bytes of [A-Za-z0-9._-] and " ++
      "not \".\" or \"..\" (it names a file under --state-dir)")

/-- The wallets of the file, one after the other. -/
def loadWallets (sha256Hex : String → String) (debug : String → String) :
    List Wallet → List WalletFile → Except String (List Wallet)
  | out, [] => .ok out
  | out, w :: rest =>
    match checkWallet sha256Hex debug out w with
    | .error e => .error e
    | .ok wallet => loadWallets sha256Hex debug (out ++ [wallet]) rest

/-- `load`, from the decoded file on. -/
def load (sha256Hex : String → String) (debug : String → String) (path : String)
    (wallets : List WalletFile) : Except String (List Wallet) :=
  if wallets.isEmpty then .error (path ++ ": no wallets configured")
  else loadWallets sha256Hex debug [] wallets

/-- What a wallet of an accepted file satisfies. -/
structure Wallet.Loaded (sha256Hex : String → String) (w : Wallet) : Prop where
  nonempty : w.addresses ≠ []
  nodup : w.addresses.Nodup
  address : ∀ a ∈ w.addresses, isAddress a = true
  hash : w.addressHash = sha256Hex ("\n".intercalate w.addresses)

section Load

variable {sha256Hex debug : String → String}

/-- Sorting the texts of a set and dropping the ones that repeat neither loses nor adds a text. -/
@[simp]
lemma mem_sortedSet {texts : List String} {s : String} : s ∈ sortedSet texts ↔ s ∈ texts := by
  rw [sortedSet, List.mem_insertionSort, List.mem_dedup]

/-- A set has each of its texts once. -/
lemma nodup_sortedSet (texts : List String) : (sortedSet texts).Nodup :=
  (List.perm_insertionSort (· ≤ ·) _).nodup_iff.mpr (List.nodup_dedup texts)

/-- A wallet that is accepted from the file has checked addresses, and the hash that was taken of
these addresses. -/
lemma checkWallet_loaded {before : List Wallet} {file : WalletFile} {w : Wallet}
    (h : checkWallet sha256Hex debug before file = .ok w) : w.Loaded sha256Hex := by
  unfold checkWallet at h
  split_ifs at h with hid htwice hempty
  split at h
  · cases h
  rename_i hnone
  dsimp only at h
  split_ifs at h
  cases h
  refine ⟨fun hnil => hempty ?_, nodup_sortedSet _, fun a ha => ?_, rfl⟩
  · rw [List.isEmpty_iff]
    exact List.eq_nil_iff_forall_not_mem.mpr fun a ha =>
      List.eq_nil_iff_forall_not_mem.mp hnil a (mem_sortedSet.mpr ha)
  · simpa using List.find?_eq_none.mp hnone a (mem_sortedSet.mp ha)

/-- **What a wallet of an accepted file satisfies.**

**Proof sketch.** Induction on the wallets of the file: each is checked before it is added, so what
has been accepted satisfies the conditions all along. -/
lemma load_spec {path : String} {files : List WalletFile} {wallets : List Wallet}
    (h : load sha256Hex debug path files = .ok wallets) :
    ∀ w ∈ wallets, w.Loaded sha256Hex := by
  have hall (out : List Wallet) (files : List WalletFile)
      (hout : ∀ w ∈ out, w.Loaded sha256Hex) (wallets : List Wallet)
      (h : loadWallets sha256Hex debug out files = .ok wallets) :
      ∀ w ∈ wallets, w.Loaded sha256Hex := by
    induction files generalizing out with
    | nil =>
      cases h
      exact hout
    | cons file files ih =>
      rw [loadWallets] at h
      split at h
      · cases h
      rename_i w hw
      refine ih _ (fun w' hw' => ?_) h
      rcases List.mem_append.mp hw' with hw' | hw'
      · exact hout w' hw'
      · rw [List.mem_singleton.mp hw']
        exact checkWallet_loaded hw
  unfold load at h
  split_ifs at h
  exact hall [] files (fun w hw => absurd hw List.not_mem_nil) wallets h

end Load

end Sumer.Bitcoin
