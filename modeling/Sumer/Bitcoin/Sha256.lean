import Mathlib.Data.List.Basic
import Sumer.Wire.Rfc3339

set_option relaxedAutoImplicit false
set_option autoImplicit false

/-!
# The fingerprint of an address set

The hash that stands in a cache file for the addresses of a wallet: SHA-256, as
`adapters/bitcoin/src/wallet.rs` writes it out. Words are `BitVec 32`, whose addition wraps as
`wrapping_add` does, and a message is a list of bytes. The wallet file and the cache take the hash
as a parameter; the runs that are evaluated take this one.

## Main definitions

* `Sumer.Bitcoin.padded`: a message, filled up to blocks of 64 bytes.
* `Sumer.Bitcoin.compress`: what one block does to the eight words of the state.
* `Sumer.Bitcoin.sha256Hex`: the hash, in lowercase hexadecimal digits.

## Main results

* `Sumer.Bitcoin.length_padded_mod`: the padding fills the last block.
* `Sumer.Bitcoin.length_schedule`: every round has its word.
* `Sumer.Bitcoin.length_sha256Hex`: every hash has 64 digits.
-/

namespace Sumer.Bitcoin

open Sumer.Wire

/-- The constants of the 64 rounds. -/
def SHA256_K : List (BitVec 32) :=
  [0x428a2f98, 0x71374491, 0xb5c0fbcf, 0xe9b5dba5, 0x3956c25b, 0x59f111f1,
   0x923f82a4, 0xab1c5ed5, 0xd807aa98, 0x12835b01, 0x243185be, 0x550c7dc3,
   0x72be5d74, 0x80deb1fe, 0x9bdc06a7, 0xc19bf174, 0xe49b69c1, 0xefbe4786,
   0x0fc19dc6, 0x240ca1cc, 0x2de92c6f, 0x4a7484aa, 0x5cb0a9dc, 0x76f988da,
   0x983e5152, 0xa831c66d, 0xb00327c8, 0xbf597fc7, 0xc6e00bf3, 0xd5a79147,
   0x06ca6351, 0x14292967, 0x27b70a85, 0x2e1b2138, 0x4d2c6dfc, 0x53380d13,
   0x650a7354, 0x766a0abb, 0x81c2c92e, 0x92722c85, 0xa2bfe8a1, 0xa81a664b,
   0xc24b8b70, 0xc76c51a3, 0xd192e819, 0xd6990624, 0xf40e3585, 0x106aa070,
   0x19a4c116, 0x1e376c08, 0x2748774c, 0x34b0bcb5, 0x391c0cb3, 0x4ed8aa4a,
   0x5b9cca4f, 0x682e6ff3, 0x748f82ee, 0x78a5636f, 0x84c87814, 0x8cc70208,
   0x90befffa, 0xa4506ceb, 0xbef9a3f7, 0xc67178f2]

/-- The eight words that a block changes. -/
structure Hashing where
  a : BitVec 32
  b : BitVec 32
  c : BitVec 32
  d : BitVec 32
  e : BitVec 32
  f : BitVec 32
  g : BitVec 32
  hh : BitVec 32

/-- The words before the first block. -/
def Hashing.start : Hashing :=
  ⟨0x6a09e667, 0xbb67ae85, 0x3c6ef372, 0xa54ff53a, 0x510e527f, 0x9b05688c, 0x1f83d9ab, 0x5be0cd19⟩

/-- The bytes of a number below `2 ^ 64`, the highest one first. -/
def beBytes (n : ℕ) : List UInt8 :=
  (List.range 8).map fun i => UInt8.ofNat (n / 256 ^ (7 - i) % 256)

/-- A message, filled up to blocks of 64 bytes: a bit, as many zeros as leave eight bytes of the
last block, and the length in bits, which wraps as a `u64` does. -/
def padded (msg : List UInt8) : List UInt8 :=
  msg ++ 0x80 :: List.replicate ((119 - msg.length % 64) % 64) 0 ++
    beBytes (msg.length * 8 % 2 ^ 64)

/-- `as_chunks`: the chunks of `n` elements, without what is left over. -/
def asChunks (n : ℕ) (bytes : List UInt8) : List (List UInt8) :=
  (List.range (bytes.length / n)).map fun i => (bytes.drop (i * n)).take n

/-- A word of four bytes, the highest one first. -/
def wordOf (bytes : List UInt8) : BitVec 32 :=
  BitVec.ofNat 32 (bytes.foldl (fun n byte => n * 256 + byte.toNat) 0)

/-- The word of round `i`, after those of the rounds before it. -/
def nextWord (w : List (BitVec 32)) (i : ℕ) : BitVec 32 :=
  let w15 := w.getD (i - 15) 0
  let w2 := w.getD (i - 2) 0
  let s0 := w15.rotateRight 7 ^^^ w15.rotateRight 18 ^^^ (w15 >>> 3)
  let s1 := w2.rotateRight 17 ^^^ w2.rotateRight 19 ^^^ (w2 >>> 10)
  w.getD (i - 16) 0 + s0 + w.getD (i - 7) 0 + s1

/-- The words of the rounds: those of the block, and 48 that are made of the ones before them. -/
def schedule (block : List UInt8) : List (BitVec 32) :=
  (List.range' 16 48).foldl (fun w i => w ++ [nextWord w i]) ((asChunks 4 block).map wordOf)

/-- One round, with its constant and its word. -/
def round (s : Hashing) (x : BitVec 32 × BitVec 32) : Hashing :=
  let s1 := s.e.rotateRight 6 ^^^ s.e.rotateRight 11 ^^^ s.e.rotateRight 25
  let ch := (s.e &&& s.f) ^^^ (~~~s.e &&& s.g)
  let t1 := s.hh + s1 + ch + x.1 + x.2
  let s0 := s.a.rotateRight 2 ^^^ s.a.rotateRight 13 ^^^ s.a.rotateRight 22
  let maj := (s.a &&& s.b) ^^^ (s.a &&& s.c) ^^^ (s.b &&& s.c)
  let t2 := s0 + maj
  ⟨t1 + t2, s.a, s.b, s.c, s.d + t1, s.e, s.f, s.g⟩

/-- What one block does: 64 rounds, added to the words before them. -/
def compress (h : Hashing) (block : List UInt8) : Hashing :=
  let s := (SHA256_K.zip (schedule block)).foldl round h
  ⟨h.a + s.a, h.b + s.b, h.c + s.c, h.d + s.d, h.e + s.e, h.f + s.f, h.g + s.g, h.hh + s.hh⟩

/-- The eight hexadecimal digits of a word. -/
def hexWord (word : BitVec 32) : List Char :=
  (List.range 8).map fun i => Nat.digitChar (word.toNat / 16 ^ (7 - i) % 16)

/-- `sha256_hex`: SHA-256, hex-encoded lowercase. -/
def sha256Hex (msg : List UInt8) : String :=
  let h := (asChunks 64 (padded msg)).foldl compress Hashing.start
  String.ofList ([h.a, h.b, h.c, h.d, h.e, h.f, h.g, h.hh].flatMap hexWord)

section Sha256

/-- **The padding fills the last block**: whatever the length of a message, the loop over blocks of
64 bytes leaves nothing over. -/
lemma length_padded_mod (msg : List UInt8) : (padded msg).length % 64 = 0 := by
  have hlength : (padded msg).length =
      msg.length + (1 + (119 - msg.length % 64) % 64) + 8 := by
    simp [padded, beBytes]
    omega
  rw [hlength]
  omega

/-- The loop that makes the words of the rounds makes one in each turn. -/
lemma length_foldl_nextWord (rounds : List ℕ) (w : List (BitVec 32)) :
    (rounds.foldl (fun w i => w ++ [nextWord w i]) w).length = w.length + rounds.length := by
  induction rounds generalizing w with
  | nil => rfl
  | cons i rounds ih =>
    rw [List.foldl_cons, ih, List.length_append, List.length_singleton, List.length_cons]
    omega

/-- A chunk has the size that was asked for: the ones that are not full are left out. -/
lemma length_of_mem_asChunks {n : ℕ} {bytes chunk : List UInt8} (h : chunk ∈ asChunks n bytes) :
    chunk.length = n := by
  obtain ⟨i, hi, rfl⟩ := List.mem_map.mp h
  have hbound : (i + 1) * n ≤ bytes.length :=
    (Nat.mul_le_mul_right n (Nat.succ_le_of_lt (List.mem_range.mp hi))).trans
      (Nat.div_mul_le_self _ _)
  rw [Nat.succ_mul] at hbound
  rw [List.length_take, List.length_drop]
  omega

/-- **Every round has its word**: a block of the message is sixteen words, and the loop adds one for
each round after them, so no round runs past the end of the schedule. -/
lemma length_schedule {msg block : List UInt8} (h : block ∈ asChunks 64 (padded msg)) :
    (schedule block).length = SHA256_K.length := by
  rw [schedule, length_foldl_nextWord, List.length_map, asChunks, List.length_map,
    List.length_range, length_of_mem_asChunks h]
  rfl

/-- **Every hash has 64 digits**, eight for each of the eight words of the state. -/
lemma length_sha256Hex (msg : List UInt8) : (sha256Hex msg).toList.length = 64 := by
  have hword (word : BitVec 32) : (hexWord word).length = 8 := by simp [hexWord]
  simp [sha256Hex, hword]

end Sha256

set_option maxRecDepth 4000 in
/-- The published vector of the empty message. -/
example : sha256Hex [] = "e3b0c44298fc1c149afbf4c8996fb92427ae41e4649b934ca495991b7852b855" := by
  decide +kernel

set_option maxRecDepth 4000 in
/-- The published vector of three letters. -/
example : sha256Hex (asBytes "abc") =
    "ba7816bf8f01cfea414140de5dae2223b00361a396177a9cb410ff61f20015ad" := by
  decide +kernel

end Sumer.Bitcoin
