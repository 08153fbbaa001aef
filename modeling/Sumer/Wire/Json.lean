import Sumer.Wire.Observation

set_option relaxedAutoImplicit false
set_option autoImplicit false

/-!
# Serialized sizes

The JSON values that the wire types are serialized to, and the length of the compact text that
`serde_json` writes for a value: the byte counts that page budgets and frame limits are about. The
members of a struct are listed in field order. A reply that goes through a JSON value first has
them in key order, which is a text of the same length.

## Main definitions

* `Sumer.Wire.escapedSize`, `Sumer.Wire.textSize`: a string with its quotes and escapes.
* `Sumer.Wire.Json.size`: the length of a value's compact text.
* `Sumer.Wire.Json.text`: that text.
* `Sumer.Wire.ObservationWire.toJson`: an observation, as it is serialized.

## Main results

* `Sumer.Wire.Json.length_text`: the size is the length of the text.
-/

namespace Sumer.Wire

open Sumer.Money

/-- The bytes of one character of a string: quotes, backslashes and the five control characters
with a short escape take two, other control characters six. -/
def escapedSize (ch : Char) : ℕ :=
  if ch = '"' ∨ ch = '\\' then 2
  else if ch.toNat = 8 ∨ ch.toNat = 9 ∨ ch.toNat = 10 ∨ ch.toNat = 12 ∨ ch.toNat = 13 then 2
  else if ch.toNat < 32 then 6
  else ch.utf8Size

/-- The bytes of a string, between its quotes. -/
def textSize (s : String) : ℕ := (s.toList.map escapedSize).sum + 2

/-- An escaped character takes six bytes at most: `\u`, and four digits. -/
lemma escapedSize_le (ch : Char) : escapedSize ch ≤ 6 := by
  unfold escapedSize
  split_ifs
  · decide
  · decide
  · decide
  · exact ch.utf8Size_le_four.trans (by decide)

/-- A text takes six bytes for each of its characters, at most, and two for its quotes. -/
lemma textSize_le (s : String) : textSize s ≤ 6 * s.length + 2 := by
  have hsum := List.sum_le_card_nsmul (s.toList.map escapedSize) 6 (by simp [escapedSize_le])
  rw [List.length_map, String.length_toList, smul_eq_mul] at hsum
  rw [textSize]
  omega

/-- A text of one plain letter takes its length and two quotes. -/
lemma textSize_replicate (n : ℕ) : textSize (String.ofList (List.replicate n 'a')) = n + 2 := by
  have hone : escapedSize 'a' = 1 := by decide
  simp [textSize, hone]

mutual

/-- The length of the compact text of a value, in bytes. -/
def Json.size : Json → ℕ
  | .null => 4
  | .bool b => if b then 4 else 5
  | .num literal => (asBytes literal).length
  | .str s => textSize s
  | .arr items => itemsSize items + (items.length - 1) + 2
  | .obj members => membersSize members + (members.length - 1) + 2

/-- The elements of an array, without their commas. -/
def itemsSize : List Json → ℕ
  | [] => 0
  | item :: rest => item.size + itemsSize rest

/-- The members of an object, without their commas. -/
def membersSize : List (String × Json) → ℕ
  | [] => 0
  | (key, value) :: rest => textSize key + 1 + value.size + membersSize rest

end

/-- The members of two objects together take the bytes of both. -/
lemma membersSize_append (members more : List (String × Json)) :
    membersSize (members ++ more) = membersSize members + membersSize more := by
  induction members with
  | nil => simp [membersSize]
  | cons m members ih =>
    rw [List.cons_append, membersSize, membersSize, ih]
    omega

/-! ### The text of a value -/

/-- The characters of a string that `serde_json` writes for a character. -/
def escaped (ch : Char) : List Char :=
  if ch = '"' ∨ ch = '\\' then ['\\', ch]
  else if ch.toNat = 8 then ['\\', 'b']
  else if ch.toNat = 9 then ['\\', 't']
  else if ch.toNat = 10 then ['\\', 'n']
  else if ch.toNat = 12 then ['\\', 'f']
  else if ch.toNat = 13 then ['\\', 'r']
  else if ch.toNat < 32 then
    ['\\', 'u', '0', '0', Nat.digitChar (ch.toNat / 16), Nat.digitChar (ch.toNat % 16)]
  else [ch]

/-- `Value::get`: a member of a value, if that is an object and has it. -/
def Json.get (value : Json) (key : String) : Option Json :=
  match value with
  | .obj members => members.lookup key
  | _ => none

/-- `Value::as_str`: the text of a value, if that is a string. -/
def Json.asStr : Json → Option String
  | .str s => some s
  | _ => none

/-- A string between its quotes. -/
def quoted (s : String) : List Char := ['"'] ++ s.toList.flatMap escaped ++ ['"']

mutual

/-- The compact text of a value. -/
def Json.chars : Json → List Char
  | .null => "null".toList
  | .bool b => if b then "true".toList else "false".toList
  | .num literal => literal.toList
  | .str s => quoted s
  | .arr items => ['['] ++ itemsChars items ++ [']']
  | .obj members => ['\x7b'] ++ membersChars members ++ ['\x7d']

/-- The elements of an array, with their commas. -/
def itemsChars : List Json → List Char
  | [] => []
  | [item] => item.chars
  | item :: next :: rest => item.chars ++ [','] ++ itemsChars (next :: rest)

/-- The members of an object, with their commas. -/
def membersChars : List (String × Json) → List Char
  | [] => []
  | [(key, value)] => quoted key ++ [':'] ++ value.chars
  | (key, value) :: next :: rest =>
    quoted key ++ [':'] ++ value.chars ++ [','] ++ membersChars (next :: rest)

end

/-- The compact text of a value. -/
def Json.text (value : Json) : String := String.ofList value.chars

/-- The bytes of some characters. -/
def byteCount (chars : List Char) : ℕ := (chars.map Char.utf8Size).sum

/-- No character takes no byte. -/
@[simp] lemma byteCount_nil : byteCount [] = 0 := rfl

/-- The first character of a text takes its own bytes of UTF-8, and the rest takes what it takes
alone. -/
@[simp] lemma byteCount_cons (ch : Char) (chars : List Char) :
    byteCount (ch :: chars) = ch.utf8Size + byteCount chars := by simp [byteCount]

/-- UTF-8 is written one character at a time, so that the sizes of two texts add up. -/
@[simp] lemma byteCount_append (chars chars' : List Char) :
    byteCount (chars ++ chars') = byteCount chars + byteCount chars' := by simp [byteCount]

/-- The bytes of a text are those of its characters. -/
lemma length_asBytes (s : String) : (asBytes s).length = byteCount s.toList := by
  simp [asBytes, byteCount, List.length_flatMap]

/-- What a character takes in a string.

**Proof sketch.** By the kind of the character: a quote or a backslash, one of five with a short
escape, another control character, written as six characters, or one that is left as it is. -/
lemma byteCount_escaped (ch : Char) : byteCount (escaped ch) = escapedSize ch := by
  have hdigit {n : ℕ} (h : n < 16) : (Nat.digitChar n).utf8Size = 1 := by
    interval_cases n <;> rfl
  have hslash : ('\\' : Char).utf8Size = 1 := rfl
  unfold escaped escapedSize
  by_cases hquote : ch = '"' ∨ ch = '\\'
  · rw [if_pos hquote, if_pos hquote]
    rcases hquote with rfl | rfl <;> rfl
  rw [if_neg hquote, if_neg hquote]
  by_cases hshort : ch.toNat = 8 ∨ ch.toNat = 9 ∨ ch.toNat = 10 ∨ ch.toNat = 12 ∨ ch.toNat = 13
  · rw [if_pos hshort]
    rcases hshort with h | h | h | h | h <;> rw [h] <;> rfl
  · obtain ⟨h8, h9, h10, h12, h13⟩ : ch.toNat ≠ 8 ∧ ch.toNat ≠ 9 ∧ ch.toNat ≠ 10 ∧
        ch.toNat ≠ 12 ∧ ch.toNat ≠ 13 := by
      simpa only [not_or] using hshort
    rw [if_neg h8, if_neg h9, if_neg h10, if_neg h12, if_neg h13, if_neg hshort]
    split_ifs with hcontrol
    · have hhigh := hdigit (show ch.toNat / 16 < 16 by omega)
      have hlow := hdigit (show ch.toNat % 16 < 16 by omega)
      simp only [byteCount_cons, byteCount_nil, hslash, hhigh, hlow]
      rfl
    · simp

/-- The size of a text is the number of bytes of its quoted form. -/
@[simp]
lemma byteCount_quoted (s : String) : byteCount (quoted s) = textSize s := by
  have hchars (chars : List Char) :
      byteCount (chars.flatMap escaped) = (chars.map escapedSize).sum := by
    induction chars with
    | nil => rfl
    | cons ch chars ih => simp [ih, byteCount_escaped]
  have hquote : ('"' : Char).utf8Size = 1 := rfl
  rw [quoted, textSize, byteCount_append, byteCount_append, hchars]
  simp [hquote]
  omega

mutual

/-- The size of a value is the number of bytes that its text takes. -/
lemma Json.byteCount_chars : (value : Json) → byteCount value.chars = value.size
  | .null => by rw [Json.chars, Json.size]; rfl
  | .bool true => by rw [Json.chars, Json.size]; rfl
  | .bool false => by rw [Json.chars, Json.size]; rfl
  | .num literal => by rw [Json.chars, Json.size, length_asBytes]
  | .str s => by rw [Json.chars, Json.size, byteCount_quoted]
  | .arr items => by
    have hitems := byteCount_itemsChars items
    rw [Json.chars, Json.size, byteCount_append, byteCount_append, hitems]
    show 1 + _ + 1 = _
    omega
  | .obj members => by
    have hmembers := byteCount_membersChars members
    rw [Json.chars, Json.size, byteCount_append, byteCount_append, hmembers]
    show 1 + _ + 1 = _
    omega

/-- The bytes of the elements of an array, with a comma between any two. -/
lemma byteCount_itemsChars : (items : List Json) →
    byteCount (itemsChars items) = itemsSize items + (items.length - 1)
  | [] => by rw [itemsChars, itemsSize]; rfl
  | [item] => by
    rw [itemsChars, itemsSize, itemsSize, Json.byteCount_chars item]
    rfl
  | item :: next :: rest => by
    have hrest := byteCount_itemsChars (next :: rest)
    rw [itemsChars, itemsSize, byteCount_append, byteCount_append, hrest,
      Json.byteCount_chars item]
    show _ + 1 + _ = _
    simp only [List.length_cons]
    omega

/-- The bytes of the members of an object, with a comma between any two. -/
lemma byteCount_membersChars : (members : List (String × Json)) →
    byteCount (membersChars members) = membersSize members + (members.length - 1)
  | [] => by rw [membersChars, membersSize]; rfl
  | [(key, value)] => by
    rw [membersChars, membersSize, membersSize, byteCount_append, byteCount_append,
      byteCount_quoted, Json.byteCount_chars value]
    rfl
  | (key, value) :: next :: rest => by
    have hrest := byteCount_membersChars (next :: rest)
    rw [membersChars, membersSize, byteCount_append, byteCount_append, byteCount_append,
      byteCount_append, byteCount_quoted, hrest, Json.byteCount_chars value]
    show _ + 1 + _ + 1 + _ = _
    simp only [List.length_cons]
    omega

end

/-- **The size of a value is the length of its text**, in bytes. -/
lemma Json.length_text (value : Json) : (asBytes value.text).length = value.size := by
  rw [length_asBytes, text, String.toList_ofList, byteCount_chars]

/-! ### The wire types -/

/-- A natural number. -/
def Json.nat (n : ℕ) : Json := .num (toString n)

/-- A member that is left out when there is no value. -/
def optional {α : Type} (key : String) (toJson : α → Json) : Option α → List (String × Json)
  | none => []
  | some x => [(key, toJson x)]

/-- An amount, as `AmountWire`. -/
def amountJson (a : Amount) : Json :=
  .obj [("asset", .str a.asset.text), ("amount", .str a.toText)]

/-- A timestamp. -/
def timestampJson (t : Rfc3339) : Json := .str t.text

/-- Provenance, as it is serialized. -/
def ProvenanceWire.toJson (p : ProvenanceWire) : Json :=
  .obj <|
    [("adapter_id", .str p.adapterId), ("provider_id", .str p.providerId),
      ("surface", .str p.surface), ("observed_at", timestampJson p.observedAt)] ++
    optional "effective_at" timestampJson p.effectiveAt ++
    [("completeness", .str p.completeness.spelling)]

/-- An observation, as it is serialized. -/
def ObservationWire.toJson (o : ObservationWire) : Json :=
  .obj <|
    [("resource_id", .str o.resourceId), ("local_id", .str o.localId)] ++
    optional "provider_id" Json.str o.providerId ++
    optional "supersedes_provider_id" Json.str o.supersedesProviderId ++
    [("state", .str o.state.spelling)] ++
    optional "tombstone_reason" Json.str o.tombstoneReason ++
    [("surface", .str o.surface), ("posting", .str o.posting.spelling),
      ("amount", amountJson o.amount)] ++
    optional "fees" amountJson o.fees ++
    [("raw_sign", .str o.rawSign.spelling), ("description", .str o.description),
      ("provider_extra", .obj o.providerExtra), ("provenance", o.provenance.toJson)]

/-- The serialized size of an observation. -/
def ObservationWire.bytes (o : ObservationWire) : ℕ := o.toJson.size

example : (Json.obj [("a", .arr [.null, .bool true]), ("b", .str "\"\n")]).size =
    "\x7b\"a\":[null,true],\"b\":\"\\\"\\n\"\x7d".length := by decide

end Sumer.Wire
