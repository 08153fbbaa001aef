import Mathlib.Data.Nat.Notation
import Mathlib.Tactic
import Sumer.Lib.Digits

set_option relaxedAutoImplicit false
set_option autoImplicit false

/-!
# RFC 3339 timestamps

The timestamp type of the wire (`core/wire/src/observation.rs`). A timestamp is a text whose
*shape* has been checked byte by byte: field widths, separators and a plausible range per field,
but not the calendar (`2026-02-30T00:00:00Z` is accepted). The check carries the byte offset of
its first complaint and nothing else.

## Main definitions

* `Sumer.Wire.asBytes`: the UTF-8 bytes of a text.
* `Sumer.Wire.validateRfc3339`: the shape check.
* `Sumer.Wire.Rfc3339`: a text that passes it.
-/

namespace Sumer.Wire

/-- The UTF-8 bytes of a text. -/
def asBytes (s : String) : List UInt8 := s.toList.flatMap String.utf8EncodeChar

/-- The byte of an ASCII character. -/
def ascii (c : Char) : UInt8 := c.toUInt8

/-- Whether a byte is one of `0` to `9`. -/
def isAsciiDigit (b : UInt8) : Bool := ascii '0' ≤ b && b ≤ ascii '9'

/-- The value of an ASCII digit byte. -/
def digitValue (b : UInt8) : ℕ := b.toNat - (ascii '0').toNat

/-- Two ASCII digits at `i` and `i + 1`, read as a number. -/
def twoDigits (bytes : List UInt8) (i : ℕ) : Option ℕ := do
  let a ← bytes[i]?
  let b ← bytes[i + 1]?
  if isAsciiDigit a && isAsciiDigit b then some (digitValue a * 10 + digitValue b) else none

/-- Why a timestamp was rejected: the byte offset of the complaint. -/
structure Rfc3339Error where
  offset : ℕ
deriving DecidableEq

/-- The value of an optional read, or a complaint at the given offset. -/
def okOr {α : Type} (x : Option α) (offset : ℕ) : Except Rfc3339Error α :=
  match x with
  | some a => .ok a
  | none => .error ⟨offset⟩

/-- The end of the run of ASCII digits that starts at `i`. -/
def digitsEnd (bytes : List UInt8) (i : ℕ) : ℕ :=
  i + ((bytes.drop i).takeWhile isAsciiDigit).length

/-- The check of everything after the seconds: an optional fraction, then `Z` or a numeric
offset, then the end of the text. -/
def validateTail (b : List UInt8) : Except Rfc3339Error Unit := do
  let i ←
    if b[19]? = some (ascii '.') then
      let stop := digitsEnd b 20
      if stop = 20 then throw ⟨stop⟩ else pure stop
    else pure 19
  match b[i]? with
  | none => throw ⟨b.length⟩
  | some c =>
    if c = ascii 'Z' ∨ c = ascii 'z' then
      if i + 1 = b.length then pure () else throw ⟨i + 1⟩
    else if c = ascii '+' ∨ c = ascii '-' then
      let offHour ← okOr (twoDigits b (i + 1)) (i + 1)
      if offHour > 23 then throw ⟨i + 1⟩
      if b[i + 3]? ≠ some (ascii ':') then throw ⟨i + 3⟩
      let offMin ← okOr (twoDigits b (i + 4)) (i + 4)
      if offMin > 59 then throw ⟨i + 4⟩
      if i + 6 = b.length then pure () else throw ⟨i + 6⟩
    else throw ⟨i⟩

/-- The shape check of a timestamp. The fixed positions are read by plain indexing: the length
test in front of them is what keeps every index in bounds. -/
def validateRfc3339 (s : String) : Except Rfc3339Error Unit :=
  let b := asBytes s
  if h : b.length < 20 then throw ⟨b.length⟩
  else do
    if ¬ (b.take 4).all isAsciiDigit then throw ⟨0⟩
    if b[4] ≠ ascii '-' then throw ⟨4⟩
    let month ← okOr (twoDigits b 5) 5
    if ¬ (1 ≤ month ∧ month ≤ 12) then throw ⟨5⟩
    if b[7] ≠ ascii '-' then throw ⟨7⟩
    let day ← okOr (twoDigits b 8) 8
    if ¬ (1 ≤ day ∧ day ≤ 31) then throw ⟨8⟩
    if ¬ (b[10] = ascii 'T' ∨ b[10] = ascii 't') then throw ⟨10⟩
    let hour ← okOr (twoDigits b 11) 11
    if hour > 23 then throw ⟨11⟩
    if b[13] ≠ ascii ':' then throw ⟨13⟩
    let minute ← okOr (twoDigits b 14) 14
    if minute > 59 then throw ⟨14⟩
    if b[16] ≠ ascii ':' then throw ⟨16⟩
    -- `60` is let through to tolerate a leap second
    let second ← okOr (twoDigits b 17) 17
    if second > 60 then throw ⟨17⟩
    validateTail b

/-- A timestamp: a text that passes `validateRfc3339`. There is no other way to build one. -/
structure Rfc3339 where
  text : String
  valid : (validateRfc3339 text).toOption = some ()
deriving DecidableEq

/-- `Rfc3339::new`: checks a text and wraps it. -/
def Rfc3339.new (s : String) : Except Rfc3339Error Rfc3339 :=
  match h : validateRfc3339 s with
  | .ok () => .ok ⟨s, by rw [h]; rfl⟩
  | .error e => .error e

/-- Two timestamps with one text are equal. -/
@[ext]
lemma Rfc3339.ext {a b : Rfc3339} (h : a.text = b.text) : a = b := by
  cases a; cases b; cases h; rfl

/-- The text of a timestamp is one. -/
lemma Rfc3339.new_text (ts : Rfc3339) : Rfc3339.new ts.text = .ok ts := by
  unfold Rfc3339.new
  split
  · rfl
  · rename_i e he
    have hvalid := ts.valid
    rw [he] at hvalid
    cases hvalid

example : (Rfc3339.new "2026-02-30T00:00:00Z").toOption.isSome := by decide

/-! ### ASCII texts -/

/-- An ASCII character is one byte. -/
lemma utf8EncodeChar_of_ascii {ch : Char} (h : ch.toNat < 128) :
    String.utf8EncodeChar ch = [ascii ch] := by
  have hsize : ch.utf8Size = 1 := by
    rw [Char.utf8Size_eq_one_iff, UInt32.le_iff_toNat_le]
    exact Nat.le_of_lt_succ h
  exact String.utf8EncodeChar_eq_singleton hsize

/-- The bytes of an ASCII text are its characters. -/
lemma asBytes_ofList {chars : List Char} (h : ∀ ch ∈ chars, ch.toNat < 128) :
    asBytes (String.ofList chars) = chars.map ascii := by
  rw [asBytes, String.toList_ofList]
  induction chars with
  | nil => rfl
  | cons ch rest ih =>
    rw [List.flatMap_cons, utf8EncodeChar_of_ascii (h ch List.mem_cons_self), List.map_cons,
      ih fun c hc => h c (List.mem_cons_of_mem _ hc)]
    rfl

/-- The byte of an ASCII character has its code. -/
lemma toNat_ascii {ch : Char} (h : ch.toNat < 128) : (ascii ch).toNat = ch.toNat := by
  have : ch.val.toNat = ch.toNat := rfl
  simp only [ascii, Char.toUInt8, UInt32.toNat_toUInt8, this]
  omega

/-- ASCII characters are told apart by their bytes. -/
lemma ascii_inj {ch ch' : Char} (h : ch.toNat < 128) (h' : ch'.toNat < 128)
    (heq : ascii ch = ascii ch') : ch = ch' := by
  rw [← Char.toNat_inj, ← toNat_ascii h, ← toNat_ascii h', heq]

/-- A digit is a digit as a byte, too. -/
lemma isAsciiDigit_ascii {ch : Char} (h : ch.isDigit = true) : isAsciiDigit (ascii ch) = true := by
  obtain ⟨hlow, hhigh⟩ := Digits.isDigit_iff.mp h
  have hnat := toNat_ascii (show ch.toNat < 128 by omega)
  simp only [isAsciiDigit, Bool.and_eq_true, decide_eq_true_eq, UInt8.le_iff_toNat_le, hnat]
  exact ⟨hlow, hhigh⟩

/-- The value of a digit, by its code. -/
lemma digitValue_ascii {ch : Char} (h : ch.isDigit = true) :
    digitValue (ascii ch) = ch.toNat - 48 := by
  obtain ⟨hlow, hhigh⟩ := Digits.isDigit_iff.mp h
  rw [digitValue, toNat_ascii (by omega)]
  rfl

/-- Texts are told apart by their bytes. -/
lemma asBytes_injective : Function.Injective asBytes := by
  intro s t heq
  rw [← String.toByteArray_inj, ← String.utf8Encode_toList, ← String.utf8Encode_toList]
  exact congrArg List.toByteArray heq

/-- A text with the bytes of ASCII characters consists of these characters. -/
lemma eq_ofList_of_asBytes {s : String} {chars : List Char} (h : ∀ ch ∈ chars, ch.toNat < 128)
    (heq : asBytes s = chars.map ascii) : s = String.ofList chars :=
  asBytes_injective (heq.trans (asBytes_ofList h).symm)

/-- A digit byte is that of a digit. -/
lemma exists_digit_of_isAsciiDigit {b : UInt8} (h : isAsciiDigit b = true) :
    ∃ ch : Char, ch.isDigit = true ∧ ascii ch = b := by
  rw [isAsciiDigit, Bool.and_eq_true, decide_eq_true_eq, decide_eq_true_eq,
    UInt8.le_iff_toNat_le, UInt8.le_iff_toNat_le] at h
  obtain ⟨hlow, hhigh⟩ : 48 ≤ b.toNat ∧ b.toNat ≤ 57 := h
  have hlt : b.toNat - 48 < 10 := by omega
  have hdigit : (b.toNat - 48).digitChar.isDigit = true := by
    rw [Nat.isDigit_digitChar, decide_eq_true hlt]
  have hcode := Nat.toNat_digitChar_sub_48_of_lt_ten hlt
  have := Digits.isDigit_iff.mp hdigit
  refine ⟨(b.toNat - 48).digitChar, hdigit, UInt8.toNat_inj.mp ?_⟩
  rw [toNat_ascii (by omega)]
  omega

/-- A run of digit bytes is that of a run of digits. -/
lemma exists_digits_of_isAsciiDigit {bytes : List UInt8}
    (h : ∀ b ∈ bytes, isAsciiDigit b = true) :
    ∃ digits : List Char, (∀ ch ∈ digits, ch.isDigit = true) ∧ digits.map ascii = bytes := by
  induction bytes with
  | nil => exact ⟨[], by simp, rfl⟩
  | cons b bytes ih =>
    obtain ⟨ch, hch, hb⟩ := exists_digit_of_isAsciiDigit (h b List.mem_cons_self)
    obtain ⟨digits, hdigits, hbytes⟩ := ih fun c hc => h c (List.mem_cons_of_mem _ hc)
    exact ⟨ch :: digits, List.forall_mem_cons.mpr ⟨hch, hdigits⟩, by rw [List.map_cons, hb, hbytes]⟩

end Sumer.Wire
