import Sumer.Money.Amount

set_option relaxedAutoImplicit false
set_option autoImplicit false

/-!
# Reading an amount

`AssetId::new`, `Amount::checked` and `Amount::parse` (`core/money/src/asset.rs`,
`core/money/src/amount.rs`), byte by byte, with the class and the offset of every rejection.

## Main definitions

* `Sumer.Money.MoneyError`: why a text is no amount.
* `Sumer.Money.AssetId.new`, `Sumer.Money.Amount.checked`: the validating constructors.
* `Sumer.Money.Amount.parse`: the canonical grammar.
-/

namespace Sumer.Money

open Sumer.Wire

/-- The longest text of an amount, in bytes. -/
def MAX_INPUT_LEN : ℕ := 192

/-- Everything that can go wrong constructing an amount or an asset identifier, or combining two
amounts: a class, and a byte offset or a count. -/
inductive MoneyError where
  | empty
  | inputTooLong (len : ℕ)
  | invalidByte (offset : ℕ)
  | leadingZero (offset : ℕ)
  | signOnZero
  | missingIntegerPart
  | missingFractionDigits
  | exponentNotation (offset : ℕ)
  | tooManyDigits (digits : ℕ)
  | scaleTooLarge (scale : ℕ)
  | coefficientOverflow
  | assetMismatch
  | assetIdEmpty
  | assetIdTooLong (len : ℕ)
  | assetIdInvalidByte (offset : ℕ)
deriving DecidableEq

/-- `Display` of a money error: its class in words, with the byte offset or the count it carries. -/
def MoneyError.display : MoneyError → String
  | .empty => "amount string is empty"
  | .inputTooLong len =>
    "amount string is " ++ toString len ++ " bytes, exceeds the " ++ toString MAX_INPUT_LEN ++
      "-byte input limit"
  | .invalidByte offset => "invalid byte at offset " ++ toString offset
  | .leadingZero offset => "leading zero not allowed at offset " ++ toString offset
  | .signOnZero => "sign not allowed on a zero value"
  | .missingIntegerPart => "missing integer part before the decimal point"
  | .missingFractionDigits => "missing fraction digits after the decimal point"
  | .exponentNotation offset =>
    "exponent notation at offset " ++ toString offset ++ " is not allowed; format the decimal " ++
      "as plain digits before encoding it (Python: format(d, 'f'), not str(d); " ++
      "Java: toPlainString(), not toString(); Go: Text('f', -1); JS decimal.js: .toFixed())"
  | .tooManyDigits digits =>
    "coefficient has " ++ toString digits ++ " significant digits, exceeds the " ++
      toString MAX_DIGITS ++ "-digit limit"
  | .scaleTooLarge scale =>
    "scale " ++ toString scale ++ " exceeds the maximum scale of " ++ toString MAX_SCALE
  | .coefficientOverflow =>
    "coefficient overflow: result exceeds the " ++ toString MAX_DIGITS ++ "-digit limit"
  | .assetMismatch => "asset mismatch between operands"
  | .assetIdEmpty => "asset id is empty"
  | .assetIdTooLong len =>
    "asset id is " ++ toString len ++ " bytes, exceeds the " ++ toString MAX_ASSET_ID_LEN ++
      "-byte limit"
  | .assetIdInvalidByte offset => "asset id has invalid byte at offset " ++ toString offset

/-- `AssetId::new`. -/
def AssetId.new (s : String) : Except MoneyError AssetId :=
  let bytes := asBytes s
  if bytes.isEmpty then .error .assetIdEmpty
  else if MAX_ASSET_ID_LEN < bytes.length then .error (.assetIdTooLong bytes.length)
  else if h : isAssetId s = true then .ok ⟨s, h⟩
  else .error (.assetIdInvalidByte (bytes.findIdx fun b => ! (0x21 ≤ b && b ≤ 0x7E)))

/-- The text of an asset identifier is one. -/
lemma AssetId.new_text (asset : AssetId) : AssetId.new asset.text = .ok asset := by
  have hvalid := asset.valid
  have hparts := hvalid
  simp only [isAssetId, Bool.and_eq_true, Bool.not_eq_true', decide_eq_true_eq] at hparts
  rw [AssetId.new]
  simp only [hparts.1.1, Bool.false_eq_true, if_false, if_neg (not_lt.mpr hparts.1.2),
    dif_pos hvalid]

/-- `Amount::checked`, the only validating constructor: digits before scale. -/
def Amount.checked (asset : AssetId) (units : ℤ) (scale : ℕ) : Except MoneyError Amount :=
  if hdigits : MAX_DIGITS < digitCount units then .error (.tooManyDigits (digitCount units))
  else if hscale : MAX_SCALE < scale then .error (.scaleTooLarge scale)
  else .ok ⟨asset, units, scale, by omega, by omega⟩

/-- The magnitude of a run of digits. -/
def digitsToNat (digits : List UInt8) : ℕ := digits.foldl (fun n b => n * 10 + digitValue b) 0

/-- Whether a byte starts an exponent. -/
def isExponent (b : UInt8) : Bool := b == ascii 'e' || b == ascii 'E'

/-- The digits before the point, and what follows them. -/
def parseInteger (start : ℕ) : List UInt8 → Except MoneyError (List UInt8 × List UInt8)
  | [] => .error .missingIntegerPart
  | b :: tail =>
    if b = ascii '.' then .error .missingIntegerPart
    else if b = ascii '0' then
      if tail.head?.any isAsciiDigit then .error (.leadingZero start) else .ok ([b], tail)
    else if isAsciiDigit b then
      .ok ((b :: tail).takeWhile isAsciiDigit, (b :: tail).dropWhile isAsciiDigit)
    else .error (.invalidByte start)

/-- The digits after the point, if there is one, and what follows them. `total` is the length of
the whole text, which makes a remainder an offset. -/
def parseFraction (total : ℕ) : List UInt8 → Except MoneyError (List UInt8 × List UInt8)
  | [] => .ok ([], [])
  | b :: rest =>
    if b = ascii '.' then
      match rest.takeWhile isAsciiDigit with
      | [] =>
        match rest with
        | [] => .error .missingFractionDigits
        | next :: _ =>
          if isExponent next then .error (.exponentNotation (total - rest.length))
          else .error (.invalidByte (total - rest.length))
      | digits => .ok (digits, rest.dropWhile isAsciiDigit)
    else if isExponent b then .error (.exponentNotation (total - (b :: rest).length))
    else .error (.invalidByte (total - (b :: rest).length))

/-- `Amount::parse`: the grammar `-?(0|[1-9][0-9]*)(\.[0-9]+)?`. -/
def Amount.parse (asset : AssetId) (s : String) : Except MoneyError Amount :=
  let bytes := asBytes s
  let total := bytes.length
  if MAX_INPUT_LEN < total then .error (.inputTooLong total)
  else if bytes.isEmpty then .error .empty
  else
    let neg := bytes.head? == some (ascii '-')
    let rest := if neg then bytes.tail else bytes
    match parseInteger (total - rest.length) rest with
    | .error e => .error e
    | .ok (intDigits, afterInt) =>
      match parseFraction total afterInt with
      | .error e => .error e
      | .ok (fracDigits, tail) =>
        match tail with
        | b :: _ =>
          if isExponent b then .error (.exponentNotation (total - tail.length))
          else .error (.invalidByte (total - tail.length))
        | [] =>
          if neg && intDigits == [ascii '0'] && fracDigits.all (· == ascii '0') then
            .error .signOnZero
          -- the scale is a `u8` from here on
          else if 255 < fracDigits.length then .error (.scaleTooLarge fracDigits.length)
          else
            let magnitude := digitsToNat (intDigits ++ fracDigits)
            Amount.checked asset (if neg then -(magnitude : ℤ) else magnitude) fracDigits.length

example (asset : AssetId) : Amount.parse asset "01" = .error (.leadingZero 0) := rfl

end Sumer.Money
