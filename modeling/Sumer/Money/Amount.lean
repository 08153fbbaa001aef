import Sumer.Wire.Rfc3339

set_option relaxedAutoImplicit false
set_option autoImplicit false

/-!
# Exact decimal amounts

Asset identifiers and exact decimals (`core/money/src/asset.rs`, `core/money/src/amount.rs`). An
amount is `units * 10 ^ (-scale)` of one asset. Both types carry their own bounds, so that
printing one never fails.

## Main definitions

* `Sumer.Money.AssetId`: an opaque asset identifier.
* `Sumer.Money.Amount`: an amount, with its bounds on digits and scale.
* `Sumer.Money.formatDecimal`: the one function that prints an amount.
-/

namespace Sumer.Money

/-- The largest number of fraction digits. -/
def MAX_SCALE : ℕ := 38

/-- The largest number of significant digits. -/
def MAX_DIGITS : ℕ := 128

/-- The longest asset identifier, in bytes. -/
def MAX_ASSET_ID_LEN : ℕ := 128

/-- What an asset identifier must satisfy: nonempty, at most `MAX_ASSET_ID_LEN` bytes, every byte
a printable ASCII character other than the space. -/
def isAssetId (s : String) : Bool :=
  let b := Wire.asBytes s
  !b.isEmpty && b.length ≤ MAX_ASSET_ID_LEN && b.all fun x => 0x21 ≤ x && x ≤ 0x7E

/-- An opaque asset identifier, compared byte by byte and never normalized. -/
structure AssetId where
  text : String
  valid : isAssetId text = true
deriving DecidableEq

/-- The decimal digits of a magnitude, without a sign or leading zeros; `0` has one digit. -/
def magnitudeDigits (n : ℤ) : List Char := Nat.toDigits 10 n.natAbs

/-- The number of significant decimal digits of a coefficient. -/
def digitCount (n : ℤ) : ℕ := (magnitudeDigits n).length

/-- An exact decimal amount tied to an asset: `units * 10 ^ (-scale)`. The bounds are what every
constructor of the source checks. -/
structure Amount where
  asset : AssetId
  units : ℤ
  scale : ℕ
  digits_le : digitCount units ≤ MAX_DIGITS
  scale_le : scale ≤ MAX_SCALE
deriving DecidableEq

/-- The scale of whole units, zero, is one that an amount may have. -/
lemma zero_le_maxScale : 0 ≤ MAX_SCALE := Nat.zero_le _

/-- The canonical decimal text of `units * 10 ^ (-scale)`: an optional `-`, the digits, and a
point `scale` places from the right, padded with zeros when the coefficient is shorter. -/
def formatDecimal (units : ℤ) (scale : ℕ) : String :=
  let magnitude := magnitudeDigits units
  let sign := if units < 0 then ['-'] else []
  let body :=
    if scale = 0 then magnitude
    else if magnitude.length > scale then
      let split := magnitude.length - scale
      magnitude.take split ++ '.' :: magnitude.drop split
    else '0' :: '.' :: (List.replicate (scale - magnitude.length) '0' ++ magnitude)
  String.ofList (sign ++ body)

/-- `Display` of an amount: the canonical decimal text of its value. -/
def Amount.toText (a : Amount) : String := formatDecimal a.units a.scale

example : formatDecimal (-5) 3 = "-0.005" := by decide

end Sumer.Money
