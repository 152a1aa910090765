import KoreanScript.Decimal.Shortest

/-!
The text of a number and the whole number it may stand for. A number is written
with the fewest digits that read back, in positional notation however large or
small it is.
-/
namespace KoreanScript.Number

/-- The bit of the sign, `2^63`. -/
def signBit : Nat := 0x8000000000000000
/-- The bits of a number without its sign. -/
def magnitudeBits (x : Float) : Nat := x.toBits.toNat % signBit
/-- Whether the sign is set, also on zero. -/
def isNegative (x : Float) : Bool := signBit ≤ x.toBits.toNat
/-- The text of a nonnegative number. -/
def magnitudeText (bits : Nat) : String :=
  if bits = 0 then "0"
  else if bits = Decimal.infinityBits then "inf"
  else
    let (d, e) := Decimal.shortest bits
    String.ofList (Decimal.positional d e)
/-- The plain text, which tells the two zeros apart. -/
def text (x : Float) : String :=
  if x.isNaN then "NaN"
  else if isNegative x then "-" ++ magnitudeText (magnitudeBits x) else magnitudeText (magnitudeBits x)
/-- The text that programs show: both zeros are `0`. -/
def render (x : Float) : String := if x == 0.0 then "0" else text x
/-- The double that counts `n`. -/
def ofNat (n : Nat) : Float := Decimal.nearest n 0
/-- `m · 2^q` if it is whole. -/
def whole? (m : Nat) (q : Int) : Option Nat :=
  match q with
  | .ofNat k => some (m * Nat.pow 2 k)
  | .negSucc k => if m % Nat.pow 2 (k + 1) = 0 then some (m / Nat.pow 2 (k + 1)) else none
/-- The natural number that `x` equals, if any; negative zero equals zero. -/
def natural? (x : Float) : Option Nat :=
  let bits := magnitudeBits x
  if bits = 0 then some 0
  else if Decimal.infinityBits ≤ bits ∨ isNegative x then none
  else whole? (Decimal.mantissa bits) (Decimal.exponent bits)

end KoreanScript.Number
