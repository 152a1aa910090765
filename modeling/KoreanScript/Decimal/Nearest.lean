/-!
The double nearest to a decimal `d · 10^e`, in exact integer arithmetic. A
nonnegative double is given by its bits as a natural number, so that its order
is the order of the bits: `nearestBits` counts the decimal in units of the last
place, rounds half to even, and lets a carry run into the exponent.
-/
namespace KoreanScript.Decimal

/-- The lowest bit of the exponent field, `2^52`: the fraction of a double lies below it. -/
def exponentBit : Nat := 0x10000000000000
/-- The bits of infinity, which lie above those of every finite double. -/
def infinityBits : Nat := 0x7FF * exponentBit
/-- `n / d` rounded to the nearest natural number, a tie to the even one. -/
def roundDiv (n d : Nat) : Nat :=
  if d < 2 * (n % d) ∨ (2 * (n % d) = d ∧ n / d % 2 = 1) then n / d + 1 else n / d
/-- The largest `k` with `2^k ≤ n / d`, for positive `n` and `d`. -/
def floorLog (n d : Nat) : Int :=
  let k : Int := n.log2 - d.log2
  if d * Nat.pow 2 n.log2 ≤ n * Nat.pow 2 d.log2 then k else k - 1
/-- The exponent of two that a double near `n / d` counts in. -/
def unitExponent (n d : Nat) : Int := max (-1074) (floorLog n d - 52)
/-- `n / d` counted in units of `2^q`. -/
def countIn (q : Int) (n d : Nat) : Nat :=
  match q with
  | .ofNat k => roundDiv n (d * Nat.pow 2 k)
  | .negSucc k => roundDiv (n * Nat.pow 2 (k + 1)) d
/-- The bits of the double nearest to `n / d`; what is too large becomes infinity. -/
def ratioBits (n d : Nat) : Nat :=
  if n = 0 then 0 else
    let q := unitExponent n d
    min ((q + 1074).toNat * exponentBit + countIn q n d) infinityBits
/-- The number of decimal digits of `n`. -/
def width (n : Nat) : Nat := (Nat.toDigits 10 n).length
/-- The bits of the double nearest to `d · 10^e`. Decimals from `10^310` up and
    those below `10^(-325)` are settled by their magnitude alone. -/
def nearestBits (d : Nat) (e : Int) : Nat :=
  if d = 0 then 0
  else if 310 < width d + e then infinityBits
  else if width d + e < -325 then 0
  else match e with
    | .ofNat k => ratioBits (d * Nat.pow 10 k) 1
    | .negSucc k => ratioBits d (Nat.pow 10 (k + 1))
/-- The double nearest to `d · 10^e`. -/
def nearest (d : Nat) (e : Int) : Float := Float.ofBits (UInt64.ofNat (nearestBits d e))

end KoreanScript.Decimal
