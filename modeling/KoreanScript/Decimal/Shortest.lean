import KoreanScript.Decimal.Nearest

/-!
The shortest decimal that reads back as a given positive finite double, and its
positional text. Cutting the double's exact decimal after some digit leaves two
neighbours on that grid, the cut one and the next above; the first grid with a
neighbour that reads back wins, of two such neighbours the nearer, and of two
equally near the upper.
-/
namespace KoreanScript.Decimal

/-- The whole number that the bits of a finite double count with. -/
def mantissa (bits : Nat) : Nat :=
  if bits < exponentBit then bits else exponentBit + bits % exponentBit
/-- The exponent of two that the bits of a finite double count in. -/
def exponent (bits : Nat) : Int :=
  if bits < exponentBit then -1074 else (bits / exponentBit : Nat) - 1075
/-- `m · 2^q` as a decimal: a natural number and an exponent of ten. -/
def exact (m : Nat) (q : Int) : Nat × Int :=
  match q with
  | .ofNat k => (m * Nat.pow 2 k, 0)
  | .negSucc k => (m * Nat.pow 5 (k + 1), .negSucc k)
/-- `n` cut after all but its last `k` digits, or the next number above: which of
    them, counted in `10^(e + k)`, reads back as the double with these bits. -/
def neighbour? (bits n : Nat) (e : Int) (k : Nat) : Option Nat :=
  let low := n / Nat.pow 10 k
  let lowHits := nearestBits low (e + k) == bits
  let highHits := nearestBits (low + 1) (e + k) == bits
  if lowHits && (!highHits || 2 * (n % Nat.pow 10 k) < Nat.pow 10 k) then some low
  else if highHits then some (low + 1) else none
/-- The first neighbour that reads back, from the grid that drops `k` digits down
    to the exact decimal. -/
def shorten (bits n : Nat) (e : Int) : Nat → Nat × Int
  | 0 => (n, e)
  | k + 1 =>
    match neighbour? bits n e (k + 1) with
    | some d => (d, e + (k + 1 : Nat))
    | none => shorten bits n e k
/-- The same decimal without zeros at its end. -/
def trim (d : Nat) (e : Int) : Nat × Int :=
  if d ≠ 0 ∧ d % 10 = 0 then trim (d / 10) (e + 1) else (d, e)
termination_by d
decreasing_by omega
/-- The shortest decimal that reads back as the positive finite double. -/
def shortest (bits : Nat) : Nat × Int :=
  let (n, e) := exact (mantissa bits) (exponent bits)
  let (d, f) := shorten bits n e (width n - 1)
  trim d f
/-- Digits with a point before the last `places`, padded so that one stands before it. -/
def pointed (ds : List Char) (places : Nat) : List Char :=
  if ds.length ≤ places then '0' :: '.' :: (List.replicate (places - ds.length) '0' ++ ds)
  else ds.take (ds.length - places) ++ '.' :: ds.drop (ds.length - places)
/-- The text of `d · 10^e` without an exponent. -/
def positional (d : Nat) (e : Int) : List Char :=
  match e with
  | .ofNat k => Nat.toDigits 10 d ++ List.replicate k '0'
  | .negSucc k => pointed (Nat.toDigits 10 d) (k + 1)

end KoreanScript.Decimal
