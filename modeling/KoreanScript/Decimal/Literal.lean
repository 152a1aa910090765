import KoreanScript.Decimal.Nearest

/-!
The texts that denote numbers: an optional sign before digits with at most one
point among them and an optional exponent, or before one of the words for
infinity and for the undefined number, in any letter case.
-/
namespace KoreanScript.Decimal

/-- The number that a run of decimal digits denotes. -/
def ofDigits (ds : List Char) : Nat := ds.foldl (fun n c => 10 * n + (c.toNat - '0'.toNat)) 0
/-- The number of a nonempty run of digits. -/
def digits? (ds : List Char) : Option Nat :=
  if ds ≠ [] ∧ ds.all Char.isDigit then some (ofDigits ds) else none
/-- The exponent that follows the digits of a literal: nothing at all, or `e`, a sign and digits. -/
def exponent? : List Char → Option Int
  | [] => some 0
  | c :: cs =>
    if c = 'e' ∨ c = 'E' then
      match cs with
      | '+' :: ds => (digits? ds).map Int.ofNat
      | '-' :: ds => (digits? ds).map fun n => -Int.ofNat n
      | ds => (digits? ds).map Int.ofNat
    else none
/-- The digits after the point and what follows them. -/
def fraction : List Char → List Char × List Char
  | '.' :: cs => cs.span Char.isDigit
  | cs => ([], cs)
/-- The value of digits with a point and an exponent. -/
def numeral? (cs : List Char) : Option Float :=
  let (whole, rest) := cs.span Char.isDigit
  let (part, rest) := fraction rest
  if whole = [] ∧ part = [] then none
  else (exponent? rest).map fun e => nearest (ofDigits (whole ++ part)) (e - part.length)
/-- The value of a literal without its sign. -/
def magnitude? (cs : List Char) : Option Float :=
  let word := String.ofList (cs.map Char.toLower)
  if word = "inf" ∨ word = "infinity" then some (Float.ofBits (UInt64.ofNat infinityBits))
  else if word = "nan" then some (0.0 / 0.0)
  else numeral? cs
/-- The value of a number's text. -/
def read? (s : String) : Option Float :=
  match s.toList with
  | '+' :: cs => magnitude? cs
  | '-' :: cs => (magnitude? cs).map Float.neg
  | cs => magnitude? cs

end KoreanScript.Decimal
