/-!
Sets of code points, given by the closed intervals that they consist of.
-/
namespace KoreanScript.Text

/-- Whether `n` lies in one of the closed intervals, which stand in increasing order. -/
def covers : List (Nat × Nat) → Nat → Bool
  | [], _ => false
  | (low, high) :: rest, n => low ≤ n && (n ≤ high || covers rest n)

end KoreanScript.Text
