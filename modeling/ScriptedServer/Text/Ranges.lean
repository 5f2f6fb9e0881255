/-!
Character classes as ascending lists of code point ranges.
-/

namespace ScriptedServer

/-- Ranges of code points, first and last, in ascending order. -/
abbrev Ranges := List (Nat × Nat)

/-- Whether a code point lies in one of the ranges; a range that starts above it ends the search. -/
def Ranges.holds : Ranges → Nat → Bool
  | [], _ => false
  | (first, last) :: rest, n => decide (first ≤ n) && (decide (n ≤ last) || Ranges.holds rest n)

end ScriptedServer
