import ScriptedServer.Text.Basic

/-!
Numerals: non-empty runs of the digits 0 to 9, with any number of leading zeros. Reading one is
exact for every length up to a limit of digits; a longer numeral is refused whatever its value.
-/

namespace ScriptedServer.Numeral

/-- Whether a text is a numeral. -/
def isNumeral (t : Text) : Bool := !t.isEmpty && t.all Char.isDigit

/-- One more digit behind a number. -/
def push (n : Nat) (c : Char) : Nat := 10 * n + (c.toNat - '0'.toNat)

/-- The number that a run of digits stands for. -/
def value (t : Text) : Nat := t.foldl push 0

/-- The most digits that are read. -/
def digitLimit : Nat := 4300

/-- Why a text is not read as a number. -/
inductive Refusal where | notNumeral | tooLong (digits : Nat)
  deriving DecidableEq

/-- The number of a numeral within the limit. -/
def read (t : Text) : Except Refusal Nat :=
  if isNumeral t then
    if t.length ≤ digitLimit then .ok (value t) else .error (.tooLong t.length)
  else .error .notNumeral

end ScriptedServer.Numeral
