import ScriptedServer.Text.Transducer

/-!
Percent-encoded bytes: `%` with two hexadecimal digits behind it stands for one byte, and every
other byte, a `%` without two digits included, stands for itself. A decoder holds back a `%`, then
a `%` with one digit, until the next byte decides.
-/

namespace ScriptedServer.Percent

/-- The value of a hexadecimal digit of either case. -/
def hexDigit? (b : UInt8) : Option UInt8 :=
  if 0x30 ≤ b ∧ b ≤ 0x39 then some (b - 0x30)
  else if 0x41 ≤ b ∧ b ≤ 0x46 then some (b - 0x37)
  else if 0x61 ≤ b ∧ b ≤ 0x66 then some (b - 0x57)
  else none

/-- What is held back: nothing, a `%`, or a `%` with the digit `b` of value `high` behind it. -/
inductive State where | plain | percent | digit (b high : UInt8)
  deriving DecidableEq

/-- A byte that completes nothing: a `%` is held back, any other byte is written. -/
def afresh (b : UInt8) : List UInt8 × State :=
  if b = 0x25 then ([], .percent) else ([b], .plain)

/-- What is held back, as the bytes it was written with. -/
def held : State → List UInt8
  | .plain => []
  | .percent => [0x25]
  | .digit b _ => [0x25, b]

/-- One byte. -/
def step (s : State) (b : UInt8) : List UInt8 × State :=
  match s, hexDigit? b with
  | .percent, some v => ([], .digit b v)
  | .digit _ high, some v => ([16 * high + v], .plain)
  | s, _ => (held s ++ (afresh b).1, (afresh b).2)

/-- The decoder, as a machine over bytes. -/
def decoder : Transducer State UInt8 UInt8 := ⟨.plain, step, held⟩

/-- The bytes that a percent-encoded sequence stands for. -/
def decode (bs : List UInt8) : List UInt8 := decoder.run bs

end ScriptedServer.Percent
