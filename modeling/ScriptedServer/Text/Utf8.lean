import ScriptedServer.Text.Basic
import ScriptedServer.Text.Transducer

/-!
UTF-8, with replacement: every byte sequence has a text. A decoder stands between characters or
inside one, and in the latter case knows how many bytes are owed and which range the next byte must
lie in. A byte outside that range closes the unfinished character as one U+FFFD and is then read
afresh, so each maximal part that cannot be completed becomes one replacement character.
-/

namespace ScriptedServer.Utf8

/-- Stands for bytes that are no character. -/
def replacement : Char := '\uFFFD'

/-- Between characters, or inside one: the bytes owed, the bits read, the range of the next byte. -/
inductive State where | start | inside (owed code low high : Nat)
  deriving DecidableEq

/-- The first byte of a character, or a character of one byte, or a byte that starts none. -/
def lead (b : Nat) : Text × State :=
  if b < 0x80 then ([Char.ofNat b], .start)
  else if 0xC2 ≤ b ∧ b ≤ 0xDF then ([], .inside 1 (b - 0xC0) 0x80 0xBF)
  else if b = 0xE0 then ([], .inside 2 0 0xA0 0xBF)
  else if b = 0xED then ([], .inside 2 0xD 0x80 0x9F)
  else if 0xE1 ≤ b ∧ b ≤ 0xEF then ([], .inside 2 (b - 0xE0) 0x80 0xBF)
  else if b = 0xF0 then ([], .inside 3 0 0x90 0xBF)
  else if 0xF1 ≤ b ∧ b ≤ 0xF3 then ([], .inside 3 (b - 0xF0) 0x80 0xBF)
  else if b = 0xF4 then ([], .inside 3 4 0x80 0x8F)
  else ([replacement], .start)

/-- One byte. -/
def step : State → Nat → Text × State
  | .start, b => lead b
  | .inside owed code low high, b =>
    if low ≤ b ∧ b ≤ high then
      if owed ≤ 1 then ([Char.ofNat (code * 64 + (b - 0x80))], .start)
      else ([], .inside (owed - 1) (code * 64 + (b - 0x80)) 0x80 0xBF)
    else (replacement :: (lead b).1, (lead b).2)

/-- A character that the input leaves unfinished is replaced. -/
def flush : State → Text
  | .start => []
  | .inside .. => [replacement]

/-- The decoder, as a machine over bytes. -/
def decoder : Transducer State UInt8 Char := ⟨.start, fun s b => step s b.toNat, flush⟩

/-- The text of any bytes. -/
def decode (bs : List UInt8) : Text := decoder.run bs

/-- The bytes of a character: seven bits in one byte, else a lead byte and six bits in each other. -/
def encodeChar (c : Char) : List UInt8 :=
  let n := c.toNat
  if n < 0x80 then [n.toUInt8]
  else if n < 0x800 then [(0xC0 + n / 64).toUInt8, (0x80 + n % 64).toUInt8]
  else if n < 0x10000 then
    [(0xE0 + n / 4096).toUInt8, (0x80 + n / 64 % 64).toUInt8, (0x80 + n % 64).toUInt8]
  else
    [(0xF0 + n / 262144).toUInt8, (0x80 + n / 4096 % 64).toUInt8, (0x80 + n / 64 % 64).toUInt8,
      (0x80 + n % 64).toUInt8]

/-- The bytes of a text. -/
def encode (t : Text) : List UInt8 := t.flatMap encodeChar

end ScriptedServer.Utf8
