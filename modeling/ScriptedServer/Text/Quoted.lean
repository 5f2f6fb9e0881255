import ScriptedServer.Text.Basic
import ScriptedServer.Text.Unprintable

/-!
Quoted text, as error messages show it. The quotes are single, or double when the text holds single
quotes and no double one; a backslash goes in front of the quote in use and of itself; line feed,
carriage return and tab have letters; any other unprintable character is written by its code point
in two, four or eight hexadecimal digits. Quoted bytes follow the same rule with a `b` in front,
and show every byte outside printable ASCII by its number.
-/

namespace ScriptedServer.Text

/-- The quote that encloses a text: double only if the text holds single quotes and no double. -/
def quoteFor (t : Text) : Char := if '\'' ∈ t ∧ '"' ∉ t then '"' else '\''

/-- A code point by its number: two, four or eight digits, as it needs. -/
def numbered (n : Nat) : Text :=
  if n < 0x100 then '\\' :: 'x' :: ofHex 2 n
  else if n < 0x10000 then '\\' :: 'u' :: ofHex 4 n
  else '\\' :: 'U' :: ofHex 8 n

/-- A character inside quotes, where `shown` says which characters stand for themselves. -/
def escape (quote : Char) (shown : Char → Bool) (c : Char) : Text :=
  if c = quote ∨ c = '\\' then ['\\', c]
  else if c = '\n' then ['\\', 'n']
  else if c = '\r' then ['\\', 'r']
  else if c = '\t' then ['\\', 't']
  else if shown c then [c]
  else numbered c.toNat

/-- A text in quotes. -/
def quoted (t : Text) : Text :=
  quoteFor t :: t.flatMap (escape (quoteFor t) isPrintable) ++ [quoteFor t]

/-- Bytes in quotes, each taken for the character of its number. -/
def quotedBytes (bs : List UInt8) : Text :=
  let t : Text := bs.map fun b => Char.ofNat b.toNat
  'b' :: quoteFor t :: t.flatMap (escape (quoteFor t) fun c => 0x20 ≤ c.toNat && c.toNat < 0x7F)
    ++ [quoteFor t]

end ScriptedServer.Text
