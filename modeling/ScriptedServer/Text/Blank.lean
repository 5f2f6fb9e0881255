import ScriptedServer.Text.Basic
import ScriptedServer.Text.Ranges

/-!
Blanks are the characters of Unicode's `White_Space` property and the four separators U+001C to
U+001F. Trimming takes them off both ends of a text.
-/

namespace ScriptedServer.Text

/-- The code points of blanks. -/
def blanks : Ranges :=
  [(0x09, 0x0D), (0x1C, 0x20), (0x85, 0x85), (0xA0, 0xA0), (0x1680, 0x1680), (0x2000, 0x200A),
    (0x2028, 0x2029), (0x202F, 0x202F), (0x205F, 0x205F), (0x3000, 0x3000)]

/-- Whether a character is blank. -/
def isBlank (c : Char) : Bool := blanks.holds c.toNat

/-- A text without the blanks at its ends. -/
def trim (t : Text) : Text := ((t.dropWhile isBlank).reverse.dropWhile isBlank).reverse

end ScriptedServer.Text
