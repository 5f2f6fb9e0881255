import ScriptedServer.Fault
import ScriptedServer.Text.Quoted

/-!
Loose values, as settings and peer addresses hold them, and the two ways in which messages show
them: plain, and quoted. What is to be read is turned into text first, and an integer of more digits
than are read cannot be.
-/

namespace ScriptedServer

/-- A value whose type is only known when it is looked at. -/
inductive Value where
  | none | bool (b : Bool) | int (n : Int) | text (t : Text) | bytes (bs : List UInt8)
  deriving DecidableEq

namespace Value

/-- A value as error messages quote it: only text and bytes take quotes. -/
def quoted : Value → Text
  | none => "None".toList
  | bool true => "True".toList
  | bool false => "False".toList
  | int n => Text.ofInt n
  | text t => t.quoted
  | bytes bs => Text.quotedBytes bs

/-- A value in running text: text stands for itself, all else is as when quoted. -/
def shown : Value → Text
  | text t => t
  | v => v.quoted

/-- The text that a value is read from: what is shown of it, but an integer of too many digits has
none. -/
def toText (v : Value) : Except Fault Text :=
  match v with
  | int n =>
    if (Text.ofNat n.natAbs).length ≤ Numeral.digitLimit then .ok v.shown
    else .error .tooLargeToWrite
  | _ => .ok v.shown

end Value
end ScriptedServer
