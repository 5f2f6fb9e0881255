import ScriptedServer.Numeral

/-!
Faults are what the world or the arithmetic beneath the server can raise. Those of input and output
are met by the server at many places; the others are bugs or limits, which no part of it catches.
-/

namespace ScriptedServer

/-- The kinds of fault: six of input and output, four others. -/
inductive FaultKind where
  | system | connectionReset | connectionAborted | brokenPipe | timeout | permission
  | overflow | internal | value | index
  deriving DecidableEq

/-- A fault, with the number that the operating system gave it, if any. -/
structure Fault where
  kind : FaultKind
  message : Text
  code : Option Int := none
  deriving DecidableEq

namespace Fault

/-- Whether a fault is one of input and output, which the operating system raises. -/
def isExternal (f : Fault) : Bool :=
  match f.kind with
  | .overflow | .internal | .value | .index => false
  | _ => true

/-- The wording of a fault: its message, with the system's number in front if it has one. -/
def text (f : Fault) : Text :=
  match f.code with
  | none => f.message
  | some n => "[Errno ".toList ++ Text.ofInt n ++ "] ".toList ++ f.message

/-- Writing on a connection whose outbound side has ended. -/
def writeAfterClose : Fault :=
  { kind := .connectionReset, message := "Cannot write to a closed connection".toList }

/-- Closing a connection that is already being closed. -/
def alreadyClosed : Fault :=
  { kind := .connectionReset, message := "Connection already closed".toList }

/-- A numeral with more digits than are read. -/
def tooManyDigits (digits : Nat) : Fault where
  kind := .value
  message :=
    "Exceeds the limit (".toList ++ Text.ofNat Numeral.digitLimit
      ++ " digits) for integer string conversion: value has ".toList ++ Text.ofNat digits
      ++ " digits; use sys.set_int_max_str_digits() to increase the limit".toList

/-- An integer with more digits than are written. -/
def tooLargeToWrite : Fault where
  kind := .value
  message :=
    "Exceeds the limit (".toList ++ Text.ofNat Numeral.digitLimit
      ++ " digits) for integer string conversion".toList
      ++ "; use sys.set_int_max_str_digits() to increase the limit".toList

/-- Looking for a part that an address does not have. -/
def missingPart : Fault :=
  { kind := .index, message := "tuple index out of range".toList }

/-- Asking for more random bytes than a length of the machine can say. -/
def lengthTooLarge : Fault :=
  { kind := .overflow, message := "Python int too large to convert to C ssize_t".toList }

/-- A duration beyond the finite doubles. -/
def quotientTooLarge : Fault :=
  { kind := .overflow, message := "integer division result too large for a float".toList }

end Fault
end ScriptedServer
