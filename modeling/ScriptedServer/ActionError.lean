import ScriptedServer.Action
import ScriptedServer.Fault
import ScriptedServer.Value

/-!
What can go wrong with an action. The first three causes end a directive and are reported; a plain
fault is none of the server's causes and is passed on as it came.
-/

namespace ScriptedServer

/-- Why an action was not completed. -/
inductive ActionError where
  | unknown (name : Text)
  | invalidParameter (name : Text) (param : Option Text)
  | failed (name : Text) (cause : Fault)
  deriving DecidableEq

namespace ActionError

/-- The wording for an unknown name, which is quoted. -/
def unknownText (quotedName : Text) : Text := "Unknown action ".toList ++ quotedName

/-- The wording for a parameter that is no count, which is quoted. -/
def invalidParameterText (name quotedParam : Text) : Text :=
  "Invalid parameter for ".toList ++ name ++ ": ".toList ++ quotedParam

/-- The wording for an action that the connection or the listener refused. -/
def failedText (name cause : Text) : Text := name ++ " failed: ".toList ++ cause

/-- The wording of an error. -/
def message : ActionError → Text
  | unknown name => unknownText name.quoted
  | invalidParameter name none => invalidParameterText name Value.none.quoted
  | invalidParameter name (some p) => invalidParameterText name p.quoted
  | failed name cause => failedText name cause.text

end ActionError

/-- What stops an action: an error of its own, or a fault that is passed on. -/
inductive Trouble where
  | error (e : ActionError)
  | fault (f : Fault)
  deriving DecidableEq

/-- A fault met by an action: one of input and output is the action's own failure. -/
def Trouble.ofFault (a : Action) (f : Fault) : Trouble :=
  if f.isExternal then .error (.failed a.name f) else .fault f

/-- The count that a parameter gives: a numeral, which is read exactly up to the limit of digits. -/
def Action.count (a : Action) : Except Trouble Nat :=
  match a.param with
  | none => .error (.error (.invalidParameter a.name none))
  | some p =>
    match Numeral.read p with
    | .ok n => .ok n
    | .error .notNumeral => .error (.error (.invalidParameter a.name (some p)))
    | .error (.tooLong digits) => .error (.fault (.tooManyDigits digits))

end ScriptedServer
