import ScriptedServer.Arguments
import ScriptedServer.Directive
import ScriptedServer.Fault
import ScriptedServer.Value

/-!
Settings come from the command line, and from the environment for whatever the command line leaves
out. Operands and extras are scanned in order: a numeral sets the port, anything else must carry a
directive, and the last of each wins. The environment is looked at only for what is missing, the
port before the directive, so that a value nobody needs cannot fail.
-/

namespace ScriptedServer

/-- Why there are no settings. -/
inductive SettingsError where
  | malformed (text : Text)
  | invalidPort (value : Value)
  | hostWithoutValue
  | fault (f : Fault)
  deriving DecidableEq

namespace SettingsError

/-- The wording for text without a directive, which is quoted. -/
def malformedText (quotedText : Text) : Text := "Action list is incorrect: ".toList ++ quotedText

/-- The wording for a value that is no port, which is quoted. -/
def invalidPortText (quotedValue : Text) : Text :=
  "Invalid port ".toList ++ quotedValue ++ ": expected a number from 0 to 65535".toList

/-- The wording of an error. -/
def message : SettingsError → Text
  | malformed text => malformedText text.quoted
  | invalidPort value => invalidPortText value.quoted
  | hostWithoutValue => "argument --host: expected one argument".toList
  | fault f => f.text

end SettingsError

/-- The directive in a text that has to carry one. -/
def Directive.require (t : Text) : Except SettingsError Directive :=
  match Directive.ofText? t with
  | some d => .ok d
  | none => .error (.malformed t)

/-- The greatest port. -/
def maxPort : Nat := 65535

/-- A port from any value: a numeral of at most 65535, with blanks around it ignored. -/
def readPort (value : Value) : Except SettingsError Nat :=
  match value.toText with
  | .error f => .error (.fault f)
  | .ok t =>
    match Numeral.read t.trim with
    | .ok n => if n ≤ maxPort then .ok n else .error (.invalidPort value)
    | .error .notNumeral => .error (.invalidPort value)
    | .error (.tooLong digits) => .error (.fault (.tooManyDigits digits))

/-- The variables that stand in for the command line; each may be unset. -/
structure Environment where
  host : Option Text := none
  port : Option Text := none
  actions : Option Text := none

/-- The address to listen at unless another is given. -/
def defaultHost : Text := "0.0.0.0".toList

/-- The port to listen at unless another is given. -/
def defaultPort : Nat := 11111

namespace Environment

/-- The host that the environment gives. -/
def hostText (env : Environment) : Text := env.host.getD defaultHost

/-- The port that the environment gives. -/
def readPort (env : Environment) : Except SettingsError Nat :=
  ScriptedServer.readPort (.text (env.port.getD (Text.ofNat defaultPort)))

/-- The directive that the environment gives: none if the variable is unset or empty. -/
def directive (env : Environment) : Except SettingsError (Option Directive) :=
  match env.actions.getD [] with
  | [] => .ok none
  | t => (Directive.require t).map some

end Environment

/-- What the server runs with. -/
structure Settings where
  host : Text := defaultHost
  port : Nat := defaultPort
  /-- The directive that every session runs, in place of the one it is sent. -/
  directive : Option Directive := none
  showUsage : Bool := false
  deriving DecidableEq

/-- What a scan of the arguments has set so far. -/
structure Given where
  port : Option Nat := none
  directive : Option Directive := none
  deriving DecidableEq

namespace Given

/-- One argument: a numeral is a port, anything else carries a directive. -/
def read (g : Given) (word : Text) : Except SettingsError Given :=
  if Numeral.isNumeral word then (readPort (.text word)).map fun n => { g with port := some n }
  else (Directive.require word).map fun d => { g with directive := some d }

/-- A scan of arguments, up to the first that fails. -/
def scan : Given → List Text → Except SettingsError Given
  | g, [] => .ok g
  | g, word :: rest =>
    match g.read word with
    | .ok g' => scan g' rest
    | .error e => .error e

/-- Settings from what was given, with the environment for the rest. -/
def settings (g : Given) (host : Option Text) (env : Environment) :
    Except SettingsError Settings :=
  let host := if host.getD [] = [] then env.hostText else host.getD []
  match g.port.elim env.readPort .ok with
  | .error e => .error e
  | .ok port =>
    match g.directive.elim env.directive fun d => .ok (some d) with
    | .error e => .error e
    | .ok directive => .ok { host, port, directive }

end Given

namespace Settings

/-- Settings from the environment alone. -/
def ofEnvironment (env : Environment) : Except SettingsError Settings :=
  Given.settings {} none env

/-- The words that, alone on the command line, ask for the usage text. -/
def usageWords : List Text :=
  ["?".toList, "-?".toList, "/?".toList, "-h".toList, "--help".toList]

/-- Whether a command line asks for the usage text. -/
def asksUsage : List Text → Bool
  | [word] => word ∈ usageWords
  | _ => false

/-- Settings from a command line and the environment. -/
def ofWords (words : List Text) (env : Environment) : Except SettingsError Settings :=
  if asksUsage words then .ok { showUsage := true }
  else
    match Arguments.ofWords? words with
    | none => .error .hostWithoutValue
    | some a =>
      match Given.scan {} (a.operands ++ a.extras) with
      | .error e => .error e
      | .ok g => g.settings a.host env

end Settings
end ScriptedServer
