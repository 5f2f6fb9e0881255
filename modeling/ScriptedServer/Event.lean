import ScriptedServer.ActionError
import ScriptedServer.Binary64

/-!
What the server can be seen to do: calls on a connection or on the listening socket, sleeps, and
log lines. A log line is kept as what it reports; `LogLine.text` is its wording.
-/

namespace ScriptedServer

/-- The lines of the log. -/
inductive LogLine where
  | listening (port : Option Int)
  | stoppedListening
  | globalDirective (actions : Nat)
  | shuttingDown
  | connected (peer : Text)
  | received (text : Text)
  | requestIncorrect
  | readFailed (peer : Text) (cause : Fault)
  | closed (peer : Text)
  | nothingToDo
  | nothingToShut
  | executing (a : Action)
  | actionError (e : ActionError)
  deriving DecidableEq

/-- The wording of a log line. -/
def LogLine.text : LogLine → Text
  | listening none => "Server listening at port None".toList
  | listening (some port) => "Server listening at port ".toList ++ Text.ofInt port
  | stoppedListening => "Server stopped listening".toList
  | globalDirective n => "Global action set: ".toList ++ Text.ofNat n ++ " action(s)".toList
  | shuttingDown => "Shutting down".toList
  | connected peer => "Socket connected ".toList ++ peer
  | received text => "Socket IN: ".toList ++ text
  | requestIncorrect => "Request incorrect".toList
  | readFailed peer cause => "Socket Error ".toList ++ peer ++ ' ' :: cause.text
  | closed peer => "Socket Closed ".toList ++ peer
  | nothingToDo => "No actions defined - do nothing".toList
  | nothingToShut => "No listener attached to session - nothing to shut".toList
  | executing a => "Executing action ".toList ++ a.describe
  | actionError e => "ERROR - ".toList ++ e.message

/-- What is written on a connection: given bytes, or random ones of a given length. -/
inductive Output where
  | bytes (bs : List UInt8)
  | random (length : Nat)
  deriving DecidableEq

/-- One thing that is seen to happen. -/
inductive Event where
  | write (output : Output)
  | writeEof
  | close
  | abort
  | waitClosed
  | sleep (duration : Binary64)
  | serverClose
  | bind (host : Option Text) (port : Option Int)
  | log (line : LogLine)
  deriving DecidableEq

/-- A call on a part of the server: the state after it, what was seen, and what it failed with. -/
structure Call (σ ε : Type) where
  state : σ
  events : List Event := []
  error : Option ε := none

end ScriptedServer
