import ScriptedServer.Event

/-!
The gate is the listening side that all sessions share: the socket that accepts connections, and
the signal that it was stopped. Each start brings a new signal; stopping sets the newest one.
-/

namespace ScriptedServer

/-- A listening socket. -/
structure Acceptor where
  /-- The port it is bound to, if it has an address at all. -/
  port : Option Int
  serving : Bool := true
  /-- The fault that closing it is to fail with. -/
  closeFault : Option Fault := none
  deriving DecidableEq

/-- The listening side of a server. -/
structure Gate where
  acceptor : Option Acceptor := none
  /-- How many starts there were: each has a signal of its own. -/
  starts : Nat := 0
  /-- Whether the newest signal is set. -/
  stopped : Bool := false
  deriving DecidableEq

namespace Gate

/-- Whether connections are accepted. -/
def isListening (g : Gate) : Bool := g.acceptor.any (·.serving)

/-- The port that connections are accepted at. -/
def boundPort (g : Gate) : Option Int :=
  match g.acceptor with
  | some a => if a.serving then a.port else none
  | none => none

/-- Stops accepting connections, if they are accepted, and sets the signal. -/
def shut (g : Gate) : Call Gate Fault :=
  match g.acceptor with
  | none => { state := g }
  | some a =>
    if a.serving then
      match a.closeFault with
      | some f => { state := g, error := some f }
      | none =>
        { state := { g with acceptor := some { a with serving := false }, stopped := true }
          events := [.serverClose, .log .stoppedListening] }
    else { state := g }

/-- A new signal, for a start that may yet fail. -/
def renew (g : Gate) : Gate := { g with starts := g.starts + 1, stopped := false }

/-- Sets the fault of the listening socket, if there is one. -/
def setCloseFault (g : Gate) (f : Option Fault) : Gate :=
  { g with acceptor := g.acceptor.map fun a => { a with closeFault := f } }

/-- A gate that was started once, at the given port. -/
def started (port : Option Int) : Gate := { acceptor := some { port }, starts := 1 }

end Gate
end ScriptedServer
