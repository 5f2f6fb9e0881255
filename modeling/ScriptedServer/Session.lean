import ScriptedServer.Event

/-!
A session is one accepted connection as its two ends see it: whether its directive was taken,
whether its outbound side was ended, and whether the connection is being torn down. Each call that
can fail has a place in the plan of faults; while a fault is set there, the call fails with it
before it does or shows anything. Waiting for the teardown is seen even when it fails. What is to be
written comes from a supply, which may fail before there is anything to call with.
-/

namespace ScriptedServer

/-- Where the bytes to write come from: a source of random bytes, which may refuse a length, and the
encoding of parameters. A parameter from outside may hold code points that are no characters, which
have no encoding; the supply says which parameters stand for one of these. -/
structure Supply where
  random : Nat → Option Fault := fun _ => none
  encoding : Text → Option Fault := fun _ => none

/-- The first length that a machine word with a sign does not hold. -/
def sizeLimit : Nat := 9223372036854775808

/-- A supply whose source refuses the lengths from a limit on. -/
def Supply.bounded (limit : Nat) : Supply where
  random length := if length < limit then none else some .lengthTooLarge

/-- The faults that the calls on a connection are to fail with, and what its actions draw on. -/
structure FaultPlan where
  write : Option Fault := none
  drain : Option Fault := none
  writeEof : Option Fault := none
  close : Option Fault := none
  abort : Option Fault := none
  waitClosed : Option Fault := none
  supply : Supply := {}

/-- The calls on a connection that can be made to fail. -/
inductive FailPoint where | write | drain | writeEof | close | abort | waitClosed
  deriving DecidableEq

/-- A plan with one call set to fail, or to succeed again. -/
def FaultPlan.set (p : FaultPlan) (f : Option Fault) : FailPoint → FaultPlan
  | .write => { p with write := f }
  | .drain => { p with drain := f }
  | .writeEof => { p with writeEof := f }
  | .close => { p with close := f }
  | .abort => { p with abort := f }
  | .waitClosed => { p with waitClosed := f }

/-- The label of a peer address: its first two parts, or `unknown` if there is no address. An
address of a single part cannot be labelled. -/
def peerLabel : List Value → Except Fault Text
  | [] => .ok "unknown".toList
  | [_] => .error .missingPart
  | host :: port :: _ => .ok (host.shown ++ ':' :: port.shown)

/-- One accepted connection. -/
structure Session where
  /-- The label of the peer. -/
  peer : Text
  faults : FaultPlan := {}
  /-- Whether the first payload was handed to the reader of directives. -/
  consumed : Bool := false
  /-- Whether the outbound side was ended. -/
  outputClosed : Bool := false
  /-- Whether the connection is being torn down. -/
  closing : Bool := false

namespace Session

/-- What the actions of a session draw on. -/
def supply (s : Session) : Supply := s.faults.supply

/-- Whether nothing more may be written. -/
def isClosing (s : Session) : Bool := s.outputClosed || s.closing

/-- Takes the directive of a session, unless it was taken before. -/
def consume (s : Session) : Session × Bool :=
  if s.consumed then (s, false) else ({ s with consumed := true }, true)

/-- Writes, and waits until it is flushed. -/
def write (s : Session) (output : Output) : Call Session Fault :=
  if s.isClosing then { state := s, error := some .writeAfterClose }
  else
    match s.faults.write with
    | some f => { state := s, error := some f }
    | none => { state := s, events := [.write output], error := s.faults.drain }

/-- Ends the outbound side, once. The side counts as ended from the attempt on. -/
def close (s : Session) : Call Session Fault :=
  if s.outputClosed then { state := s }
  else if s.closing then { state := s, error := some .alreadyClosed }
  else
    match s.faults.writeEof with
    | some f => { state := { s with outputClosed := true }, error := some f }
    | none =>
      { state := { s with outputClosed := true }, events := [.writeEof], error := s.faults.drain }

/-- Drops the connection without flushing. -/
def abort (s : Session) : Call Session Fault :=
  match s.faults.abort with
  | some f => { state := s, error := some f }
  | none => { state := { s with closing := true }, events := [.abort] }

/-- Closes both sides of the connection. -/
def hangUp (s : Session) : Call Session Fault :=
  match s.faults.close with
  | some f => { state := s, error := some f }
  | none => { state := { s with closing := true }, events := [.close] }

/-- Hangs up unless that was done, and waits for the teardown, whose faults are ignored. -/
def release (s : Session) : Call Session Fault :=
  if s.closing then { state := s, events := [.waitClosed] }
  else
    let c := s.hangUp
    match c.error with
    | some f => { c with error := some f }
    | none => { c with events := c.events ++ [.waitClosed] }

/-- The connection is lost to a fault of the peer's side. -/
def lose (s : Session) : Session := { s with closing := true }

end Session
end ScriptedServer
