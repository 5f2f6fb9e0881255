import ScriptedServer.Execution

/-!
A connection of the listener, between two events. Two activities belong to it: the reading of its
inbound side, which lasts until that side ends, and the directive that it runs, if any. At rest it
is in one of few positions: reading, with a directive that is asleep, ended or not begun; waiting
for a sleeping directive, with the inbound side ended; or over. Every event is a turn: a total
function from the connection and the gate to both afterwards and what was seen in between.
-/

namespace ScriptedServer

/-- Where the directive of a connection stands: not begun, asleep with actions left, or ended,
perhaps by a fault. -/
inductive Job where
  | none
  | asleep (rest : List Action)
  | ended (fault : Option Fault)
  deriving DecidableEq

namespace Job

/-- Whether a sleep is pending. -/
def isAsleep : Job → Bool
  | asleep _ => true
  | _ => false

/-- The fault that a directive was left by. -/
def fault? : Job → Option Fault
  | ended f => f
  | _ => Option.none

/-- Where a directive stands after a stretch of it. -/
def ofProgress : Progress → Job
  | .asleep rest => asleep rest
  | .ended (.escaped f) => ended (some f)
  | .ended _ => ended Option.none

end Job

/-- How far the handling of a connection has come. -/
inductive Task where
  | running
  | done
  | failed (f : Fault)
  deriving DecidableEq

/-- One accepted connection and what goes on in it. -/
structure Connection where
  session : Session
  /-- Whether more may come in: no end of file, no fault, and not torn down. -/
  inboundOpen : Bool := true
  job : Job := .none
  task : Task := .running

/-- A turn of a connection: it and the gate afterwards, and what was seen. -/
structure Turn where
  connection : Connection
  gate : Gate
  events : List Event := []

/-- A turn with more seen in front of it. -/
def Turn.after (t : Turn) (events : List Event) : Turn := { t with events := events ++ t.events }

/-- The number of bytes that are read at a time. -/
def readSize : Nat := 65536

/-- Cuts at most `fuel` pieces of `size` off a list. -/
def cut {α : Type} (size : Nat) : Nat → List α → List (List α)
  | 0, _ => []
  | fuel + 1, xs => if xs.isEmpty then [] else xs.take size :: cut size fuel (xs.drop size)

/-- The pieces in which bytes are read: all full but the last, and none empty. -/
def pieces (data : List UInt8) : List (List UInt8) := cut readSize data.length data

/-- The log line for a piece. -/
def receivedLine (piece : List UInt8) : Event := .log (.received (Utf8.decode piece))

namespace Connection

/-- Runs a stretch of the directive. -/
def work (c : Connection) (g : Gate) (stretch : Stage → Run Progress) : Turn :=
  let r := stretch ⟨c.session, some g⟩
  { connection := { c with session := r.stage.session, job := Job.ofProgress r.result }
    gate := r.stage.gate.getD g
    events := r.events }

/-- Ends the handling of a connection: it is released, and a fault of that, or else of the
directive, is what the handling fails with. -/
def finish (c : Connection) : Connection × List Event :=
  let r := c.session.release
  match r.error with
  | some f => ({ c with session := r.state, task := .failed f }, r.events)
  | none =>
    ({ c with session := r.state, task := c.job.fault?.elim .done .failed },
      r.events ++ [.log (.closed c.session.peer)])

/-- Ends the handling of a connection that nothing more is read from, once no sleep is pending. -/
def leave (c : Connection) : Connection × List Event :=
  if c.task = .running ∧ !c.job.isAsleep then c.finish else (c, [])

/-- Reading has failed: a fault of input and output is logged and ends it, any other is passed on at
once and the session is never released. -/
def breakOff (c : Connection) (f : Fault) : Connection × List Event :=
  if c.task ≠ .running then (c, [])
  else if f.isExternal then
    let r := c.leave
    (r.1, .log (.readFailed c.session.peer f) :: r.2)
  else ({ c with task := .failed f }, [])

/-- A connection at rest: one that is being torn down has no inbound side any more, and one whose
inbound side has ended is left. -/
def settle (c : Connection) : Connection × List Event :=
  let c := { c with inboundOpen := c.inboundOpen && !c.session.closing }
  if c.inboundOpen then (c, []) else c.leave

/-- A turn, with the connection brought to rest. -/
def rest (t : Turn) : Turn :=
  let r := t.connection.settle
  { t with connection := r.1, events := t.events ++ r.2 }

/-- Answers a payload without a directive: hangs up, and reads on what is already there. -/
def refuse (c : Connection) (g : Gate) (others : List Event) : Turn :=
  let r := c.session.hangUp
  match r.error with
  | none =>
    { connection := { c with session := r.state }, gate := g, events := r.events ++ others }
  | some f =>
    let b := c.breakOff f
    { connection := b.1, gate := g, events := b.2 }

/-- Reads bytes in pieces. Each is logged; the first that the session ever receives carries its
directive, which begins when all that is there has been read. -/
def read (c : Connection) (g : Gate) (data : List UInt8) : Turn :=
  match pieces data with
  | [] => { connection := c, gate := g }
  | first :: others =>
    let lines := others.map receivedLine
    match c.session.consume with
    | (_, false) => { connection := c, gate := g, events := receivedLine first :: lines }
    | (session, true) =>
      let c := { c with session }
      match Directive.ofBytes? first with
      | none => (c.refuse g lines).after [receivedLine first, .log .requestIncorrect]
      | some d => (c.work g d.begin).after (receivedLine first :: lines)

/-! ### The turns -/

/-- Announces a new connection; with a directive for all sessions it begins at once. -/
def welcome (c : Connection) (directive : Option Directive) (g : Gate) : Turn :=
  let t : Turn :=
    match directive with
    | none => { connection := c, gate := g }
    | some d => c.work g d.begin
  rest (t.after [.log (.connected c.session.peer)])

/-- A new connection from a peer. One whose peer cannot be labelled fails before it is announced:
nobody reads from it, and it is never released. -/
def accept (peer : List Value) (faults : FaultPlan) (directive : Option Directive) (g : Gate) :
    Turn :=
  match peerLabel peer with
  | .ok label => welcome { session := { peer := label, faults } } directive g
  | .error f => { connection := { session := { peer := [], faults }, task := .failed f }, gate := g }

/-- Bytes come in, perhaps with the end of file right behind them. With a directive for all sessions
they are dropped, and so they are once nobody reads. -/
def receive (c : Connection) (directive : Option Directive) (g : Gate) (data : List UInt8)
    (eof : Bool) : Turn :=
  let t : Turn :=
    if directive.isSome ∨ c.task ≠ .running then { connection := c, gate := g } else c.read g data
  rest { t with connection := { t.connection with inboundOpen := t.connection.inboundOpen && !eof } }

/-- The inbound side ends. -/
def endInbound (c : Connection) (g : Gate) : Turn :=
  rest { connection := { c with inboundOpen := false }, gate := g }

/-- The connection is reset by its peer. -/
def reset (c : Connection) (g : Gate) (f : Fault) : Turn :=
  let r := breakOff { c with session := c.session.lose, inboundOpen := false } f
  rest { connection := r.1, gate := g, events := r.2 }

/-- The pending sleep ends. -/
def wake (c : Connection) (g : Gate) (left : List Action) : Turn :=
  rest (c.work g (Directive.advance left))

end Connection
end ScriptedServer
