import ScriptedServer.Connection

/-!
A listener accepts connections and takes each through its life. It is a state machine: `step` is a
total function from a listener and a step to the listener afterwards and what the step showed. Each
step is carried through until nothing is left to do but to wait for bytes, for the end of a sleep or
for the end of sessions. What was seen is kept in order, each event with the connection it belongs
to.
-/

namespace ScriptedServer

/-- What an event belongs to: the listener itself, or a connection by its number. -/
inductive Origin where
  | listener
  | connection (n : Nat)
  deriving DecidableEq

/-- What was seen, in order. -/
abbrev Trace := List (Origin × Event)

/-- Events that all belong to one origin. -/
def Trace.of (o : Origin) (events : List Event) : Trace := events.map (o, ·)

/-- The events of a trace that belong to one origin. -/
def Trace.view (t : Trace) (o : Origin) : List Event := (t.filter (·.1 = o)).map (·.2)

/-- What binding the listening socket leads to: a fault, the ports of the bound sockets, or one
socket at the port asked for, where 0 asks for a free one. -/
inductive Binding where
  | fails (f : Fault)
  | ports (ports : List Int)
  | asked
  deriving DecidableEq

namespace Binding

/-- The port that is given for port 0. -/
def freePort : Int := 40000

/-- The port of the first bound socket, or the fault. -/
def bind (port : Option Int) : Binding → Except Fault (Option Int)
  | fails f => .error f
  | ports ps => .ok ps.head?
  | asked => .ok (if port.getD 0 = 0 then some freePort else port)

end Binding

/-- An activity that waits for the listener: for the signal of a start, then for all sessions. -/
inductive Waiter where
  | awaiting (start : Nat)
  | draining
  | done
  | failed (f : Fault)
  deriving DecidableEq

/-- A waiter at rest: the signal lets it go on to the sessions, and when none is left it is done. -/
def Waiter.settle (g : Gate) (idle : Bool) : Waiter → Waiter
  | awaiting start =>
    if start = g.starts ∧ g.stopped then if idle then done else draining else awaiting start
  | draining => if idle then done else draining
  | w => w

/-- The order in which a set gives the numbers that it holds: any order, the same each time. -/
structure SetOrder where
  arrange : List Nat → List Nat
  perm : ∀ ns, (arrange ns).Perm ns

/-- The order in which the numbers were put in. -/
def SetOrder.ofAcceptance : SetOrder where
  arrange ns := ns
  perm ns := .refl ns

/-- A listener with all its connections. -/
structure Listener where
  /-- The address to listen at, or none for every address. -/
  host : Option Text
  port : Option Int
  /-- The directive that every session runs, in place of the one it is sent. -/
  directive : Option Directive := none
  binding : Binding := .asked
  gate : Gate := {}
  /-- All connections ever accepted, by number. -/
  connections : List Connection := []
  /-- The numbers of the connections with an open session, in order of acceptance. -/
  sessions : List Nat := []
  /-- The order in which the set of the open sessions gives them. -/
  order : SetOrder := .ofAcceptance
  /-- The activity that serves until the listener is stopped. -/
  serving : Option Waiter := none
  /-- The activity that closes the listener. -/
  closing : Option Waiter := none

/-- What can happen to a listener. -/
inductive Step where
  | start
  | shutdown
  | serve
  | close
  | connect (peer : Option (List Value)) (faults : FaultPlan)
  | receive (n : Nat) (data : List UInt8) (eof : Bool)
  | endInbound (n : Nat)
  | reset (n : Nat) (f : Fault)
  | wake (n : Nat)
  | setFault (n : Nat) (point : FailPoint) (f : Option Fault)
  | setCloseFault (f : Option Fault)

instance : ∀ s : Step, Decidable (s = .start)
  | .start => .isTrue rfl
  | .shutdown | .serve | .close | .connect .. | .receive .. | .endInbound _ | .reset .. | .wake _
  | .setFault .. | .setCloseFault _ => .isFalse Step.noConfusion

instance : ∀ s : Step, Decidable (s = .close)
  | .close => .isTrue rfl
  | .start | .shutdown | .serve | .connect .. | .receive .. | .endInbound _ | .reset .. | .wake _
  | .setFault .. | .setCloseFault _ => .isFalse Step.noConfusion

/-- What a step showed: what was seen, whether the step found nothing to act on, and the fault that
it failed with. -/
structure Outcome where
  trace : Trace := []
  ignored : Bool := false
  error : Option Fault := none

namespace Listener

/-- Whether connections are accepted. -/
def isListening (l : Listener) : Bool := l.gate.isListening

/-- The numbers of the open sessions, in the order in which their set gives them. -/
def openSessions (l : Listener) : List Nat := l.order.arrange l.sessions

/-- Whether no connection is being handled. -/
def isIdle (l : Listener) : Bool := l.connections.all (·.task ≠ .running)

/-- Binds the listening socket. The new signal is there even if that fails. -/
def start (l : Listener) : Call Listener Fault :=
  let bind : Event := .bind l.host l.port
  match l.binding.bind l.port with
  | .error f => { state := { l with gate := l.gate.renew }, events := [bind], error := some f }
  | .ok port =>
    { state := { l with gate := { l.gate.renew with acceptor := some { port } }, port }
      events := [bind, .log (.listening port)] }

/-- Stops accepting connections. -/
def shut (l : Listener) : Call Listener Fault :=
  let c := l.gate.shut
  { state := { l with gate := c.state }, events := c.events, error := c.error }

/-- Puts a turn of connection `n` in place; a connection that is over has no open session. -/
def put (l : Listener) (n : Nat) (t : Turn) : Listener :=
  { l with
    gate := t.gate
    connections := l.connections.set n t.connection
    sessions := if t.connection.task = .running then l.sessions else l.sessions.erase n }

/-- A turn of connection `n`, as an outcome. -/
def turn (l : Listener) (n : Nat) (t : Turn) : Listener × Outcome :=
  (l.put n t, { trace := Trace.of (.connection n) t.events })

/-- A turn of connection `n`, if there is such a connection and `f` finds something to act on. -/
def onConnection (l : Listener) (n : Nat) (f : Connection → Option Turn) : Listener × Outcome :=
  match l.connections[n]?.bind f with
  | some t => l.turn n t
  | none => (l, { ignored := true })

/-- The address of a peer whose address is not given: each connection has one of its own. -/
def standInPeer (n : Nat) : List Value :=
  [.text ("10.0.0.".toList ++ Text.ofNat (n + 1)), .int (5000 + n)]

/-- Accepts a connection, if connections are accepted. -/
def connect (l : Listener) (peer : Option (List Value)) (faults : FaultPlan) :
    Listener × Outcome :=
  if l.isListening then
    let n := l.connections.length
    let t := Connection.accept (peer.getD (standInPeer n)) faults l.directive l.gate
    { l with connections := l.connections ++ [t.connection], sessions := l.sessions ++ [n] }.turn n t
  else (l, { ignored := true })

/-- Drops the given sessions, up to the first that fails to drop. -/
def dropSessions : List Nat → Listener → Listener × Trace × Option Fault
  | [], l => (l, [], none)
  | n :: rest, l =>
    match l.connections[n]? with
    | none => dropSessions rest l
    | some c =>
      let r := c.session.abort
      match r.error with
      | some f => (l, [], some f)
      | none =>
        let t := Connection.rest
          { connection := { c with session := r.state }, gate := l.gate, events := r.events }
        let d := dropSessions rest (l.put n t)
        (d.1, Trace.of (.connection n) t.events ++ d.2.1, d.2.2)

/-- Stops the listener and drops every open session; what remains is to wait for their ends. -/
def close (l : Listener) : Listener × Trace × Option Fault :=
  let c := l.shut
  let trace := Trace.of .listener c.events
  match c.error with
  | some f => (c.state, trace, some f)
  | none =>
    let d := dropSessions l.openSessions c.state
    (d.1, trace ++ d.2.1, d.2.2)

/-- Begins to serve: starts the listener unless it was started before, and waits for the signal. -/
def serve (l : Listener) : Listener × Trace :=
  if l.gate.acceptor.isSome then ({ l with serving := some (.awaiting l.gate.starts) }, [])
  else
    let c := l.start
    ({ c.state with serving := some (c.error.elim (.awaiting c.state.gate.starts) .failed) },
      Trace.of .listener c.events)

/-- One step, before the waiters take notice. -/
def act (l : Listener) : Step → Listener × Outcome
  | .start =>
    let c := l.start
    (c.state, { trace := Trace.of .listener c.events, error := c.error })
  | .shutdown =>
    let c := l.shut
    (c.state, { trace := Trace.of .listener c.events, error := c.error })
  | .serve =>
    let r := l.serve
    (r.1, { trace := r.2 })
  | .close =>
    let r := l.close
    ({ r.1 with closing := some (r.2.2.elim .draining .failed) }, { trace := r.2.1 })
  | .connect peer faults => l.connect peer faults
  | .receive n data eof =>
    l.onConnection n fun c =>
      if c.inboundOpen then some (c.receive l.directive l.gate data eof) else none
  | .endInbound n =>
    l.onConnection n fun c => if c.inboundOpen then some (c.endInbound l.gate) else none
  | .reset n f =>
    l.onConnection n fun c => if c.inboundOpen then some (c.reset l.gate f) else none
  | .wake n =>
    l.onConnection n fun c =>
      match c.job with
      | .asleep left => some (c.wake l.gate left)
      | _ => none
  | .setFault n point f =>
    l.onConnection n fun c =>
      some { connection := { c with session.faults := c.session.faults.set f point }, gate := l.gate }
  | .setCloseFault f => ({ l with gate := l.gate.setCloseFault f }, {})

/-- The waiters take notice of the signal and of the sessions that have ended. -/
def notice (l : Listener) : Listener :=
  { l with
    serving := l.serving.map (Waiter.settle l.gate l.isIdle)
    closing := l.closing.map (Waiter.settle l.gate l.isIdle) }

/-- One step. -/
def step (l : Listener) (s : Step) : Listener × Outcome :=
  let r := l.act s
  (r.1.notice, r.2)

/-- The states and outcomes after each of a list of steps. -/
def run (l : Listener) : List Step → List (Listener × Outcome)
  | [] => []
  | s :: rest =>
    let r := l.step s
    r :: run r.1 rest

end Listener
end ScriptedServer
