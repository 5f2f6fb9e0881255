import ScriptedServer.Directive
import ScriptedServer.Gate
import ScriptedServer.Session

/-!
Directives are carried out one action at a time. A single function attempts an action; two drivers
share it. `execute` goes through a whole directive as if every sleep returned at once, and accounts
for the actions completed. `advance` stops behind each sleep and keeps the actions that are left, so
that a listener can go on with them when the sleep is over.
-/

namespace ScriptedServer

/-- What an action works on: its session, and the gate of the listener if there is one. -/
structure Stage where
  session : Session
  gate : Option Gate

namespace Stage

/-- A call on the session, made for an action. -/
def onSession (st : Stage) (a : Action) (c : Call Session Fault) : Call Stage Trouble where
  state := { st with session := c.state }
  events := c.events
  error := c.error.map (Trouble.ofFault a)

/-- A call on the gate, made for an action. -/
def onGate (st : Stage) (a : Action) (c : Call Gate Fault) : Call Stage Trouble where
  state := { st with gate := some c.state }
  events := c.events
  error := c.error.map (Trouble.ofFault a)

end Stage

/-- Performs an action of a known kind. What is to be written is fetched in front of the write, and a
supply that fails is not met by the action: its fault is passed on, of whatever kind it is. -/
def Action.perform (a : Action) (st : Stage) : Kind → Call Stage Trouble
  | .close => st.onSession a st.session.close
  | .data =>
    match a.count with
    | .error t => { state := st, error := some t }
    | .ok length =>
      match st.session.supply.random length with
      | some f => { state := st, error := some (.fault f) }
      | none => st.onSession a (st.session.write (.random length))
  | .send =>
    match a.param.bind st.session.supply.encoding with
    | some f => { state := st, error := some (.fault f) }
    | none => st.onSession a (st.session.write (.bytes (Action.payload a.param)))
  | .wait =>
    match a.count with
    | .error t => { state := st, error := some t }
    | .ok msecs =>
      match Binary64.ofRatio? msecs 1000 with
      | none => { state := st, error := some (.fault .quotientTooLarge) }
      | some duration => { state := st, events := [.sleep duration] }
  | .shut =>
    match st.gate with
    | none => { state := st, events := [.log .nothingToShut] }
    | some g => st.onGate a g.shut

/-- Attempts an action; one with an unknown name fails before it is announced. -/
def Action.attempt (a : Action) (st : Stage) : Call Stage Trouble :=
  match a.kind with
  | none => { state := st, error := some (.error (.unknown a.name)) }
  | some k =>
    let c := a.perform st k
    { c with events := .log (.executing a) :: c.events }

/-- How a directive ends: all its actions done, stopped at an error, or left by a fault. -/
inductive Ending where
  | done
  | aborted (e : ActionError)
  | escaped (f : Fault)
  deriving DecidableEq

/-- Whether an error is answered by dropping the connection: a failed call is not. -/
def ActionError.drops : ActionError → Bool
  | .failed .. => false
  | _ => true

/-- A stretch of a directive: the stage behind it, what was seen, and what came of it. -/
structure Run (ρ : Type) where
  stage : Stage
  events : List Event
  result : ρ

/-- A run with more seen in front of it. -/
def Run.after {ρ : Type} (r : Run ρ) (events : List Event) : Run ρ :=
  { r with events := events ++ r.events }

/-- Ends a directive at trouble: an error is logged, and most errors drop the connection. -/
def Trouble.conclude (t : Trouble) (st : Stage) : Run Ending :=
  match t with
  | .fault f => ⟨st, [], .escaped f⟩
  | .error e =>
    if e.drops then
      let c := st.session.abort
      ⟨{ st with session := c.state }, .log (.actionError e) :: c.events,
        c.error.elim (.aborted e) .escaped⟩
    else ⟨st, [.log (.actionError e)], .aborted e⟩

/-- Where a directive stands: asleep with actions left, or ended. -/
inductive Progress where
  | asleep (rest : List Action)
  | ended (e : Ending)
  deriving DecidableEq

namespace Directive

/-- Goes on with actions until one has fallen asleep, or to the end of the directive. -/
def advance : List Action → Stage → Run Progress
  | [], st => ⟨st, [], .ended .done⟩
  | a :: rest, st =>
    let c := a.attempt st
    match c.error with
    | some t =>
      let r := t.conclude c.state
      ⟨r.stage, c.events ++ r.events, .ended r.result⟩
    | none =>
      if a.kind = some .wait then ⟨c.state, c.events, .asleep rest⟩
      else (advance rest c.state).after c.events

/-- Begins a directive; the empty one is done at once. -/
def begin (d : Directive) (st : Stage) : Run Progress :=
  if d = [] then ⟨st, [.log .nothingToDo], .ended .done⟩ else advance d st

/-- Goes through actions without stopping, and gives those completed. -/
def complete : List Action → Stage → Run (List Action × Ending)
  | [], st => ⟨st, [], [], .done⟩
  | a :: rest, st =>
    let c := a.attempt st
    match c.error with
    | some t =>
      let r := t.conclude c.state
      ⟨r.stage, c.events ++ r.events, [], r.result⟩
    | none =>
      let r := (complete rest c.state).after c.events
      { r with result := (a :: r.result.1, r.result.2) }

/-- Executes a directive from beginning to end. -/
def execute (d : Directive) (st : Stage) : Run (List Action × Ending) :=
  if d = [] then ⟨st, [.log .nothingToDo], [], .done⟩ else complete d st

end Directive

/-- How far an execution has come. -/
inductive Status where | idle | running | done | aborted
  deriving DecidableEq

namespace Status

/-- Every status. -/
def all : List Status := [idle, running, done, aborted]

/-- The name of a status. -/
def word : Status → Text
  | idle => "idle".toList
  | running => "running".toList
  | done => "done".toList
  | aborted => "aborted".toList

/-- The status with a given name; a value that names none is quoted. -/
def ofValue (v : Value) : Except Fault Status :=
  match all.find? fun s => v = .text s.word with
  | some s => .ok s
  | none =>
    .error { kind := .value, message := v.quoted ++ " is not a valid ExecutionState".toList }

end Status

/-- The account of an execution: how far it has come, the actions completed, and the error that
stopped it. -/
structure Account where
  status : Status := .idle
  completed : List Action := []
  error : Option ActionError := none
  deriving DecidableEq

namespace Account

/-- Whether every action was completed. -/
def success (a : Account) : Bool := a.status = .done

/-- The account of a run, unless a fault escaped from it. -/
def ofEnding (completed : List Action) : Ending → Except Fault Account
  | .done => .ok { status := .done, completed }
  | .aborted e => .ok { status := .aborted, completed, error := some e }
  | .escaped f => .error f

end Account
end ScriptedServer
