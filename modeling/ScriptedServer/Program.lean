import ScriptedServer.Listener
import ScriptedServer.Usage

/-!
The whole program: it reads its settings, starts a listener, serves until the listener is stopped
and every session has ended, and closes it. An interrupt closes the listener at once. A failure of the
settings and a fault of input and output are reported and become the exit status; any other fault
escapes.
-/

namespace ScriptedServer

/-- What the serving program meets: a step of its listener, or an interrupt. -/
inductive Input where
  | step (s : Step)
  | interrupt

/-- How the program ends. -/
inductive Exit where
  | status (code : Nat)
  /-- The command line was refused. -/
  | refused
  | escaped (f : Fault)
  | unfinished
  deriving DecidableEq

/-- The end of a program: how it ended, what it printed beside the log, and what was seen since the
last input that it outlived. -/
structure Finish where
  exit : Exit
  stdout : Text := []
  stderr : Text := []
  trace : Trace := []

/-- An input that the program outlived, what it showed, and the listener after it. -/
structure Entry where
  input : Input
  outcome : Outcome
  listener : Listener

/-- A program from its start on: what was seen when it came up, with the listener then, the inputs it
outlived, and its end. -/
structure Report where
  started : Option (Trace × Listener) := none
  entries : List Entry := []
  finish : Finish

/-- A listener that is being served until it is stopped and every session has ended. -/
structure Service where
  listener : Listener
  waiter : Waiter
  /-- Whether it was interrupted: the listener is closed, and only the sessions are waited for. -/
  interrupted : Bool := false

namespace Listener

/-- The connections that nothing more comes in on and that are still open: a sleep is pending on each. -/
def lingering (l : Listener) : List Nat :=
  l.openSessions.filter fun n => l.connections[n]?.any (!·.inboundOpen)

/-- What is seen of connections whose sleep is cut short: each is released. -/
def cutShort (l : Listener) (ns : List Nat) : Trace :=
  ns.flatMap fun n => l.connections[n]?.elim [] fun c => Trace.of (.connection n) c.finish.2

end Listener

namespace Program

/-- Whether a fault of serving is reported and ends the program with status 1. -/
def reports (f : Fault) : Bool := f.isExternal || f.kind = .overflow

/-- The end of serving, where a fault may have been met. -/
def finish (settings : Settings) (trace : Trace) : Option Fault → Finish
  | none => { exit := .status 0, trace }
  | some f =>
    if reports f then
      { exit := .status 1, trace
        stderr := "Failed to listen on ".toList ++ settings.host ++ ':' :: Text.ofNat settings.port
          ++ ": ".toList ++ f.text ++ ['\n'] }
    else { exit := .escaped f, trace }

/-- The end of serving that was interrupted: a fault of closing takes the place of the interrupt. -/
def shutDown (settings : Settings) (trace : Trace) : Option Fault → Finish
  | none => { exit := .status 0, trace := trace ++ [(.listener, .log .shuttingDown)] }
  | some f => finish settings trace (some f)

/-- An interrupt. If the signal is awaited the listener is closed, which waits for the sessions with a
pending sleep; if sessions are waited for already they are cut short. Sessions that still read when the
program ends are left as they are. -/
def interrupt (settings : Settings) (v : Service) : Sum (Entry × Service) Finish :=
  let l := v.listener
  let released := l.cutShort l.lingering
  if v.interrupted then .inr (shutDown settings released none)
  else if v.waiter = .draining then
    let c := l.shut
    .inr (shutDown settings (released ++ Trace.of .listener c.events) c.error)
  else
    let r := l.step .close
    match r.1.closing with
    | some (.failed f) =>
      -- nothing goes on behind the fault, so a session that was dropped does not take notice of it
      let trace := r.2.trace.filter fun x => x.1 = .listener ∨ x.2 = .abort
      .inr (shutDown settings (trace ++ r.1.cutShort l.lingering) (some f))
    | some .done => .inr (shutDown settings r.2.trace none)
    | _ =>
      .inl ({ input := .interrupt, outcome := r.2, listener := r.1 },
        { listener := r.1, waiter := .draining, interrupted := true })

/-- One input to a service: it goes on, or it comes to its end, with its listener closed. -/
def next (settings : Settings) (v : Service) : Input → Sum (Entry × Service) Finish
  | .interrupt => interrupt settings v
  | .step s =>
    let r := v.listener.step s
    let waiter := v.waiter.settle r.1.gate r.1.isIdle
    if waiter = .done then
      if v.interrupted then .inr (shutDown settings r.2.trace none)
      else
        let c := r.1.close
        .inr (finish settings (r.2.trace ++ c.2.1) c.2.2)
    else
      .inl ({ input := .step s, outcome := r.2, listener := r.1 },
        { v with listener := r.1, waiter })

/-- Serves through a list of inputs, as far as it takes. -/
def serve (settings : Settings) (v : Service) : List Input → List Entry × Finish
  | [] => ([], { exit := .unfinished })
  | i :: rest =>
    match next settings v i with
    | .inr f => ([], f)
    | .inl (entry, v') =>
      let r := serve settings v' rest
      (entry :: r.1, r.2)

/-- What is seen when the listener is up: how many actions every session will run. -/
def announce (settings : Settings) : List Event :=
  match settings.directive with
  | none => []
  | some d => [.log (.globalDirective d.length)]

/-- Starts to serve: what was seen and the service, or the end of a program that cannot listen. -/
def start (settings : Settings) (binding : Binding) (order : SetOrder) :
    Sum (Trace × Service) Finish :=
  let c := Listener.start
    { host := some settings.host, port := some settings.port, directive := settings.directive
      binding, order }
  match c.error with
  | some f => .inr (finish settings (Trace.of .listener c.events) (some f))
  | none =>
    .inl (Trace.of .listener (c.events ++ announce settings),
      { listener := c.state, waiter := .awaiting c.state.gate.starts })

/-- The end of a program that has no settings. -/
def refuse : SettingsError → Finish
  | .malformed text =>
    { exit := .status 1, stderr := "Action list is incorrect ".toList ++ text ++ ['\n'] }
  | .invalidPort value =>
    { exit := .status 1, stderr := (SettingsError.invalidPort value).message ++ ['\n'] }
  | .hostWithoutValue => { exit := .refused, stderr := Usage.refusal }
  | .fault f => { exit := .escaped f }

/-- The settings of a program, or its end if there is nothing to serve. -/
def configure (words : List Text) (env : Environment) : Sum Settings Finish :=
  match Settings.ofWords words env with
  | .error e => .inr (refuse e)
  | .ok settings =>
    if settings.showUsage then .inr { exit := .status 0, stdout := Usage.text ++ ['\n'] }
    else .inl settings

/-- Runs the program with a command line, an environment and a list of inputs. -/
def run (words : List Text) (env : Environment) (binding : Binding) (inputs : List Input)
    (order : SetOrder := .ofAcceptance) : Report :=
  match configure words env with
  | .inr f => { finish := f }
  | .inl settings =>
    match start settings binding order with
    | .inr f => { finish := f }
    | .inl (trace, v) =>
      let r := serve settings v inputs
      { started := some (trace, v.listener), entries := r.1, finish := r.2 }

end Program
end ScriptedServer
