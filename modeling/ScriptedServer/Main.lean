import ScriptedServer.Program
import Std.Async.DNS
import Std.Async.Signal
import Std.Async.TCP
import Std.Async.Timer
import Std.Sync.Channel
import Std.Time

/-!
The command line. All that happens to the sockets, the clock and the keyboard is put into one queue
of news, and each piece of news becomes an input of the program; what the program then shows is
carried out on the sockets. Nothing is decided here.
-/

namespace ScriptedServer.Outside

open Std.Async

/-- What is reported from outside: a connection to accept, or an input as it stands. -/
inductive News where
  | connection (socket : TCP.Socket.Client)
  | input (i : Input)

instance : Inhabited News := ⟨.input .interrupt⟩

/-- The queue of news. -/
abbrev Queue := Std.Channel News

/-- The sockets of the connections, by number. -/
abbrev Sockets := List (Nat × TCP.Socket.Client)

/-- What went wrong outside, as a fault. -/
def faultOf (e : IO.Error) : Fault where
  kind :=
    match e with
    | .timeExpired .. => .timeout
    | .permissionDenied .. => .permission
    | .resourceVanished .. => .connectionReset
    | _ => .system
  message := (toString e).toList

/-- Puts a piece of news into the queue. -/
def report (queue : Queue) (news : News) : IO Unit := do
  let _ ← queue.send news

/-- Does something beside all else. -/
def beside (act : Async Unit) : IO Unit := do
  let _ ← Async.toIO act

/-- Reports what comes in on a connection, up to its end. -/
partial def readFrom (queue : Queue) (n : Nat) (socket : TCP.Socket.Client) : Async Unit := do
  let received ←
    try
      let bytes ← socket.recv? readSize.toUInt64
      pure (Except.ok bytes)
    catch e => pure (Except.error (faultOf e))
  match received with
  | .ok (some bytes) =>
    report queue (.input (.step (.receive n bytes.toList false)))
    readFrom queue n socket
  | .ok none => report queue (.input (.step (.endInbound n)))
  | .error f => report queue (.input (.step (.reset n f)))

/-- Reports each connection that comes in at the listening socket. -/
partial def acceptFrom (queue : Queue) (server : TCP.Socket.Server) : Async Unit := do
  let socket ← server.accept
  report queue (.connection socket)
  acceptFrom queue server

/-- Ends the pending sleep of a connection once the time has passed. -/
def wakeLater (queue : Queue) (n : Nat) (duration : Binary64) : Async Unit := do
  sleep (.ofNat (1000 * Float.ofBits duration.bits.toUInt64).toUInt64.toNat)
  report queue (.input (.step (.wake n)))

/-- Reports the interrupt key, each time that it is pressed. -/
partial def awaitInterrupt (queue : Queue) : Async Unit := do
  let waiter ← Signal.Waiter.mk .sigint false
  let _ ← await (← waiter.wait)
  report queue (.input .interrupt)
  awaitInterrupt queue

/-- How the log writes the time. -/
def timeFormat : String := "uuuu-MM-dd'T'HH:mm:ss.SSSSSS"

/-- Prints a line of the log behind the current time. -/
def printLine (line : LogLine) : IO Unit := do
  let now ← Std.Time.PlainDateTime.now
  let out ← IO.getStdout
  out.putStrLn ("[" ++ now.format timeFormat ++ "] " ++ String.ofList line.text)
  out.flush

/-- Writes on a socket; random output is made in blocks of bounded size. -/
partial def writeTo (socket : TCP.Socket.Client) : Output → IO Unit
  | .bytes bs => (socket.send ⟨bs.toArray⟩).block
  | .random length => do
    let size := min length readSize
    if 0 < size then
      (socket.send (← IO.getRandomBytes size.toUSize)).block
      writeTo socket (.random (length - size))

/-- Carries out one event of a connection; a socket that fails is reported as reset. -/
def carryOut (queue : Queue) (sockets : Sockets) (n : Nat) (e : Event) : IO Sockets := do
  let some socket := sockets.lookup n | return sockets
  try
    match e with
    | .write output => writeTo socket output
    | .writeEof => socket.shutdown.block
    | .sleep duration => beside (wakeLater queue n duration)
    | .close | .abort =>
      socket.shutdown.block
      return sockets.filter (·.1 ≠ n)
    | _ => pure ()
  catch e => report queue (.input (.step (.reset n (faultOf e))))
  return sockets

/-- Carries out all that was seen, in order. -/
def carryOutAll (queue : Queue) (sockets : Sockets) (trace : Trace) : IO Sockets :=
  trace.foldlM (fun sockets (origin, e) => do
    match e, origin with
    | .log line, _ =>
      printLine line
      return sockets
    | e, .connection n => carryOut queue sockets n e
    | _, .listener => return sockets) sockets

/-- The end of the program: its messages and its status. -/
def conclude (f : Finish) : IO UInt32 := do
  (← IO.getStdout).putStr (String.ofList f.stdout)
  (← IO.getStderr).putStr (String.ofList f.stderr)
  match f.exit with
  | .status code => return code.toUInt32
  | .refused => return 2
  | .escaped f => throw (IO.userError (String.ofList f.text))
  | .unfinished => return 0

/-- The parts of the address of a peer; one that is gone already has none. -/
def peerOf (socket : TCP.Socket.Client) : IO (List Value) := do
  match ← EIO.toBaseIO socket.getPeerName with
  | .ok (.v4 a) => return [.text (toString a.addr).toList, .int a.port.toNat]
  | .ok (.v6 a) => return [.text (toString a.addr).toList, .int a.port.toNat]
  | .error _ => return []

/-- Serves the news until the program ends. -/
partial def attend (settings : Settings) (queue : Queue) (v : Service) (sockets : Sockets) :
    IO UInt32 := do
  let news ← queue.sync.recv
  let i ← match news with
    | .input i => pure i
    | .connection socket =>
      let peer ← peerOf socket
      pure (.step (.connect (some peer) { supply := .bounded sizeLimit }))
  let n := v.listener.connections.length
  let sockets := match news with
    | .connection socket => (n, socket) :: sockets
    | .input _ => sockets
  match Program.next settings v i with
  | .inl (entry, v') =>
    if let .connection socket := news then
      if !entry.outcome.ignored then beside (readFrom queue n socket)
    attend settings queue v' (← carryOutAll queue sockets entry.outcome.trace)
  | .inr f =>
    let _ ← carryOutAll queue sockets f.trace
    conclude f

/-- Binds the listening socket of the settings, and gives its port. -/
def bindTo (settings : Settings) : IO (TCP.Socket.Server × Nat) := do
  let server ← TCP.Socket.Server.mk
  let hosts : Array Std.Net.IPAddr ← (DNS.getAddrInfo (String.ofList settings.host) "").block
  let address : Std.Net.SocketAddress ←
    match hosts.toList.head? with
    | some (.v4 addr) => pure (.v4 ⟨addr, settings.port.toUInt16⟩)
    | some (.v6 addr) => pure (.v6 ⟨addr, settings.port.toUInt16⟩)
    | none => throw (IO.userError "host not found")
  server.bind address
  server.listen 128
  match ← server.getSockName with
  | .v4 a => return (server, a.port.toNat)
  | .v6 a => return (server, a.port.toNat)

/-- A variable of the environment, as text. -/
def readVariable (name : String) : IO (Option Text) := do
  return (← IO.getEnv name).map String.toList

/-- Runs the program on real sockets. -/
def serve (settings : Settings) : IO UInt32 := do
  let bound ← EIO.toBaseIO (bindTo settings)
  let binding : Binding :=
    match bound with
    | .ok (_, port) => .ports [port]
    | .error e => .fails (faultOf e)
  match Program.start settings binding .ofAcceptance with
  | .inr f => conclude f
  | .inl (trace, v) =>
    let queue : Queue ← Std.Channel.new
    let sockets ← carryOutAll queue [] trace
    if let .ok (server, _) := bound then beside (acceptFrom queue server)
    beside (awaitInterrupt queue)
    attend settings queue v sockets

end ScriptedServer.Outside

open ScriptedServer in
/-- Reads the settings from the command line and the environment, and serves. -/
def main (args : List String) : IO UInt32 := do
  let env : Environment :=
    { host := ← Outside.readVariable "ACTSERVER_HOST"
      port := ← Outside.readVariable "ACTSERVER_PORT"
      actions := ← Outside.readVariable "ACTSERVER_ACTIONS" }
  match Program.configure (args.map String.toList) env with
  | .inl settings => Outside.serve settings
  | .inr f => Outside.conclude f
