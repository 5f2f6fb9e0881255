import ScriptedServer.Main
import ScriptedServer.Proofs.Attempt
import ScriptedServer.Proofs.Progress
import ScriptedServer.Proofs.Turn
import ScriptedServer.Proofs.Run
import ScriptedServer.Proofs.Isolation
import ScriptedServer.Proofs.Suspension
import ScriptedServer.Proofs.Duration
import ScriptedServer.Proofs.Escape
import ScriptedServer.Proofs.Effects
import ScriptedServer.Proofs.Course
import ScriptedServer.Proofs.Passage
import ScriptedServer.Proofs.History
import ScriptedServer.Proofs.Lifetime
import ScriptedServer.Proofs.Inbound
import ScriptedServer.Proofs.Calls
import ScriptedServer.Proofs.Silence
import ScriptedServer.Proofs.HalfClose
import ScriptedServer.Proofs.Block
import ScriptedServer.Proofs.ByteParsing
import ScriptedServer.Proofs.RoundTrip
import ScriptedServer.Proofs.Chronicle
import ScriptedServer.Proofs.Dismissal
import ScriptedServer.Proofs.Parting
import ScriptedServer.Proofs.Framing
import ScriptedServer.Proofs.Spelling
import ScriptedServer.Proofs.Stopping
import ScriptedServer.Proofs.Undisturbed
import ScriptedServer.Proofs.Waiting
import ScriptedServer.Proofs.Accounting
import ScriptedServer.Proofs.Closing
import ScriptedServer.Proofs.Decimal
import ScriptedServer.Proofs.CommandLine
import ScriptedServer.Proofs.Overtaking
import ScriptedServer.Proofs.Location
import ScriptedServer.Proofs.Scanning
import ScriptedServer.Proofs.Precedence
import ScriptedServer.Proofs.Hearing
