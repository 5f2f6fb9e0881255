import ScriptedServer.Settings

/-!
The usage text, and the shorter one that a refused option gets.
-/

namespace ScriptedServer.Usage

/-- What the usage text says about a kind of action. -/
def explain : Kind → Text
  | .close => " - close connection".toList
  | .data => "=length - write <length> of random data".toList
  | .send => "=resp - write <resp> string (URL-encoding is supported)".toList
  | .wait => "=time - wait for <time> msecs".toList
  | .shut => " - stop the server from listening (won't close active connections)".toList

/-- The lines of the usage text. -/
def lines : List Text :=
  ["TCP server for testing purposes. Behavior is controlled by global parameter or request text.",
    "Usage:",
    "actserver [port] [actionset] [--host HOST]"].map String.toList
  ++ ["  port - port number to listen (default is ".toList ++ Text.ofNat defaultPort ++ [')']]
  ++ ["  actionset - global set or actions for all clients (see below)",
    "Request must contain action set:",
    " \"ACT[\"<set>\"]\"",
    "   <set> ::= \"\" | <action>[=<param>][,<action>[=<param>]]...",
    "   After executing all actions connection is left active.",
    "   If <set> is empty, server just does nothing with the connection",
    "   <action>:"].map String.toList
  ++ Kind.all.map fun k => "    - ".toList ++ k.word ++ explain k

/-- The usage text, without a line feed at its end. -/
def text : Text := ['\n'].intercalate lines

/-- What is printed when the command line is refused. -/
def refusal : Text :=
  "usage: actserver [--host HOST] [args ...]\nactserver: error: ".toList
    ++ SettingsError.hostWithoutValue.message ++ ['\n']

end ScriptedServer.Usage
