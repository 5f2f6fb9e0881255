import ScriptedServer.Text.Blank
import ScriptedServer.Text.Percent
import ScriptedServer.Text.Utf8

/-!
An action is one entry of a directive: a name and perhaps a parameter, as they were written. Its
kind is read off the name alone; the parameter is looked at only when the action is performed.
-/

namespace ScriptedServer

/-- The kinds of action that a directive may ask for. -/
inductive Kind where | close | data | send | wait | shut
  deriving DecidableEq

namespace Kind

/-- Every kind, in the order in which the usage text explains them. -/
def all : List Kind := [close, data, send, wait, shut]

/-- The name that asks for a kind. -/
def word : Kind → Text
  | close => "CLOSE".toList
  | data => "DATA".toList
  | send => "SEND".toList
  | wait => "WAIT".toList
  | shut => "SHUT".toList

/-- The kind that a name asks for, if it is exactly one of the five words. -/
def ofWord? (name : Text) : Option Kind := all.find? fun k => k.word = name

end Kind

/-- One entry of a directive. -/
structure Action where
  name : Text
  param : Option Text := none
  deriving DecidableEq

namespace Action

/-- The entry written `name` or `name=param`; later equals signs belong to the parameter. -/
def ofToken (token : Text) : Action where
  name := token.takeWhile (· ≠ '=')
  param := (token.dropWhile (· ≠ '=')).tail?

/-- How an action is written. -/
def render (a : Action) : Text :=
  match a.param with
  | none => a.name
  | some p => a.name ++ '=' :: p

/-- The kind of an action, if its name is known. -/
def kind (a : Action) : Option Kind := Kind.ofWord? a.name

/-- The action as the log shows it: a parameter that is not empty follows the name, trimmed. -/
def describe (a : Action) : Text :=
  match a.param with
  | none | some [] => a.name
  | some p => a.name ++ ": ".toList ++ p.trim

/-- The bytes that a parameter stands for: its UTF-8 bytes, percent-decoded. -/
def payload (param : Option Text) : List UInt8 :=
  match param with
  | none => []
  | some p => Percent.decode (Utf8.encode p)

end Action
end ScriptedServer
