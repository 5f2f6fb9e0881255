import ScriptedServer.Action

/-!
A directive is a list of actions, and a request carries one between the marker `ACT[` and the first
`]` behind it. All before the first marker and behind that bracket is ignored. A block with nothing
in it is the empty directive; any other holds one action for each piece between commas.
-/

namespace ScriptedServer

/-- What a session is asked to do: actions, in order. -/
abbrev Directive := List Action

namespace Directive

/-- The text behind the first marker `ACT[`. -/
def afterMarker? : Text → Option Text
  | 'A' :: 'C' :: 'T' :: '[' :: rest => some rest
  | _ :: rest => afterMarker? rest
  | [] => none

/-- The text between the first marker and the first `]` behind it. -/
def body? (t : Text) : Option Text :=
  match afterMarker? t with
  | none => none
  | some rest => if ']' ∈ rest then some (rest.takeWhile (· ≠ ']')) else none

/-- The actions of a block, from the text between its brackets. -/
def ofBody (body : Text) : Directive :=
  if body = [] then [] else (Text.split ',' body).map Action.ofToken

/-- The directive that a text carries, if it carries one. -/
def ofText? (t : Text) : Option Directive := (body? t).map ofBody

/-- The directive that received bytes carry. -/
def ofBytes? (bs : List UInt8) : Option Directive := ofText? (Utf8.decode bs)

/-- How the actions of a directive are written between the brackets. -/
def render (d : Directive) : Text := [','].intercalate (d.map Action.render)

end Directive
end ScriptedServer
