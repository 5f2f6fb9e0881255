import ScriptedServer.Text.Basic
import ScriptedServer.Text.DecimalDigit

/-!
The command line grammar: operands, one option `--host` with a value, and words that look like
options but are none, which are kept as extras. `--` ends the options. Only the first unbroken run
of operands counts as such; operands behind a later option join the extras, in their order.
-/

namespace ScriptedServer

/-- What one word of the command line is. -/
inductive Token where
  | operand (word : Text)
  | separator
  | host (value : Option Text)
  | unknown (word : Text)
  deriving DecidableEq

namespace Token

/-- Whether a text is a number of decimal digits of any script, perhaps with a fraction. -/
def isUnsigned (t : Text) : Bool :=
  match t.dropWhile Text.isDecimalDigit with
  | [] => !t.isEmpty
  | '.' :: fraction => !fraction.isEmpty && fraction.all Text.isDecimalDigit
  | _ => false

/-- Whether a word is a negative number; one line feed may end it. -/
def isNegative : Text → Bool
  | '-' :: rest => isUnsigned (if rest.getLast? = some '\n' then rest.dropLast else rest)
  | _ => false

/-- Whether a name stands for `--host`: any of its beginnings from `--` on does. -/
def isHost (name : Text) : Bool := "--".toList.isPrefixOf name && name.isPrefixOf "--host".toList

/-- The value that a word attaches to an option behind `=`, if there is one. A `--` there is no
value of its own: it is taken away and leaves the empty one. So it is in those revisions of the option
syntax that take a `--` out of the values of options too; others keep it as a value like any other. -/
def attached (word : Text) : Option Text :=
  (word.dropWhile (· ≠ '=')).tail?.map fun value => if value = "--".toList then [] else value

/-- One word before any `--`. The option comes first; then a single dash, a negative number and a
word with a space in it are operands although they start with a dash. -/
def ofWord (word : Text) : Token :=
  if word.head? ≠ some '-' then .operand word
  else if isHost (word.takeWhile (· ≠ '=')) then .host (attached word)
  else if word = ['-'] ∨ isNegative word ∨ ' ' ∈ word then .operand word
  else .unknown word

/-- The words of a command line: behind the first `--` all are operands. -/
def ofWords : List Text → List Token
  | [] => []
  | word :: rest =>
    if word = "--".toList then .separator :: rest.map .operand else ofWord word :: ofWords rest

end Token

/-- A command line taken apart: the value of the last `--host`, the first run of operands, and
everything else. -/
structure Arguments where
  host : Option Text := none
  operands : List Text := []
  extras : List Text := []
  deriving DecidableEq

/-- Where the reading stands: before, within or after the first run of operands. -/
inductive OperandRun where | before | within | after
  deriving DecidableEq

namespace Arguments

/-- An option ends the run of operands. -/
def broken : OperandRun → OperandRun
  | .before => .before
  | _ => .after

/-- An operand, in front of what follows it. -/
def addOperand (run : OperandRun) (word : Text) (a : Arguments) : Arguments :=
  if run = .after then { a with extras := word :: a.extras }
  else { a with operands := word :: a.operands }

/-- A value of `--host`, in front of what follows it: a later value wins. -/
def addHost (value : Text) (a : Arguments) : Arguments := { a with host := a.host.or (some value) }

/-- The run that an operand is part of, or follows. -/
def entered : OperandRun → OperandRun
  | .after => .after
  | _ => .within

/-- Takes words apart, or finds a `--host` with no value behind it (`none`). A separator within the
first run of operands is dropped, a later one is an extra. -/
def collect : OperandRun → List Token → Option Arguments
  | _, [] => some {}
  | run, .operand word :: rest => (collect (entered run) rest).map (addOperand run word)
  | run, .separator :: rest =>
    (collect (entered run) rest).map fun a =>
      if run = .after then { a with extras := "--".toList :: a.extras } else a
  | run, .unknown word :: rest =>
    (collect (broken run) rest).map fun a => { a with extras := word :: a.extras }
  | run, .host (some value) :: rest => (collect (broken run) rest).map (addHost value)
  | run, .host none :: .operand value :: rest => (collect (broken run) rest).map (addHost value)
  | _, .host none :: _ => none

/-- A command line taken apart, or `none` if a `--host` has no value. -/
def ofWords? (words : List Text) : Option Arguments := collect .before (Token.ofWords words)

end Arguments
end ScriptedServer
