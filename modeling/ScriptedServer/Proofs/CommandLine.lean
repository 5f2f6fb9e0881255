import ScriptedServer.Program
import ScriptedServer.Proofs.Block
import ScriptedServer.Proofs.Closing
import ScriptedServer.Proofs.Decimal

/-!
What the program makes of its command line and environment. The settings are read off a list of texts,
in order, and the first that cannot be read decides (`Settings.readings`). A port that is none and a text
without a block end the program with status 1 before anything is bound. A numeral with more digits than
are read is not answered for: it gets out as a fault, be it a port with zeros in front or none at all.
`run_orderly_iff` says that coming to such a numeral is the only way not to end in order.
-/

namespace ScriptedServer

/-! ### What the settings are read from -/

/-- The error of a result, if it is one. -/
def SettingsError.of? {α : Type} : Except SettingsError α → Option SettingsError
  | .ok _ => none
  | .error e => some e

/-- A text that settings are read from: it is to be a port, or to carry a directive. -/
inductive Reading where
  | port (t : Text)
  | directive (t : Text)

namespace Reading

/-- An argument is to be a port if it is a numeral. -/
def ofWord (word : Text) : Reading :=
  if Numeral.isNumeral word then port word else directive word

/-- Whether a text is what it is to be: a number from 0 to 65535, written with however many digits and
perhaps with blanks around it, or a text with a block. -/
def Sound : Reading → Prop
  | port t => Numeral.isNumeral t.trim = true ∧ Numeral.value t.trim ≤ maxPort
  | directive t => ∃ pre body post, t = pre ++ Directive.marker ++ (body ++ ']' :: post)

/-- Whether a text is a numeral with more digits than are read. -/
def Overlong : Reading → Prop
  | port t => Numeral.isNumeral t.trim = true ∧ Numeral.digitLimit < t.trim.length
  | directive _ => False

/-- What the program has to say about a text that is not what it is to be. -/
def complaint : Reading → Text
  | port t => SettingsError.invalidPortText (Value.text t).quoted
  | directive t => "Action list is incorrect ".toList ++ t

/-- What reading a text fails with. -/
def error? : Reading → Option SettingsError
  | port t => SettingsError.of? (readPort (.text t))
  | directive t => SettingsError.of? (Directive.require t)

variable {r : Reading}

theorem error?_overlong (h : r.Overlong) :
    ∃ digits, r.error? = some (.fault (.tooManyDigits digits)) := by
  cases r with
  | directive t => exact h.elim
  | port t =>
    refine ⟨t.trim.length, ?_⟩
    rw [error?, readPort_fault_iff.2 (.inr ⟨t, rfl, Numeral.isNumeral_iff_digits.1 h.1, h.2, rfl⟩)]
    rfl

/-- A text of which not too many digits are to be read is read if it is what it is to be, and else the
program has to say so. -/
theorem error?_not_overlong (h : ¬ r.Overlong) :
    r.Sound ∧ r.error? = none ∨ ¬ r.Sound ∧ ∃ e, r.error? = some e
      ∧ Program.refuse e = { exit := .status 1, stderr := r.complaint ++ ['\n'] } := by
  cases r with
  | port t =>
    rw [error?]
    by_cases hn : Numeral.isNumeral t.trim = true
    · have hl : t.trim.length ≤ Numeral.digitLimit := Nat.le_of_not_lt fun hl => h ⟨hn, hl⟩
      have hd : (Value.text t).Denotes (Numeral.value t.trim) :=
        Value.denotes_iff.2 ⟨t, rfl, Numeral.read_ok_iff.2 ⟨Numeral.denotes_value hn, hl⟩⟩
      by_cases hv : Numeral.value t.trim ≤ maxPort
      · rw [readPort_ok_iff.2 ⟨hd, hv⟩]
        exact .inl ⟨⟨hn, hv⟩, rfl⟩
      · rw [readPort_invalid_iff.2 ⟨rfl, .inl ⟨_, hd, Nat.lt_of_not_le hv⟩⟩]
        exact .inr ⟨fun hs => hv hs.2, .invalidPort (.text t), rfl, rfl⟩
    · rw [readPort_invalid_iff.2 ⟨rfl, .inr ⟨t, rfl, fun hd => hn (Numeral.isNumeral_iff_digits.2 hd)⟩⟩]
      exact .inr ⟨fun hs => hn hs.1, .invalidPort (.text t), rfl, rfl⟩
  | directive t =>
    rw [error?, Directive.require]
    cases hd : Directive.ofText? t with
    | none =>
      refine .inr ⟨?_, .malformed t, rfl, rfl⟩
      rintro ⟨pre, body, post, ht⟩
      exact Directive.ofText?_eq_none_iff.1 hd pre body post ht
    | some d =>
      refine .inl ⟨?_, rfl⟩
      by_contra hs
      have hnone := Directive.ofText?_eq_none_iff.2 fun pre body post ht => hs ⟨pre, body, post, ht⟩
      cases hd.symm.trans hnone

theorem error?_eq_none_iff : r.error? = none ↔ r.Sound ∧ ¬ r.Overlong := by
  by_cases ho : r.Overlong
  · obtain ⟨digits, he⟩ := error?_overlong ho
    rw [he]
    exact iff_of_false nofun fun h => h.2 ho
  · rcases error?_not_overlong ho with ⟨hs, he⟩ | ⟨hs, e, he, -⟩
    · exact iff_of_true he ⟨hs, ho⟩
    · rw [he]
      exact iff_of_false nofun fun h => hs h.1

end Reading

/-- What is read from the environment: the port unless one is given, and the actions unless a directive
is given or they are empty. -/
def Environment.readings (env : Environment) (portGiven directiveGiven : Bool) : List Reading :=
  (if portGiven then [] else [.port (env.port.getD (Text.ofNat defaultPort))])
    ++ (if directiveGiven ∨ env.actions.getD [] = [] then []
        else [.directive (env.actions.getD [])])

/-- What is read for the settings, in order: every argument, and then what the environment has to give
for whatever no argument is. Nothing is read for the usage text or from a refused command line. -/
def Settings.readings (words : List Text) (env : Environment) : List Reading :=
  if asksUsage words then []
  else
    match Arguments.ofWords? words with
    | none => []
    | some a =>
      let given := a.operands ++ a.extras
      given.map Reading.ofWord
        ++ env.readings (given.any Numeral.isNumeral) (!given.all Numeral.isNumeral)

/-! ### Reading them -/

namespace Given

variable {g g' : Given} {words : List Text} {env : Environment}

theorem read_error (g : Given) (word : Text) :
    SettingsError.of? (g.read word) = (Reading.ofWord word).error? := by
  rw [read, Reading.ofWord]
  split
  · rw [Reading.error?]
    cases readPort (.text word) <;> rfl
  · rw [Reading.error?]
    cases Directive.require word <;> rfl

/-- An argument that is read gives a port if it is a numeral, and else a directive. -/
theorem read_gives {word : Text} (h : g.read word = .ok g') :
    g'.port.isSome = (Numeral.isNumeral word || g.port.isSome)
      ∧ g'.directive.isSome = (!Numeral.isNumeral word || g.directive.isSome) := by
  rw [read] at h
  cases hn : Numeral.isNumeral word with
  | true =>
    rw [hn, if_pos rfl] at h
    cases hp : readPort (.text word) with
    | error e =>
      rw [hp] at h
      cases h
    | ok n =>
      rw [hp] at h
      cases h
      exact ⟨rfl, rfl⟩
  | false =>
    rw [hn, if_neg Bool.false_ne_true] at h
    cases hd : Directive.require word with
    | error e =>
      rw [hd] at h
      cases h
    | ok d =>
      rw [hd] at h
      cases h
      exact ⟨rfl, rfl⟩

/-- A scan fails as the first argument does that cannot be read. -/
theorem scan_error (g : Given) (words : List Text) :
    SettingsError.of? (scan g words) = (words.map Reading.ofWord).findSome? Reading.error? := by
  induction words generalizing g with
  | nil => rfl
  | cons word rest ih =>
    rw [List.map_cons, List.findSome?_cons, ← g.read_error word, scan]
    cases g.read word with
    | error e => rfl
    | ok g' => exact ih g'

/-- A scan that does not fail gives a port if some argument is a numeral, and a directive if one is
none. -/
theorem scan_gives (h : scan g words = .ok g') :
    g'.port.isSome = (words.any Numeral.isNumeral || g.port.isSome)
      ∧ g'.directive.isSome = (!words.all Numeral.isNumeral || g.directive.isSome) := by
  induction words generalizing g with
  | nil =>
    cases h
    exact ⟨rfl, rfl⟩
  | cons word rest ih =>
    rw [scan] at h
    cases hr : g.read word with
    | error e =>
      rw [hr] at h
      cases h
    | ok g₁ =>
      rw [hr] at h
      obtain ⟨hport, hdirective⟩ := ih h
      rw [hport, hdirective, (read_gives hr).1, (read_gives hr).2, List.any_cons, List.all_cons]
      cases Numeral.isNumeral word <;> simp

theorem port_error (g : Given) (env : Environment) :
    SettingsError.of? (g.port.elim env.readPort .ok) =
      (if g.port.isSome then [] else [Reading.port (env.port.getD (Text.ofNat defaultPort))]).findSome?
        Reading.error? := by
  cases g.port with
  | some n => rfl
  | none => simp [Reading.error?, Environment.readPort]

theorem directive_error (g : Given) (env : Environment) :
    SettingsError.of? (g.directive.elim env.directive fun d => .ok (some d)) =
      (if g.directive.isSome ∨ env.actions.getD [] = [] then []
        else [Reading.directive (env.actions.getD [])]).findSome? Reading.error? := by
  cases g.directive with
  | some d => simp [SettingsError.of?]
  | none =>
    rw [Option.elim_none, Environment.directive]
    cases env.actions.getD [] with
    | nil => simp [SettingsError.of?]
    | cons c t =>
      simp only [Option.isSome_none, Bool.false_eq_true, reduceCtorEq, or_self, if_false,
        List.findSome?_singleton, Reading.error?]
      cases Directive.require (c :: t) <;> rfl

/-- Settings fail as the first text does that the environment is asked for and that cannot be read. -/
theorem settings_error (g : Given) (host : Option Text) (env : Environment) :
    SettingsError.of? (g.settings host env) =
      (env.readings g.port.isSome g.directive.isSome).findSome? Reading.error? := by
  rw [Environment.readings, List.findSome?_append, ← port_error, ← directive_error, settings]
  cases g.port.elim env.readPort .ok with
  | error e => rfl
  | ok port => cases g.directive.elim env.directive fun d => .ok (some d) <;> rfl

/-- Settings that do not fail have the given host unless it is empty. -/
theorem settings_ok {host : Option Text} {s : Settings} (h : g.settings host env = .ok s) :
    ∃ port directive, s =
      { host := if host.getD [] = [] then env.hostText else host.getD [], port, directive } := by
  rw [settings] at h
  cases hp : g.port.elim env.readPort .ok with
  | error e =>
    rw [hp] at h
    cases h
  | ok port =>
    cases hd : g.directive.elim env.directive fun d => .ok (some d) with
    | error e =>
      rw [hp, hd] at h
      cases h
    | ok directive =>
      rw [hp, hd] at h
      cases h
      exact ⟨port, directive, rfl⟩

end Given

namespace Settings

variable {words : List Text} {env : Environment}

/-- A command line that is not refused fails as the first text does that cannot be read. -/
theorem ofWords_error {a : Arguments} (hu : asksUsage words = false)
    (ha : Arguments.ofWords? words = some a) :
    SettingsError.of? (ofWords words env) = (readings words env).findSome? Reading.error? := by
  rw [ofWords, readings, hu, if_neg Bool.false_ne_true, if_neg Bool.false_ne_true, ha]
  simp only [List.findSome?_append, ← Given.scan_error {}]
  cases hs : Given.scan {} (a.operands ++ a.extras) with
  | error e => rfl
  | ok g =>
    obtain ⟨hport, hdirective⟩ := Given.scan_gives hs
    rw [Option.isSome_none, Bool.or_false] at hport hdirective
    rw [← hport, ← hdirective, ← Given.settings_error g a.host env]
    rfl

/-- Settings come from a command line that is taken apart and whose arguments are all read. -/
theorem ofWords_ok {s : Settings} (hu : asksUsage words = false) (h : ofWords words env = .ok s) :
    ∃ a g, Arguments.ofWords? words = some a ∧ Given.scan {} (a.operands ++ a.extras) = .ok g
      ∧ g.settings a.host env = .ok s := by
  rw [ofWords, hu, if_neg Bool.false_ne_true] at h
  cases ha : Arguments.ofWords? words with
  | none =>
    rw [ha] at h
    cases h
  | some a =>
    rw [ha] at h
    simp only at h
    cases hs : Given.scan {} (a.operands ++ a.extras) with
    | error e =>
      rw [hs] at h
      cases h
    | ok g =>
      rw [hs] at h
      exact ⟨a, g, rfl, hs, h⟩

theorem ofWords_showUsage {s : Settings} (hu : asksUsage words = false)
    (h : ofWords words env = .ok s) : s.showUsage = false := by
  obtain ⟨a, g, -, -, hg⟩ := ofWords_ok hu h
  obtain ⟨port, directive, rfl⟩ := Given.settings_ok hg
  rfl

/-- Whether a command line is refused. -/
def Refused (words : List Text) : Prop :=
  asksUsage words = false ∧ Arguments.ofWords? words = none

end Settings

namespace Program

variable {words : List Text} {env : Environment} {settings : Settings}

/-- How a program is set up: it fails as the first text does that cannot be read, its command line is
refused, it shows the usage text, or it has something to serve. -/
inductive Configured (words : List Text) (env : Environment) : Sum Settings Finish → Prop
  | failed {e : SettingsError} (hr : ¬ Settings.Refused words)
      (he : (Settings.readings words env).findSome? Reading.error? = some e) :
      Configured words env (.inr (refuse e))
  | refused (hr : Settings.Refused words) (hn : Settings.readings words env = []) :
      Configured words env (.inr { exit := .refused, stderr := Usage.refusal })
  | usage (hr : ¬ Settings.Refused words) (hn : Settings.readings words env = []) :
      Configured words env (.inr { exit := .status 0, stdout := Usage.text ++ ['\n'] })
  | ready {settings : Settings} (hr : ¬ Settings.Refused words)
      (hn : (Settings.readings words env).findSome? Reading.error? = none) :
      Configured words env (.inl settings)

theorem configure_spec (words : List Text) (env : Environment) :
    Configured words env (configure words env) := by
  cases hu : Settings.asksUsage words with
  | true =>
    have hr : ¬ Settings.Refused words := fun h => by cases hu.symm.trans h.1
    rw [configure, Settings.ofWords, hu]
    exact .usage hr (by rw [Settings.readings, hu]; rfl)
  | false =>
    cases ha : Arguments.ofWords? words with
    | none =>
      rw [configure, Settings.ofWords, hu, ha]
      exact .refused ⟨hu, ha⟩ (by rw [Settings.readings, hu, ha]; rfl)
    | some a =>
      have hr : ¬ Settings.Refused words := fun h => by cases ha.symm.trans h.2
      have herror : _ = (Settings.readings words env).findSome? Reading.error? :=
        Settings.ofWords_error hu ha
      rw [configure]
      cases ho : Settings.ofWords words env with
      | error e =>
        rw [ho] at herror
        exact .failed hr herror.symm
      | ok settings =>
        rw [ho] at herror
        simp only [Settings.ofWords_showUsage hu ho, Bool.false_eq_true, if_false]
        exact .ready hr herror.symm

end Program

/-! ### Interrupts -/

/-- Whether an input is an interrupt. -/
def Input.isInterrupt : Input → Bool
  | .interrupt => true
  | .step _ => false

/-- How often a program is interrupted. -/
def interrupts (inputs : List Input) : Nat := inputs.countP Input.isInterrupt

theorem interrupts_cons (i : Input) (inputs : List Input) :
    interrupts (i :: inputs) = interrupts inputs + i.isInterrupt.toNat := by
  rw [interrupts, List.countP_cons]
  cases i <;> rfl

/-- The listener of a program that came up, behind the last input that the program outlived. -/
def Report.listener? (r : Report) : Option Listener :=
  r.started.map fun s => (r.entries.map Entry.listener).getLastD s.2

/-! ### Serving -/

namespace Program

/-- A listener that a run leads to in which no faults are set for closing but such as are reported. -/
def Answerable (l : Listener) : Prop :=
  ∃ host port directive binding order steps,
    l = (Listener.new host port directive binding order).after steps
      ∧ ∀ s ∈ steps, ∀ f, s.closingFault? = some f → reports f = true

section Answerable

variable {l : Listener} {f : Fault}

theorem Answerable.step (h : Answerable l) {s : Step}
    (hs : ∀ f, s.closingFault? = some f → reports f = true) : Answerable (l.step s).1 := by
  obtain ⟨host, port, directive, binding, order, steps, rfl, hsteps⟩ := h
  refine ⟨host, port, directive, binding, order, steps ++ [s], ?_, ?_⟩
  · rw [Listener.after_append, Listener.after_cons, Listener.after_nil]
  · exact List.forall_mem_append.2 ⟨hsteps, List.forall_mem_singleton.2 hs⟩

theorem Answerable.shut_error (h : Answerable l) (hf : l.shut.error = some f) : reports f = true := by
  obtain ⟨_, _, _, _, _, _, rfl, hsteps⟩ := h
  exact Listener.after_shut_error hsteps hf

theorem Answerable.close_error (h : Answerable l) (hf : l.close.2.2 = some f) :
    reports f = true := by
  obtain ⟨_, _, _, _, _, _, rfl, hsteps⟩ := h
  exact Listener.after_close_error hsteps hf

end Answerable

/-- Whether a program ends with status 0 or 1. -/
def Answers (f : Finish) : Prop := f.exit = .status 0 ∨ f.exit = .status 1

variable (settings : Settings) {v : Service}

theorem finish_answers {trace : Trace} {o : Option Fault} (h : ∀ f, o = some f → reports f = true) :
    Answers (finish settings trace o) := by
  cases o with
  | none => exact .inl rfl
  | some f => exact .inr (by rw [finish, if_pos (h f rfl)])

theorem shutDown_answers {trace : Trace} {o : Option Fault}
    (h : ∀ f, o = some f → reports f = true) : Answers (shutDown settings trace o) := by
  cases o with
  | none => exact .inl rfl
  | some f => exact finish_answers settings h

/-- A service that goes on. Once it was interrupted it does so for the sake of open sessions only. -/
structure Serving (v : Service) : Prop where
  answerable : Answerable v.listener
  lingers : v.interrupted = true → v.waiter = .draining ∧ v.listener.isIdle = false

/-- How an input takes a service on: it goes on, having been interrupted once if the input was an
interrupt, or it ends with status 0 or 1. -/
inductive Served (v : Service) (i : Input) : Sum (Entry × Service) Finish → Prop
  | goesOn {entry : Entry} {v' : Service} (hv : Serving v') (hl : entry.listener = v'.listener)
      (hi : v'.interrupted.toNat = v.interrupted.toNat + i.isInterrupt.toNat) :
      Served v i (.inl (entry, v'))
  | ends {f : Finish} (hf : Answers f) : Served v i (.inr f)

theorem Serving.interrupt (h : Serving v) : Served v .interrupt (interrupt settings v) := by
  rw [Program.interrupt]
  by_cases hi : v.interrupted = true
  · simp only [if_pos hi]
    exact .ends (.inl rfl)
  by_cases hd : v.waiter = .draining
  · simp only [if_neg hi, if_pos hd]
    exact .ends (shutDown_answers settings fun f => h.answerable.shut_error)
  simp only [if_neg hi, if_neg hd]
  -- the signal is awaited, and the interrupt is a close of the listener
  have hclosing : (v.listener.step .close).1.closing
      = some (Waiter.settle (v.listener.step .close).1.gate (v.listener.step .close).1.isIdle
          (v.listener.close.2.2.elim .draining .failed)) := rfl
  cases he : v.listener.close.2.2 with
  | some f =>
    rw [he] at hclosing
    simp only [hclosing, Option.elim, Waiter.settle]
    refine .ends (shutDown_answers settings ?_)
    rintro f' ⟨⟩
    exact h.answerable.close_error he
  | none =>
    rw [he] at hclosing
    cases hidle : (v.listener.step .close).1.isIdle with
    | true =>
      simp only [hclosing, hidle, Option.elim, Waiter.settle, if_true]
      exact .ends (.inl rfl)
    | false =>
      simp only [hclosing, hidle, Option.elim, Waiter.settle]
      have hclose : Answerable (v.listener.step .close).1 := h.answerable.step fun f hf => by cases hf
      refine .goesOn ⟨hclose, fun _ => ⟨rfl, hidle⟩⟩ rfl ?_
      rw [Bool.not_eq_true] at hi
      rw [hi]
      rfl

theorem Serving.step (h : Serving v) {s : Step}
    (hs : ∀ f, s.closingFault? = some f → reports f = true) :
    Served v (.step s) (next settings v (.step s)) := by
  have hstep := h.answerable.step hs
  rw [Program.next]
  simp only
  split
  · split
    · exact .ends (.inl rfl)
    · exact .ends (finish_answers settings fun f => hstep.close_error)
  · rename_i hopen
    refine .goesOn ⟨hstep, fun hi => ?_⟩ rfl rfl
    obtain ⟨hd, -⟩ := h.lingers hi
    rw [hd] at hopen ⊢
    cases hidle : (v.listener.step s).1.isIdle with
    | true => simp [hidle, Waiter.settle] at hopen
    | false => exact ⟨rfl, rfl⟩

theorem Serving.next (h : Serving v) {i : Input}
    (hi : ∀ s f, i = .step s → s.closingFault? = some f → reports f = true) :
    Served v i (next settings v i) := by
  cases i with
  | interrupt => exact h.interrupt settings
  | step s => exact h.step settings fun f => hi s f rfl

/-- A service ends with status 0 or 1, unless it still goes on; and then it was interrupted at most
once, and if it was a session is open behind the last input. -/
theorem Serving.serve (h : Serving v) {inputs : List Input}
    (hi : ∀ s f, .step s ∈ inputs → s.closingFault? = some f → reports f = true) :
    let r := serve settings v inputs
    let n := v.interrupted.toNat + interrupts inputs
    Answers r.2 ∨ r.2.exit = .unfinished ∧ n ≤ 1
      ∧ (n = 1 → ((r.1.map Entry.listener).getLastD v.listener).isIdle = false) := by
  induction inputs generalizing v with
  | nil =>
    refine .inr ⟨rfl, Bool.toNat_le _, fun hn => (h.lingers ?_).2⟩
    exact Bool.toNat_eq_one.1 hn
  | cons i rest ih =>
    have hfirst := h.next settings fun s f (he : i = _) => hi s f (by rw [he]; exact .head _)
    rw [Program.serve]
    generalize Program.next settings v i = r at hfirst
    cases hfirst with
    | ends hf => exact .inl hf
    | goesOn hv hl hn =>
      have hrest := ih hv fun s f hm => hi s f (.tail _ hm)
      rw [interrupts_cons, Nat.add_comm (interrupts rest), ← Nat.add_assoc, ← hn]
      simp only [List.map_cons, List.getLastD_cons, hl]
      exact hrest

/-- A program that can listen serves, and one that cannot ends with status 1 if it is to say why. -/
theorem start_spec {binding : Binding} (order : SetOrder)
    (hb : ∀ f, binding = .fails f → reports f = true) :
    (∃ trace v, start settings binding order = .inl (trace, v) ∧ Serving v ∧ v.interrupted = false)
      ∨ ∃ f, start settings binding order = .inr f ∧ f.exit = .status 1 := by
  let l := Listener.new (some settings.host) (some settings.port) settings.directive binding order
  have hstep : l.start.state = l.after [.start] := by
    cases binding <;> rfl
  have hanswerable : Answerable l.start.state :=
    ⟨_, _, _, _, _, [.start], hstep, List.forall_mem_singleton.2 fun _ => nofun⟩
  rw [start]
  split
  · rename_i f he
    have hf : binding = .fails f := by
      cases binding with
      | fails f' => exact congrArg Binding.fails (Option.some.inj he)
      | ports | asked => cases he
    exact .inr ⟨_, rfl, by rw [finish, if_pos (hb f hf)]⟩
  · exact .inl ⟨_, _, rfl, ⟨hanswerable, nofun⟩, rfl⟩

/-! ### Whole programs -/

/-- Whether a program ends in order: with status 0 or 1, unless its command line is refused or it still
serves; and if a text that its settings are read from is not what it is to be, with status 1, the
complaint about such a text, and nothing else that is seen of it. One that still serves has not been
interrupted, or once, and then a session is open. -/
structure Orderly (words : List Text) (env : Environment) (binding : Binding) (inputs : List Input)
    (order : SetOrder) : Prop where
  exits : let report := run words env binding inputs order
    report.finish.exit = .status 0 ∨ report.finish.exit = .status 1
      ∨ report.finish.exit = .refused ∧ Settings.Refused words
      ∨ report.finish.exit = .unfinished ∧ interrupts inputs ≤ 1
        ∧ ∃ l, report.listener? = some l ∧ (interrupts inputs = 1 → l.isIdle = false)
  unsound : (∃ r ∈ Settings.readings words env, ¬ r.Sound) →
    ∃ r ∈ Settings.readings words env, ¬ r.Sound ∧ run words env binding inputs order =
      { finish := { exit := .status 1, stderr := r.complaint ++ ['\n'] } }

/-- Whether the settings come to be read from a numeral with more digits than are read: all texts in
front of it are what they are to be. -/
def MeetsOverlong (words : List Text) (env : Environment) : Prop :=
  ∃ before r behind, Settings.readings words env = before ++ r :: behind
    ∧ (∀ r' ∈ before, r'.Sound) ∧ r.Overlong

section Overlong

variable {words : List Text} {env : Environment}

theorem not_meetsOverlong (h : ∀ r ∈ Settings.readings words env, ¬ r.Overlong) :
    ¬ MeetsOverlong words env := by
  rintro ⟨before, r, behind, hrs, -, ho⟩
  exact h r (by rw [hrs]; simp) ho

theorem MeetsOverlong.error (h : MeetsOverlong words env) : ∃ digits,
    (Settings.readings words env).findSome? Reading.error? = some (.fault (.tooManyDigits digits)) := by
  obtain ⟨before, r, behind, hrs, hbefore, hr⟩ := h
  rw [hrs]
  clear hrs
  induction before with
  | nil =>
    obtain ⟨digits, he⟩ := Reading.error?_overlong hr
    exact ⟨digits, by rw [List.nil_append, List.findSome?_cons, he]⟩
  | cons x before ih =>
    obtain ⟨hx, hrest⟩ := List.forall_mem_cons.1 hbefore
    rw [List.cons_append, List.findSome?_cons]
    by_cases ho : x.Overlong
    · -- a numeral of too many digits may well stand for a port
      obtain ⟨digits, he⟩ := Reading.error?_overlong ho
      exact ⟨digits, by rw [he]⟩
    · rw [Reading.error?_eq_none_iff.2 ⟨hx, ho⟩]
      exact ih hrest

/-- A program that comes to be read such a numeral is left by a fault. -/
theorem MeetsOverlong.escapes (h : MeetsOverlong words env) (binding : Binding)
    (inputs : List Input) (order : SetOrder) :
    ∃ f, (run words env binding inputs order).finish.exit = .escaped f := by
  obtain ⟨digits, he⟩ := h.error
  refine ⟨.tooManyDigits digits, ?_⟩
  have hc := configure_spec words env
  rw [run]
  generalize configure words env = c at hc
  cases hc with
  | failed _ he' =>
    cases he'.symm.trans he
    rfl
  | refused _ hn | usage _ hn =>
    rw [hn] at he
    cases he
  | ready _ hn => cases hn.symm.trans he

/-- A program that comes to be read no such numeral, and whose settings fail, has to say so of a text
that is not what it is to be. -/
theorem refuse_of_error (h : ¬ MeetsOverlong words env) {e : SettingsError}
    (he : (Settings.readings words env).findSome? Reading.error? = some e) :
    ∃ r ∈ Settings.readings words env, ¬ r.Sound
      ∧ refuse e = { exit := .status 1, stderr := r.complaint ++ ['\n'] } := by
  obtain ⟨before, r, behind, hrs, hr, hbefore⟩ := List.findSome?_eq_some_iff.1 he
  have hsound : ∀ r' ∈ before, r'.Sound := fun r' hr' =>
    (Reading.error?_eq_none_iff.1 (hbefore r' hr')).1
  have hm : r ∈ Settings.readings words env := by rw [hrs]; simp
  rcases Reading.error?_not_overlong fun ho => h ⟨before, r, behind, hrs, hsound, ho⟩ with
    ⟨-, hnone⟩ | ⟨hs, e', he', hrefuse⟩
  · cases hnone.symm.trans hr
  · obtain rfl := Option.some.inj (he'.symm.trans hr)
    exact ⟨r, hm, hs, hrefuse⟩

end Overlong

/-- A program whose settings come to be read from no numeral of too many digits ends in order. -/
theorem orderly_of_not_overlong {words : List Text} {env : Environment} {binding : Binding}
    {inputs : List Input} {order : SetOrder} (h : ¬ MeetsOverlong words env)
    (hb : ∀ f, binding = .fails f → reports f = true)
    (hi : ∀ s f, .step s ∈ inputs → s.closingFault? = some f → reports f = true) :
    Orderly words env binding inputs order := by
  have hc := configure_spec words env
  have hrun : ∀ {f : Finish}, configure words env = .inr f →
      run words env binding inputs order = { finish := f } := fun hf => by rw [run, hf]
  generalize hg : configure words env = c at hc
  cases hc with
  | failed _ he =>
    obtain ⟨r, hm, hs, hrefuse⟩ := refuse_of_error h he
    rw [hrefuse] at hg
    exact ⟨by rw [hrun hg]; exact .inr (.inl rfl), fun _ => ⟨r, hm, hs, hrun hg⟩⟩
  | refused hr hn =>
    refine ⟨by rw [hrun hg]; exact .inr (.inr (.inl ⟨rfl, hr⟩)), ?_⟩
    rw [hn]
    rintro ⟨r, hm, -⟩
    cases hm
  | usage _ hn =>
    refine ⟨by rw [hrun hg]; exact .inl rfl, ?_⟩
    rw [hn]
    rintro ⟨r, hm, -⟩
    cases hm
  | @ready settings _ hn =>
    constructor
    · rw [run, hg]
      rcases start_spec settings order hb with ⟨trace, v, hstart, hv, hfirst⟩ | ⟨f, hstart, hf⟩
      · have hserve := hv.serve settings hi
        simp only [hfirst, Bool.toNat_false, Nat.zero_add] at hserve
        simp only [hstart]
        rcases hserve with (he | he) | ⟨he, hn, hl⟩
        · exact .inl he
        · exact .inr (.inl he)
        · exact .inr (.inr (.inr ⟨he, hn, _, rfl, hl⟩))
      · simp only [hstart]
        exact .inr (.inl hf)
    · rintro ⟨r, hm, hs⟩
      exact absurd (Reading.error?_eq_none_iff.1 (List.findSome?_eq_none_iff.1 hn r hm)).1 hs

/-- An interrupted program serves on until the pending sleep has ended. -/
example :
    let exit (inputs : List Input) : Exit :=
      (run ["ACT[WAIT=5]".toList] {} .asked (.step (.connect none {}) :: inputs)).finish.exit
    exit [.interrupt] = .unfinished ∧ exit [.interrupt, .step (.wake 0)] = .status 0 := by
  decide

/-- Whatever the command line and the environment are, a program that can listen or has to say why it
cannot ends in order, exactly if its settings do not come to be read from a numeral of too many
digits. -/
theorem run_orderly_iff {words : List Text} {env : Environment} {binding : Binding}
    {inputs : List Input} {order : SetOrder} (hb : ∀ f, binding = .fails f → reports f = true)
    (hi : ∀ s f, .step s ∈ inputs → s.closingFault? = some f → reports f = true) :
    Orderly words env binding inputs order ↔ ¬ MeetsOverlong words env := by
  refine ⟨fun ho hm => ?_, fun h => orderly_of_not_overlong h hb hi⟩
  obtain ⟨f, hf⟩ := hm.escapes binding inputs order
  rcases ho.exits with he | he | ⟨he, -⟩ | ⟨he, -⟩ <;> cases hf.symm.trans he

/-- A port of the environment that is too great, with a socket that cannot be bound nor closed; and a
program that is interrupted while a sleep is pending on a connection that cannot be dropped. -/
theorem run_orderly_great_port :
    let env : Environment := { port := some " 65536 ".toList }
    let busy : Fault := { kind := .system, message := "Address already in use".toList, code := some 98 }
    let unbound : List Input := [.step (.setCloseFault (some busy)), .interrupt]
    let undropped : List Input := [.step (.connect none { abort := some busy }), .interrupt]
    reports busy = true ∧ Orderly ["ACT[]".toList] env (.fails busy) unbound .ofAcceptance
      ∧ ¬ (Reading.port " 65536 ".toList).Sound
      ∧ Orderly ["ACT[WAIT=5]".toList] {} .asked undropped .ofAcceptance
      ∧ (run ["ACT[WAIT=5]".toList] {} .asked undropped).finish.exit = .status 1 := by
  intro env busy unbound undropped
  have hreadings : Settings.readings ["ACT[]".toList] env =
      [.directive "ACT[]".toList, .port " 65536 ".toList] := rfl
  have hreadings' : Settings.readings ["ACT[WAIT=5]".toList] {} =
      [.directive "ACT[WAIT=5]".toList, .port (Text.ofNat defaultPort)] := rfl
  have hmeets : ¬ MeetsOverlong ["ACT[]".toList] env := by
    refine not_meetsOverlong ?_
    rw [hreadings]
    exact List.forall_mem_cons.2 ⟨id, List.forall_mem_singleton.2 fun ho => absurd ho.2 (by decide)⟩
  have hmeets' : ¬ MeetsOverlong ["ACT[WAIT=5]".toList] {} := by
    refine not_meetsOverlong ?_
    rw [hreadings']
    exact List.forall_mem_cons.2 ⟨id, List.forall_mem_singleton.2 fun ho => absurd ho.2 (by decide)⟩
  have hgreat : ¬ Numeral.value (Text.trim " 65536 ".toList) ≤ maxPort := by decide +kernel
  refine ⟨rfl, (run_orderly_iff ?_ ?_).2 hmeets, fun h => hgreat h.2,
    (run_orderly_iff ?_ ?_).2 hmeets', by decide⟩
  · rintro f ⟨⟩
    rfl
  · intro s f hs hf
    obtain rfl : s = .setCloseFault (some busy) := by simpa [unbound] using hs
    cases hf
    rfl
  · rintro f ⟨⟩
  · intro s f hs hf
    obtain rfl : s = .connect none { abort := some busy } := by simpa [undropped] using hs
    cases hf
    rfl

/-- A port of too many digits, which no port has, gets out as a fault. -/
theorem nines_escape {n : Nat} (hn : Numeral.digitLimit < n) (env : Environment)
    (binding : Binding) (inputs : List Input) (order : SetOrder) :
    ∃ f, (run [List.replicate n '9'] env binding inputs order).finish.exit = .escaped f := by
  obtain ⟨m, rfl⟩ := Nat.exists_eq_succ_of_ne_zero (Nat.ne_of_gt (Nat.zero_lt_of_lt hn))
  have hnumeral : Numeral.isNumeral (List.replicate (m + 1) '9') = true := by simp [Numeral.isNumeral]
  have htrim : Text.trim (List.replicate (m + 1) '9') = List.replicate (m + 1) '9' := by
    have hblank : Text.isBlank '9' = false := by decide
    simp [Text.trim, hblank]
  have hreadings : ∃ behind, Settings.readings [List.replicate (m + 1) '9'] env =
      .port (List.replicate (m + 1) '9') :: behind := by
    have hu : Settings.asksUsage [List.replicate (m + 1) '9'] = false := rfl
    have ha : Arguments.ofWords? [List.replicate (m + 1) '9']
        = some { operands := [List.replicate (m + 1) '9'] } := rfl
    simp [Settings.readings, hu, ha, Reading.ofWord, hnumeral]
  obtain ⟨behind, hreadings⟩ := hreadings
  have hmeets : MeetsOverlong [List.replicate (m + 1) '9'] env :=
    ⟨[], _, behind, hreadings, List.forall_mem_nil _, by rw [htrim]; exact hnumeral,
      by simpa [htrim] using hn⟩
  exact hmeets.escapes binding inputs order

theorem long_port_escapes :
    (∃ f, (run [List.replicate 4301 '9'] {} .asked []).finish.exit = .escaped f)
      ∧ ¬ Orderly [List.replicate 4301 '9'] {} .asked [] .ofAcceptance := by
  obtain ⟨f, hf⟩ := nines_escape (n := 4301) (by decide) {} .asked [] .ofAcceptance
  refine ⟨⟨f, hf⟩, fun ho => ?_⟩
  rcases ho.exits with he | he | ⟨he, -⟩ | ⟨he, -⟩ <;> cases hf.symm.trans he

end Program
end ScriptedServer
