import Mathlib.Data.List.Basic
import ScriptedServer.Proofs.CommandLine

/-!
A command line of words and hosts, read in order. Only the first run of words counts as operands and all
later ones are extras, but operands and extras together are the words as they were written, wherever the
hosts stand among them (`collect_phrases`). So the settings are those of a scan from left to right
(`Settings.inOrder`): each word sets the port or the directive, the last of each wins, the first that
cannot be read decides, and the environment is asked for what is then missing. The one host that cannot be
given is `--`.
-/

namespace ScriptedServer

/-- What is written on a command line in one piece: a word, or a host behind the option or attached to
it. -/
inductive Phrase where
  | word (w : Text)
  | host (value : Text)
  | attachedHost (value : Text)
  deriving DecidableEq

namespace Phrase

/-- The words that a phrase is written with. -/
def words : Phrase → List Text
  | word w => [w]
  | host value => ["--host".toList, value]
  | attachedHost value => ["--host=".toList ++ value]

/-- Whether a phrase is written as what it is: nothing but an attached host begins with a dash, and no host
is empty. -/
def Plain : Phrase → Prop
  | word w => w.head? ≠ some '-'
  | host value => value ≠ [] ∧ value.head? ≠ some '-'
  | attachedHost value => value ≠ []

instance : DecidablePred Plain
  | word w => inferInstanceAs (Decidable (w.head? ≠ some '-'))
  | host value => inferInstanceAs (Decidable (value ≠ [] ∧ value.head? ≠ some '-'))
  | attachedHost value => inferInstanceAs (Decidable (value ≠ []))

/-- The word that a phrase is, if it is one. -/
def word? : Phrase → Option Text
  | word w => some w
  | _ => none

/-- The host that a phrase gives, if it gives one: for an attached `--` it is the environment's. -/
def host? (env : Environment) : Phrase → Option Text
  | word _ => none
  | host value => some value
  | attachedHost value => some (if value = "--".toList then env.hostText else value)

end Phrase

/-- What a word sets. -/
inductive Setting where
  | port (n : Nat)
  | directive (d : Directive)
  deriving DecidableEq

namespace Setting

/-- A numeral is to be a port, and any other word is to carry a directive. -/
def ofWord (word : Text) : Except SettingsError Setting :=
  if Numeral.isNumeral word then (readPort (.text word)).map port
  else (Directive.require word).map directive

/-- The port, if that is what is set. -/
def port? : Setting → Option Nat
  | port n => some n
  | directive _ => none

/-- The directive, if that is what is set. -/
def directive? : Setting → Option Directive
  | port _ => none
  | directive d => some d

end Setting

/-- The settings of a scan from left to right. -/
def Settings.inOrder (phrases : List Phrase) (env : Environment) : Except SettingsError Settings := do
  let set ← (phrases.filterMap Phrase.word?).mapM Setting.ofWord
  let port ← (set.filterMap Setting.port?).getLast?.elim env.readPort .ok
  let directive ← (set.filterMap Setting.directive?).getLast?.elim env.directive fun d => .ok (some d)
  return { host := (phrases.filterMap (Phrase.host? env)).getLast?.getD env.hostText, port, directive }

/-! ### Taking the command line apart -/

namespace Phrase

/-- What an attached value leaves: `--` is taken away. -/
def kept (value : Text) : Text := if value = "--".toList then [] else value

/-- What the words of a phrase are taken for. -/
def tokens : Phrase → List Token
  | word w => [.operand w]
  | host value => [.host none, .operand value]
  | attachedHost value => [.host (some (kept value))]

/-- The value that a phrase assigns to the option, if it does. -/
def assigned? : Phrase → Option Text
  | word _ => none
  | host value => some value
  | attachedHost value => some (kept value)

variable {p : Phrase} {ps : List Phrase}

theorem ofWord_operand {w : Text} (h : w.head? ≠ some '-') : Token.ofWord w = .operand w := if_pos h

theorem ofWord_attached (value : Text) :
    Token.ofWord ("--host=".toList ++ value) = .host (some (kept value)) := rfl

theorem ofWords_phrase (h : p.Plain) (rest : List Text) :
    Token.ofWords (p.words ++ rest) = p.tokens ++ Token.ofWords rest := by
  have hcons : ∀ {w : Text} {more : List Text}, w ≠ "--".toList →
      Token.ofWords (w :: more) = Token.ofWord w :: Token.ofWords more := fun hw => if_neg hw
  have hdash : ∀ {w : Text}, w.head? ≠ some '-' → w ≠ "--".toList := by
    rintro w hw rfl
    exact hw rfl
  cases p with
  | word w =>
    rw [words, List.singleton_append, hcons (hdash h), ofWord_operand h]
    rfl
  | host value =>
    rw [words, List.cons_append, List.singleton_append, hcons (by decide), hcons (hdash h.2),
      ofWord_operand h.2]
    rfl
  | attachedHost value =>
    rw [words, List.singleton_append, hcons, ofWord_attached]
    · rfl
    · rintro hw
      cases hw

theorem ofWords_phrases (h : ∀ p ∈ ps, p.Plain) :
    Token.ofWords (ps.flatMap words) = ps.flatMap tokens := by
  induction ps with
  | nil => rfl
  | cons p ps ih =>
    obtain ⟨hp, hps⟩ := List.forall_mem_cons.1 h
    rw [List.flatMap_cons, List.flatMap_cons, ofWords_phrase hp, ih hps]

/-- An empty value leaves the host to the environment. -/
theorem host?_eq (h : p.Plain) (env : Environment) :
    p.host? env = p.assigned?.map fun value => if value = [] then env.hostText else value := by
  cases p with
  | word w => rfl
  | host value => simp [host?, assigned?, h.1]
  | attachedHost value =>
    have hne : value ≠ [] := h
    by_cases hv : value = "--".toList
    · simp [host?, assigned?, kept, hv]
    · simp only [host?, assigned?, kept, hv, if_false, Option.map_some, hne]

end Phrase

namespace Arguments

variable {ps : List Phrase}

/-- A host ends the run of operands. -/
theorem collect_assigned {p : Phrase} {value : Text} (h : p.assigned? = some value) (run : OperandRun)
    (rest : List Token) :
    collect run (p.tokens ++ rest) = (collect (broken run) rest).map (addHost value) := by
  cases p with
  | word w => cases h
  | host v | attachedHost v =>
    cases h
    rfl

/-- Wherever the reading stands, operands and extras together are the words in their order; and behind the
first run of operands there are only extras. -/
theorem collect_phrases (ps : List Phrase) (run : OperandRun) :
    ∃ a, collect run (ps.flatMap Phrase.tokens) = some a
      ∧ a.operands ++ a.extras = ps.filterMap Phrase.word?
      ∧ (run = .after → a.operands = [])
      ∧ a.host = (ps.filterMap Phrase.assigned?).getLast? := by
  induction ps generalizing run with
  | nil => exact ⟨{}, by cases run <;> rfl, rfl, fun _ => rfl, rfl⟩
  | cons p ps ih =>
    rw [List.flatMap_cons, List.filterMap_cons, List.filterMap_cons]
    have hassigned : ∀ {value : Text}, p.assigned? = some value → ∃ a,
        collect run (p.tokens ++ ps.flatMap Phrase.tokens) = some a
          ∧ a.operands ++ a.extras = ps.filterMap Phrase.word?
          ∧ (run = .after → a.operands = [])
          ∧ a.host = (value :: ps.filterMap Phrase.assigned?).getLast? := by
      intro value hp
      obtain ⟨a, ha, hwords, hafter, hhost⟩ := ih (broken run)
      refine ⟨addHost value a, ?_, hwords, ?_, ?_⟩
      · rw [collect_assigned hp, ha]
        rfl
      · rintro rfl
        exact hafter rfl
      · rw [addHost, hhost, ← List.singleton_append, List.getLast?_append]
        rfl
    cases p with
    | word w =>
      obtain ⟨a, ha, hwords, hafter, hhost⟩ := ih (entered run)
      refine ⟨addOperand run w a, ?_, ?_, ?_, ?_⟩
      · rw [Phrase.tokens, List.singleton_append, collect, ha]
        rfl
      · rw [addOperand, Phrase.word?, ← hwords]
        split
        · -- behind the first run the word is the first of the extras, and no operand is left
          rename_i hrun
          rw [hafter (by rw [hrun]; rfl)]
          rfl
        · rfl
      · rintro rfl
        exact hafter rfl
      · rw [Phrase.assigned?, ← hhost, addOperand]
        split <;> rfl
    | host value | attachedHost value => exact hassigned rfl

theorem ofWords?_phrases (h : ∀ p ∈ ps, p.Plain) :
    ∃ a, ofWords? (ps.flatMap Phrase.words) = some a
      ∧ a.operands ++ a.extras = ps.filterMap Phrase.word?
      ∧ a.host = (ps.filterMap Phrase.assigned?).getLast? := by
  obtain ⟨a, ha, hwords, -, hhost⟩ := collect_phrases ps .before
  rw [ofWords?, Phrase.ofWords_phrases h]
  exact ⟨a, ha, hwords, hhost⟩

end Arguments

/-! ### Scanning the words -/

namespace Given

/-- What is given once one thing more is set. -/
def set (g : Given) : Setting → Given
  | .port n => { g with port := some n }
  | .directive d => { g with directive := some d }

theorem read_eq_ofWord (g : Given) (word : Text) : g.read word = (Setting.ofWord word).map g.set := by
  rw [read, Setting.ofWord]
  split
  · cases readPort (.text word) <;> rfl
  · cases Directive.require word <;> rfl

/-- A scan reads every word, and then sets one thing after the other. -/
theorem scan_eq_mapM (g : Given) (words : List Text) :
    scan g words = (words.mapM Setting.ofWord).map fun settings => settings.foldl set g := by
  induction words generalizing g with
  | nil => rfl
  | cons word rest ih =>
    rw [scan, read_eq_ofWord, List.mapM_cons]
    cases Setting.ofWord word with
    | error e => rfl
    | ok s =>
      refine (ih (g.set s)).trans ?_
      simp only [bind, Except.bind]
      cases rest.mapM Setting.ofWord <;> rfl

/-- The last of each kind wins. -/
theorem foldl_set (g : Given) (settings : List Setting) : settings.foldl set g =
    { port := (settings.filterMap Setting.port?).getLast?.or g.port
      directive := (settings.filterMap Setting.directive?).getLast?.or g.directive } := by
  induction settings using List.reverseRecOn with
  | nil => rfl
  | append_singleton settings s ih =>
    rw [List.foldl_append, List.foldl_cons, List.foldl_nil, ih]
    cases s <;> simp [set, Setting.port?, Setting.directive?]

end Given

/-- The settings of a command line that is made of words and hosts, in any order, are those of a scan from
left to right. -/
theorem Settings.ofWords_in_order {ps : List Phrase} (h : ∀ p ∈ ps, p.Plain)
    (hu : asksUsage (ps.flatMap Phrase.words) = false) (env : Environment) :
    ofWords (ps.flatMap Phrase.words) env = inOrder ps env := by
  obtain ⟨a, ha, hwords, hhost⟩ := Arguments.ofWords?_phrases h
  have hgiven : (if a.host.getD [] = [] then env.hostText else a.host.getD [])
      = (ps.filterMap (Phrase.host? env)).getLast?.getD env.hostText := by
    have hmap : ps.filterMap (Phrase.host? env) = (ps.filterMap Phrase.assigned?).map
        fun value => if value = [] then env.hostText else value := by
      rw [List.map_filterMap]
      exact List.filterMap_congr fun p hp => Phrase.host?_eq (h p hp) env
    rw [hmap, List.getLast?_map, ← hhost]
    cases a.host <;> rfl
  rw [ofWords, hu, if_neg Bool.false_ne_true, ha]
  simp only [hwords, Given.scan_eq_mapM]
  rw [inOrder]
  cases (ps.filterMap Phrase.word?).mapM Setting.ofWord with
  | error e => rfl
  | ok settings =>
    simp only [Except.map, Given.foldl_set, Option.or_none, Given.settings, hgiven, bind, Except.bind]
    cases (settings.filterMap Setting.port?).getLast?.elim env.readPort .ok with
    | error e => rfl
    | ok port =>
      cases (settings.filterMap Setting.directive?).getLast?.elim env.directive fun d => .ok (some d) <;>
        rfl

/-- Words in front of the hosts, between them and behind them, with an empty block as the last directive
and an environment of which nothing could be read. -/
theorem Settings.ofWords_in_order_scattered :
    let ps : List Phrase := [.word "70".toList, .attachedHost "-=--".toList, .word "ACT[SHUT]".toList,
      .host "h".toList, .word "0080".toList, .word "ACT[]".toList]
    let env : Environment := { port := some "no port".toList, actions := some "none".toList }
    (∀ p ∈ ps, p.Plain) ∧ asksUsage (ps.flatMap Phrase.words) = false
      ∧ ofWords (ps.flatMap Phrase.words) env
        = .ok { host := "h".toList, port := 80, directive := some [] } := by
  intro ps env
  have hplain : ∀ p ∈ ps, p.Plain := by decide
  exact ⟨hplain, rfl, (ofWords_in_order hplain rfl env).trans rfl⟩

/-- The host `--` is not taken from the command line. -/
theorem Settings.dashes_no_host :
    let p : Phrase := .attachedHost "--".toList
    p.Plain ∧ asksUsage p.words = false
      ∧ ofWords p.words { host := some "eh".toList } = .ok { host := "eh".toList }
      ∧ "eh".toList ≠ "--".toList :=
  ⟨by decide, rfl, rfl, by decide⟩

end ScriptedServer
