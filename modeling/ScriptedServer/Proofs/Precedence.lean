import ScriptedServer.Proofs.CommandLine

/-!
The command line comes before the environment. Two environments that differ only in what the command line
supplies (`Supplied`) give the same port, the same directive and the same error, whatever the values that
are not asked for are. The host is the exception: an empty one counts as none, although it was given, so
the environment's takes its place and shows (`Settings.command_line_wins_iff`).
-/

namespace ScriptedServer

/-- Whether two environments differ only in what arguments supply: the host if the option assigns one, the
port if some argument is a numeral, and the actions if some argument is none. -/
structure Arguments.Covers (a : Arguments) (env env' : Environment) : Prop where
  host : a.host = none → env.host = env'.host
  port : (∀ word ∈ a.operands ++ a.extras, Numeral.isNumeral word = false) → env.port = env'.port
  actions : (∀ word ∈ a.operands ++ a.extras, Numeral.isNumeral word = true) → env.actions = env'.actions

namespace Settings

/-- Whether two environments differ only in what a command line supplies. -/
def Supplied (words : List Text) (env env' : Environment) : Prop :=
  asksUsage words = false → ∀ a, Arguments.ofWords? words = some a → a.Covers env env'

/-- Whether a command line gives an empty host in vain: there are settings, and the environments disagree
about the host that takes its place. -/
def Dissents (words : List Text) (env env' : Environment) : Prop :=
  asksUsage words = false ∧ (∃ a, Arguments.ofWords? words = some a ∧ a.host = some [])
    ∧ (∃ s, ofWords words env = .ok s) ∧ env.hostText ≠ env'.hostText

end Settings

namespace Given

variable {g : Given} {host : Option Text} {env env' : Environment}

/-- The host of settings: an empty one leaves it to the environment. -/
def chosenHost (host : Option Text) (env : Environment) : Text :=
  if host.getD [] = [] then env.hostText else host.getD []

/-- The port and the directive of settings, and what they fail with, do not depend on the host. -/
theorem settings_eq (g : Given) (host : Option Text) (env : Environment) :
    g.settings host env = do
      let port ← g.port.elim env.readPort .ok
      let directive ← g.directive.elim env.directive fun d => .ok (some d)
      return { host := chosenHost host env, port, directive } := by
  rw [settings]
  cases g.port.elim env.readPort .ok with
  | error e => rfl
  | ok port => cases g.directive.elim env.directive fun d => .ok (some d) <;> rfl

/-- Environments that agree on the port and on the actions wherever these are asked for make no difference
but for the host. -/
theorem settings_agree (hport : g.port = none → env.port = env'.port)
    (hactions : g.directive = none → env.actions = env'.actions) :
    g.settings host env' =
      (g.settings host env).map fun s => { s with host := chosenHost host env' } := by
  have hp : g.port.elim env'.readPort .ok = g.port.elim env.readPort .ok := by
    cases hg : g.port with
    | some n => rfl
    | none => rw [Option.elim_none, Option.elim_none, Environment.readPort, ← hport hg]; rfl
  have hd : (g.directive.elim env'.directive fun d => .ok (some d))
      = g.directive.elim env.directive fun d => .ok (some d) := by
    cases hg : g.directive with
    | some d => rfl
    | none => rw [Option.elim_none, Option.elim_none, Environment.directive, ← hactions hg]; rfl
  rw [settings_eq, settings_eq, hp, hd]
  cases g.port.elim env.readPort .ok with
  | error e => rfl
  | ok port => cases g.directive.elim env.directive fun d => .ok (some d) <;> rfl

/-- What a scan leaves out is what no argument supplies. -/
theorem scan_covers {a : Arguments} (hs : scan {} (a.operands ++ a.extras) = .ok g)
    (h : a.Covers env env') :
    (g.port = none → env.port = env'.port) ∧ (g.directive = none → env.actions = env'.actions) := by
  obtain ⟨hport, hdirective⟩ := scan_gives hs
  rw [Option.isSome_none, Bool.or_false] at hport hdirective
  constructor
  · intro hg
    rw [hg, Option.isSome_none, eq_comm, List.any_eq_false] at hport
    exact h.port fun word hw => Bool.eq_false_iff.2 (hport word hw)
  · intro hg
    rw [hg, Option.isSome_none, eq_comm, Bool.not_eq_false', List.all_eq_true] at hdirective
    exact h.actions hdirective

/-- The chosen host is the environment's exactly if none or an empty one is given. -/
theorem chosenHost_eq_iff (h : host = none → env.host = env'.host) :
    chosenHost host env = chosenHost host env' ↔ ¬ (host = some [] ∧ env.hostText ≠ env'.hostText) := by
  cases host with
  | none => simp [chosenHost, Environment.hostText, h rfl]
  | some value => cases value <;> simp [chosenHost]

end Given

namespace Settings

variable {words : List Text} {env env' : Environment}

/-- A command line that supplies whatever two environments differ in gives the same settings in both, but
for a host that was given empty. -/
theorem ofWords_agree {a : Arguments} (hu : asksUsage words = false)
    (ha : Arguments.ofWords? words = some a) (h : a.Covers env env') :
    ofWords words env' =
      (ofWords words env).map fun s => { s with host := Given.chosenHost a.host env' } := by
  simp only [ofWords, hu, ha, Bool.false_eq_true, if_false]
  cases hs : Given.scan {} (a.operands ++ a.extras) with
  | error e => rfl
  | ok g =>
    obtain ⟨hport, hactions⟩ := Given.scan_covers hs h
    exact Given.settings_agree hport hactions

theorem ofWords_host {a : Arguments} {s : Settings} (hu : asksUsage words = false)
    (ha : Arguments.ofWords? words = some a) (h : ofWords words env = .ok s) :
    s.host = Given.chosenHost a.host env := by
  obtain ⟨a', g, ha', -, hg⟩ := ofWords_ok hu h
  obtain rfl := Option.some.inj (ha'.symm.trans ha)
  obtain ⟨port, directive, rfl⟩ := Given.settings_ok hg
  rfl

/-- Where there are settings, two such environments give the same exactly if they agree about the host that
takes the place of an empty one. -/
theorem ofWords_eq_iff {a : Arguments} {s : Settings} (hu : asksUsage words = false)
    (ha : Arguments.ofWords? words = some a) (h : a.Covers env env') (ho : ofWords words env = .ok s) :
    ofWords words env = ofWords words env' ↔ ¬ (a.host = some [] ∧ env.hostText ≠ env'.hostText) := by
  rw [ofWords_agree hu ha h, ho, ← Given.chosenHost_eq_iff h.host, ← ofWords_host hu ha ho]
  constructor
  · intro heq
    exact congrArg Settings.host (Except.ok.inj heq)
  · intro hsame
    rw [← hsame]
    rfl

theorem dissents_iff {a : Arguments} (hu : asksUsage words = false)
    (ha : Arguments.ofWords? words = some a) : Dissents words env env' ↔
      (∃ s, ofWords words env = .ok s) ∧ a.host = some [] ∧ env.hostText ≠ env'.hostText := by
  constructor
  · rintro ⟨-, ⟨a', ha', hempty⟩, hok, hne⟩
    obtain rfl := Option.some.inj (ha'.symm.trans ha)
    exact ⟨hok, hempty, hne⟩
  · rintro ⟨hok, hempty, hne⟩
    exact ⟨hu, ⟨a, ha, hempty⟩, hok, hne⟩

/-- What the command line supplies wins over the environment, whatever is asked for and whatever the
environment has instead, exactly if no empty host is given in vain; and if one is, only the host is the
environment's. -/
theorem command_line_wins_iff (h : Supplied words env env') :
    (ofWords words env = ofWords words env' ↔ ¬ Dissents words env env')
      ∧ (Dissents words env env' →
        ofWords words env' = (ofWords words env).map fun s => { s with host := env'.hostText }) := by
  cases hu : asksUsage words with
  | true =>
    have hnot : ¬ Dissents words env env' := fun hd => by cases hu.symm.trans hd.1
    refine ⟨iff_of_true ?_ hnot, fun hd => absurd hd hnot⟩
    rw [ofWords, ofWords, hu, if_pos rfl, if_pos rfl]
  | false =>
    cases ha : Arguments.ofWords? words with
    | none =>
      have hnot : ¬ Dissents words env env' := by
        rintro ⟨-, ⟨a, ha', -⟩, -⟩
        cases ha.symm.trans ha'
      refine ⟨iff_of_true ?_ hnot, fun hd => absurd hd hnot⟩
      simp only [ofWords, hu, ha, Bool.false_eq_true, if_false]
    | some a =>
      have hcovers := h hu a ha
      have hagree := ofWords_agree hu ha hcovers
      rw [dissents_iff hu ha]
      constructor
      · cases ho : ofWords words env with
        | error e =>
          rw [hagree, ho]
          refine iff_of_true rfl ?_
          rintro ⟨⟨s, hs⟩, -⟩
          cases hs
        | ok s =>
          rw [← ho, ofWords_eq_iff hu ha hcovers ho]
          exact not_congr ⟨fun hc => ⟨⟨s, ho⟩, hc⟩, And.right⟩
      · rintro ⟨-, hempty, -⟩
        rw [hagree, hempty]
        rfl

/-- A host in a short spelling of the option, an empty block, and a port behind the end of the options: of
the environment nothing is asked for, so it does not matter that nothing could be read of it. -/
theorem command_line_wins_unread :
    let words := ["--h=h".toList, "ACT[]".toList, "--".toList, "7".toList]
    let env : Environment :=
      { host := some "e".toList, port := some "no port".toList, actions := some "none".toList }
    Supplied words env {} ∧ ofWords words env = ofWords words {}
      ∧ ofWords words env = .ok { host := "h".toList, port := 7, directive := some [] } := by
  intro words env
  have ha : Arguments.ofWords? words
      = some { host := some "h".toList, operands := ["ACT[]".toList, "7".toList] } := rfl
  have hsupplied : Supplied words env {} := by
    rintro - a ha'
    obtain rfl := Option.some.inj (ha'.symm.trans ha)
    refine ⟨nofun, fun hn => ?_, fun hn => ?_⟩
    · exact absurd (hn "7".toList (by decide)) (by decide)
    · exact absurd (hn "ACT[]".toList (by decide)) (by decide)
  refine ⟨hsupplied, (command_line_wins_iff hsupplied).1.2 fun hd => ?_, rfl⟩
  exact absurd ((dissents_iff rfl ha).1 hd).2.1 (by decide)

/-- An empty host was given, and the one of the environment is taken. -/
theorem empty_host_dissents :
    let words := ["--host=".toList]
    let env : Environment := { host := some "a".toList }
    let env' : Environment := { host := some "b".toList }
    Supplied words env env' ∧ ofWords words env = .ok { host := "a".toList }
      ∧ ofWords words env' = .ok { host := "b".toList } := by
  intro words env env'
  have ha : Arguments.ofWords? words = some { host := some [] } := rfl
  refine ⟨?_, rfl, rfl⟩
  rintro - a ha'
  obtain rfl := Option.some.inj (ha'.symm.trans ha)
  exact ⟨nofun, fun _ => rfl, fun _ => rfl⟩

end Settings
end ScriptedServer
