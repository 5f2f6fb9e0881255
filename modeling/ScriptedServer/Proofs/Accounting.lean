import ScriptedServer.Proofs.Effects

/-!
What the account of an execution says about its directive. A run of actions goes through all of them, or
stops at the first that meets trouble, and in that case nothing behind it matters (`complete_stops`). So
the actions that are completed are a prefix of the directive, the log announces them and at most one
more, and the error of an account is that of the action right behind them, of a kind that the action's
name and parameter decide (`Action.Blamed`).
-/

namespace ScriptedServer

/-! ### Names and parameters -/

/-- The five words tell the kinds apart. -/
theorem Kind.ofWord?_word (k : Kind) : Kind.ofWord? k.word = some k := by
  cases k <;> decide

theorem Kind.ofWord?_eq_some_iff {name : Text} {k : Kind} :
    Kind.ofWord? name = some k ↔ name = k.word := by
  constructor
  · intro h
    have hword := List.find?_some h
    exact (of_decide_eq_true hword).symm
  · rintro rfl
    exact k.ofWord?_word

namespace Action

variable {a : Action}

theorem kind_eq_some_iff {k : Kind} : a.kind = some k ↔ a.name = k.word := Kind.ofWord?_eq_some_iff

/-- An action is of no kind if its name is none of the five words. -/
theorem kind_eq_none_iff : a.kind = none ↔ ∀ k : Kind, a.name ≠ k.word := by
  rw [Option.eq_none_iff_forall_ne_some]
  exact forall_congr' fun k => not_congr kind_eq_some_iff

/-- Whether an action is to count and has no numeral for a parameter. -/
def Uncountable (a : Action) : Prop :=
  (a.name = Kind.data.word ∨ a.name = Kind.wait.word)
    ∧ ∀ p, a.param = some p → Numeral.isNumeral p = false

theorem requested?_eq_none_iff :
    a.requested? = none ↔ ∀ p, a.param = some p → Numeral.isNumeral p = false := by
  rw [requested?]
  cases a.param with
  | none => simp
  | some p => simp

/-- The error that an action is to be blamed with: it is unknown if its name is none of the five words,
its parameter is invalid if it counts and has no numeral, and otherwise it has failed at a fault of input
and output. -/
structure Blamed (a : Action) (e : ActionError) : Prop where
  unknown : (∃ name, e = .unknown name) ↔ ∀ k : Kind, a.name ≠ k.word
  invalidParameter : (∃ name param, e = .invalidParameter name param) ↔ a.Uncountable
  names : e = .unknown a.name ∨ e = .invalidParameter a.name a.param
    ∨ ∃ f, f.isExternal = true ∧ e = .failed a.name f

/-- What the log announces of an action: nothing if its name is not known. -/
def announcement (a : Action) : List Action := if a.kind = none then [] else [a]

end Action

/-- The action that an event announces. -/
def Event.announced? : Event → Option Action
  | .log (.executing a) => some a
  | _ => none

/-! ### One action -/

namespace Action

variable {a : Action} {st : Stage} {c : Call Stage Trouble}

theorem Attempt.announces (h : a.Attempt st c) :
    c.events.filterMap Event.announced? = a.announcement := by
  cases h with
  | unknown hk => simp [announcement, hk]
  | uncounted hk => rcases hk with hk | hk <;> simp [announcement, hk, Event.announced?]
  | unsupplied hl => simp [announcement, hl.kind.1, Event.announced?]
  | refused hw | unwritten hw | written hw =>
    simp [announcement, hw.kind.1, Event.announced?]
  | _ => simp [announcement, *, Event.announced?]

/-- An action that meets no trouble is announced. -/
theorem Attempt.known (h : a.Attempt st c) (he : c.error = none) : a.announcement = [a] := by
  obtain ⟨own, hown, -⟩ := h.effect he
  refine if_neg fun hk => ?_
  simp only [effect?, hk] at hown
  cases hown

theorem Attempt.quiet (h : a.Attempt st c) : ∀ e ∈ c.events, e ≠ .abort ∧ e ≠ .close := by
  cases h <;> simp

/-! ### Blame -/

theorem not_uncountable {k : Kind} (hk : a.kind = some k) (hd : k ≠ .data) (hw : k ≠ .wait) :
    ¬ a.Uncountable := by
  rintro ⟨hname | hname, -⟩
  · exact hd (Option.some.inj (hk.symm.trans (kind_eq_some_iff.2 hname)))
  · exact hw (Option.some.inj (hk.symm.trans (kind_eq_some_iff.2 hname)))

theorem Writes.not_uncountable {supply : Supply} {out : Output} (h : a.Writes supply out) :
    ¬ a.Uncountable := by
  cases h with
  | send hk => exact Action.not_uncountable hk nofun nofun
  | data hk hn =>
    rintro ⟨-, hp⟩
    have hnone := requested?_eq_none_iff.2 hp
    rw [requested_of_count hn] at hnone
    cases hnone

theorem blamed_unknown (hk : a.kind = none) : a.Blamed (.unknown a.name) where
  unknown := iff_of_true ⟨_, rfl⟩ (kind_eq_none_iff.1 hk)
  invalidParameter := by
    refine iff_of_false nofun fun ⟨hname, _⟩ => ?_
    rcases hname with hname | hname
    · exact kind_eq_none_iff.1 hk .data hname
    · exact kind_eq_none_iff.1 hk .wait hname
  names := .inl rfl

theorem blamed_invalidParameter {k : Kind} (hk : a.kind = some k) (hcounts : k = .data ∨ k = .wait)
    (hp : ∀ p, a.param = some p → Numeral.isNumeral p = false) :
    a.Blamed (.invalidParameter a.name a.param) where
  unknown := iff_of_false nofun fun hnone => hnone k (kind_eq_some_iff.1 hk)
  invalidParameter := by
    refine iff_of_true ⟨_, _, rfl⟩ ⟨?_, hp⟩
    rcases hcounts with rfl | rfl
    · exact .inl (kind_eq_some_iff.1 hk)
    · exact .inr (kind_eq_some_iff.1 hk)
  names := .inr (.inl rfl)

theorem blamed_failed (hk : a.kind ≠ none) (hu : ¬ a.Uncountable) {f : Fault} {e : ActionError}
    (h : Trouble.ofFault a f = .error e) : a.Blamed e := by
  cases hf : f.isExternal with
  | false =>
    rw [Trouble.ofFault, hf] at h
    cases h
  | true =>
    rw [Trouble.ofFault, hf] at h
    cases h
    exact
      { unknown := iff_of_false (by simp) (mt kind_eq_none_iff.2 hk)
        invalidParameter := iff_of_false (by simp) hu
        names := .inr (.inr ⟨f, hf, rfl⟩) }

/-- An action is to be blamed with the error that it meets. -/
theorem Attempt.blamed (h : a.Attempt st c) {e : ActionError} (he : c.error = some (.error e)) :
    a.Blamed e := by
  have hkind : ∀ {k : Kind}, a.kind = some k → a.kind ≠ none := fun hk => by rw [hk]; nofun
  cases h with
  | unknown hk =>
    cases he
    exact blamed_unknown hk
  | uncounted hk hn =>
    cases he
    obtain ⟨hp, rfl⟩ := count_error_iff.1 hn
    rcases hk with hk | hk
    · exact blamed_invalidParameter hk (.inl rfl) hp
    · exact blamed_invalidParameter hk (.inr rfl) hp
  | refused hw | unwritten hw =>
    exact blamed_failed hw.kind.1 hw.not_uncountable (Option.some.inj he)
  | written hw =>
    obtain ⟨f, -, hf⟩ := Option.map_eq_some_iff.1 he
    exact blamed_failed hw.kind.1 hw.not_uncountable hf
  | tornDown hk | unended hk | unshut hk =>
    exact blamed_failed (hkind hk) (not_uncountable hk nofun nofun) (Option.some.inj he)
  | ended hk =>
    obtain ⟨f, -, hf⟩ := Option.map_eq_some_iff.1 he
    exact blamed_failed (hkind hk) (not_uncountable hk nofun nofun) hf
  | unsupplied | tooLong | closedBefore | slept | alone | shutBefore | shut => cases he

end Action

/-! ### Runs -/

theorem Trouble.conclude_unannounced (t : Trouble) (st : Stage) :
    (t.conclude st).events.filterMap Event.announced? = [] := by
  cases t with
  | fault f => rfl
  | error e =>
    rw [conclude]
    cases e.drops with
    | false => rfl
    | true =>
      simp only [if_true, Session.abort]
      cases st.session.faults.abort <;> rfl

theorem Trouble.of_conclude_aborted {t : Trouble} {st : Stage} {e : ActionError}
    (h : (t.conclude st).result = .aborted e) : t = .error e := by
  cases t with
  | fault f => cases h
  | error e' =>
    rw [conclude] at h
    cases hd : e'.drops with
    | false =>
      rw [hd] at h
      cases h
      rfl
    | true =>
      rw [hd] at h
      simp only [if_true, Session.abort] at h
      cases ha : st.session.faults.abort <;> rw [ha] at h <;> cases h
      rfl

namespace Directive

/-- A run goes on behind actions that are all completed as if it began there. -/
theorem complete_append {front : List Action} (more : List Action) {st : Stage}
    (h : (complete front st).result = (front, .done)) :
    complete (front ++ more) st =
      let r := (complete more (complete front st).stage).after (complete front st).events
      { r with result := (front ++ r.result.1, r.result.2) } := by
  induction front generalizing st with
  | nil => rfl
  | cons a rest ih =>
    cases he : (a.attempt st).error with
    | some t =>
      rw [complete_trouble rest he] at h
      cases h
    | none =>
      rw [complete_go rest he] at h ⊢
      have hrest : (complete rest (a.attempt st).state).result = (rest, .done) := by
        obtain ⟨hacts, hdone⟩ := Prod.mk.inj h
        exact Prod.ext (List.cons.inj hacts).2 hdone
      rw [List.cons_append, complete_go _ he, ih hrest]
      simp only [Run.after, List.append_assoc, List.cons_append]

/-- A run that completes all its actions announces each of them, and neither drops nor closes the
connection. -/
theorem complete_done {acts : List Action} {st : Stage}
    (h : (complete acts st).result = (acts, .done)) :
    (complete acts st).events.filterMap Event.announced? = acts
      ∧ ∀ e ∈ (complete acts st).events, e ≠ .abort ∧ e ≠ .close := by
  induction acts generalizing st with
  | nil => exact ⟨rfl, nofun⟩
  | cons a rest ih =>
    have ha := a.attempt_spec st
    cases he : (a.attempt st).error with
    | some t =>
      rw [complete_trouble rest he] at h
      cases h
    | none =>
      rw [complete_go rest he] at h ⊢
      obtain ⟨hacts, hdone⟩ := Prod.mk.inj h
      obtain ⟨hannounced, hquiet⟩ := ih (Prod.ext (List.cons.inj hacts).2 hdone)
      constructor
      · simp only [Run.after, List.filterMap_append, ha.announces, ha.known he, hannounced,
          List.singleton_append]
      · intro e hmem
        rcases List.mem_append.1 hmem with h | h
        · exact ha.quiet e h
        · exact hquiet e h

/-- A run completes all its actions, or stops at the first that meets trouble. -/
theorem complete_stops (acts : List Action) (st : Stage) :
    (complete acts st).result = (acts, .done)
      ∨ ∃ front a rest t, acts = front ++ a :: rest
          ∧ (complete front st).result = (front, .done)
          ∧ (a.attempt (complete front st).stage).error = some t := by
  induction acts generalizing st with
  | nil => exact .inl rfl
  | cons a rest ih =>
    cases he : (a.attempt st).error with
    | some t => exact .inr ⟨[], a, rest, t, rfl, rfl, he⟩
    | none =>
      rcases ih (a.attempt st).state with hall | ⟨front, b, left, t, rfl, hfront, ht⟩
      · exact .inl (by rw [complete_go rest he]; simp only [Run.after, hall])
      · refine .inr ⟨a :: front, b, left, t, rfl, ?_, ?_⟩
        · rw [complete_go front he]
          simp only [Run.after, hfront]
        · rw [complete_go front he]
          exact ht

/-- What a run that stops at trouble comes to, whatever stands behind the action it stops at. -/
theorem complete_stopped {front : List Action} {a : Action} {st : Stage} {t : Trouble}
    (hfront : (complete front st).result = (front, .done))
    (ht : (a.attempt (complete front st).stage).error = some t) (rest : List Action) :
    complete (front ++ a :: rest) st =
      let c := a.attempt (complete front st).stage
      let r := t.conclude c.state
      ⟨r.stage, (complete front st).events ++ (c.events ++ r.events), front, r.result⟩ := by
  rw [complete_append _ hfront, complete_trouble rest ht]
  simp only [Run.after, List.append_nil]

/-- What an account says about its directive. -/
structure AccountedBy (d : Directive) (st : Stage) (account : Account) : Prop where
  ended : account.status = .done ∨ account.status = .aborted
  begins : account.completed <+: d
  done_iff : account.status = .done ↔ account.completed = d
  aborted_iff : account.status = .aborted ↔ account.completed ≠ d
  /-- If all is done there is no error, every action was announced, and the connection is neither
  dropped nor closed. -/
  done : account.status = .done → account.error = none
    ∧ (d.execute st).events.filterMap Event.announced? = d
    ∧ ∀ e ∈ (d.execute st).events, e ≠ .abort ∧ e ≠ .close
  /-- Otherwise the error is the one that the action behind those completed meets and is to be blamed
  with. Nothing behind that action is announced, and the run is the same whatever stands there. -/
  aborted : account.status = .aborted → ∃ a rest e, d = account.completed ++ a :: rest
    ∧ account.error = some e
    ∧ (a.attempt (execute account.completed st).stage).error = some (.error e)
    ∧ a.Blamed e
    ∧ (d.execute st).events.filterMap Event.announced? = account.completed ++ a.announcement
    ∧ ∀ more, execute (account.completed ++ a :: more) st = d.execute st

theorem accounted_done {d : Directive} {st : Stage} (h : (complete d st).result = (d, .done)) :
    d.AccountedBy st { status := .done, completed := d } where
  ended := .inl rfl
  begins := List.prefix_rfl
  done_iff := iff_of_true rfl rfl
  aborted_iff := iff_of_false nofun fun hne => hne rfl
  done _ := by
    obtain ⟨hannounced, hquiet⟩ := complete_done h
    rw [execute_shows_complete]
    refine ⟨rfl, ?_, fun e he => ?_⟩
    · rw [List.filterMap_append, hannounced]
      split <;> rfl
    · rcases List.mem_append.1 he with he | he
      · split at he
        · obtain rfl := List.mem_singleton.1 he
          exact ⟨nofun, nofun⟩
        · cases he
      · exact hquiet e he
  aborted := nofun

theorem accounted_aborted {front : List Action} {a : Action} {rest : List Action} {st : Stage}
    {e : ActionError} (hfront : (complete front st).result = (front, .done))
    (he : (a.attempt (complete front st).stage).error = some (.error e)) :
    AccountedBy (front ++ a :: rest) st
      { status := .aborted, completed := front, error := some e } where
  ended := .inr rfl
  begins := List.prefix_append ..
  done_iff := iff_of_false nofun (by simp)
  aborted_iff := iff_of_true rfl (by simp)
  done := nofun
  aborted _ := by
    have ha := a.attempt_spec (complete front st).stage
    have hrun : ∀ more, execute (front ++ a :: more) st = complete (front ++ a :: more) st :=
      fun more => if_neg (by simp)
    refine ⟨a, rest, e, rfl, rfl, by rw [execute_stage]; exact he, ha.blamed he, ?_, fun more => ?_⟩
    · rw [hrun, complete_stopped hfront he]
      simp only [List.filterMap_append, (complete_done hfront).1, ha.announces,
        Trouble.conclude_unannounced, List.append_nil]
    · rw [hrun, hrun, complete_stopped hfront he, complete_stopped hfront he]

/-- Whatever account the execution of a directive gives, it goes with the directive: the actions
completed are all of them or those in front of the one that the error is blamed on. -/
theorem execute_accounts {d : Directive} {st : Stage} {account : Account}
    (h : Account.ofEnding (d.execute st).result.1 (d.execute st).result.2 = .ok account) :
    d.AccountedBy st account := by
  rw [execute_result] at h
  rcases complete_stops d st with hall | ⟨front, a, rest, t, rfl, hfront, ht⟩
  · rw [hall] at h
    cases h
    exact accounted_done hall
  · rw [complete_stopped hfront ht] at h
    simp only at h
    cases hr : (t.conclude (a.attempt (complete front st).stage).state).result with
    | done => exact absurd hr (t.conclude_ne_done _)
    | aborted e =>
      obtain rfl := Trouble.of_conclude_aborted hr
      rw [hr] at h
      cases h
      exact accounted_aborted hfront ht
    | escaped f =>
      rw [hr] at h
      cases h

/-- A count that is none, on a side that was closed: it is blamed, and not the closed side. -/
theorem execute_accounts_uncounted :
    let st : Stage := ⟨{ peer := [] }, none⟩
    let close : Action := ⟨"CLOSE".toList, none⟩
    let data : Action := ⟨"DATA".toList, some "-1".toList⟩
    let send : Action := ⟨"SEND".toList, none⟩
    let account : Account := ⟨.aborted, [close], some (.invalidParameter data.name data.param)⟩
    Account.ofEnding (execute [close, data, send] st).result.1 (execute [close, data, send] st).result.2
        = .ok account
      ∧ AccountedBy [close, data, send] st account := by
  intro st close data send account
  have h : Account.ofEnding (execute [close, data, send] st).result.1
      (execute [close, data, send] st).result.2 = .ok account := rfl
  exact ⟨h, execute_accounts h⟩

end Directive
end ScriptedServer
