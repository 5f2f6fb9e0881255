import ScriptedServer.Proofs.Attempt

/-!
What stretches of a directive inherit from the attempts they are made of. The two drivers agree:
`complete_events` says that a directive carried out in one go shows what `advance` shows up to its
first sleep, and then what carrying out the rest shows from there.
-/

namespace ScriptedServer

/-! ### The end of a directive at trouble -/

namespace Trouble

/-- Of the session the end changes at most whether the connection is being torn down. -/
theorem conclude_session (t : Trouble) (st : Stage) :
    ∃ torn, (t.conclude st).stage.session = { st.session with closing := torn } := by
  cases t with
  | fault f => exact ⟨_, rfl⟩
  | error e =>
    rw [conclude]
    cases e.drops with
    | false => exact ⟨_, rfl⟩
    | true =>
      simp only [if_true, Session.abort]
      cases st.session.faults.abort <;> exact ⟨_, rfl⟩

theorem conclude_gate (t : Trouble) (st : Stage) : (t.conclude st).stage.gate = st.gate := by
  cases t with
  | fault f => rfl
  | error e => rw [conclude]; cases e.drops <;> rfl

/-- What is seen of the end belongs to the directive, and it is no stop of the listener. -/
theorem conclude_events (t : Trouble) (st : Stage) :
    ∀ e ∈ (t.conclude st).events, e.ofDirective = true ∧ e ≠ .serverClose := by
  cases t with
  | fault f => intro e he; cases he
  | error e =>
    rw [conclude]
    cases e.drops with
    | false => simp [Event.ofDirective]
    | true =>
      simp only [if_true, Session.abort]
      cases st.session.faults.abort <;> simp [Event.ofDirective]

/-- A directive that ends at trouble is not done. -/
theorem conclude_ne_done (t : Trouble) (st : Stage) : (t.conclude st).result ≠ .done := by
  intro h
  cases t with
  | fault f => cases h
  | error e =>
    rw [conclude] at h
    cases hd : e.drops with
    | false =>
      rw [hd] at h
      cases h
    | true =>
      rw [hd] at h
      simp only [if_true, Session.abort] at h
      cases ha : st.session.faults.abort <;> rw [ha] at h <;> cases h

theorem conclude_match (t : Trouble) {st st' : Stage} (h : st.Alike st') :
    (t.conclude st).events = (t.conclude st').events := by
  cases t with
  | fault f => rfl
  | error e =>
    have hm := Session.abort_match h.session
    rw [conclude, conclude]
    cases e.drops with
    | false => rfl
    | true => exact congrArg (Event.log (.actionError e) :: ·) hm.events

/-- The end at trouble does not look at the gate. -/
theorem conclude_withGate (t : Trouble) (st : Stage) (g : Option Gate) :
    (t.conclude { st with gate := g }).events = (t.conclude st).events := by
  cases t with
  | fault f => rfl
  | error e => rw [conclude, conclude]; cases e.drops <;> rfl

end Trouble

namespace Directive

/-! ### The drivers, action by action -/

section Cons

variable {a : Action} {st : Stage} (rest : List Action)

theorem advance_trouble {t : Trouble} (h : (a.attempt st).error = some t) :
    advance (a :: rest) st =
      ⟨(t.conclude (a.attempt st).state).stage,
        (a.attempt st).events ++ (t.conclude (a.attempt st).state).events,
        .ended (t.conclude (a.attempt st).state).result⟩ := by
  simp only [advance, h]

theorem advance_wait (h : (a.attempt st).error = none) (hk : a.kind = some .wait) :
    advance (a :: rest) st = ⟨(a.attempt st).state, (a.attempt st).events, .asleep rest⟩ := by
  simp only [advance, h, hk, if_true]

theorem advance_go (h : (a.attempt st).error = none) (hk : a.kind ≠ some .wait) :
    advance (a :: rest) st = (advance rest (a.attempt st).state).after (a.attempt st).events := by
  simp only [advance, h, hk, if_false]

theorem complete_trouble {t : Trouble} (h : (a.attempt st).error = some t) :
    complete (a :: rest) st =
      ⟨(t.conclude (a.attempt st).state).stage,
        (a.attempt st).events ++ (t.conclude (a.attempt st).state).events,
        [], (t.conclude (a.attempt st).state).result⟩ := by
  simp only [complete, h]

theorem complete_go (h : (a.attempt st).error = none) :
    complete (a :: rest) st =
      let r := (complete rest (a.attempt st).state).after (a.attempt st).events
      { r with result := (a :: r.result.1, r.result.2) } := by
  simp only [complete, h]

end Cons

/-- What every attempt keeps, both where it goes on and where it ends at trouble, is kept by a
stretch and by a directive carried out in one go. -/
theorem stretch_keeps {R : Stage → List Event → Stage → Prop} (refl : ∀ st, R st [] st)
    (go : ∀ {a : Action} {st st' : Stage} {events : List Event}, (a.attempt st).error = none →
      R (a.attempt st).state events st' → R st ((a.attempt st).events ++ events) st')
    (trouble : ∀ {a : Action} {st : Stage} {t : Trouble}, (a.attempt st).error = some t →
      R st ((a.attempt st).events ++ (t.conclude (a.attempt st).state).events)
        (t.conclude (a.attempt st).state).stage) (acts : List Action) (st : Stage) :
    R st (advance acts st).events (advance acts st).stage
      ∧ R st (complete acts st).events (complete acts st).stage := by
  induction acts generalizing st with
  | nil => exact ⟨refl st, refl st⟩
  | cons a rest ih =>
    cases he : (a.attempt st).error with
    | some t =>
      rw [advance_trouble rest he, complete_trouble rest he]
      exact ⟨trouble he, trouble he⟩
    | none =>
      obtain ⟨hadvance, hcomplete⟩ := ih (a.attempt st).state
      rw [complete_go rest he]
      refine ⟨?_, go he hcomplete⟩
      by_cases hk : a.kind = some .wait
      · rw [advance_wait rest he hk]
        simpa using go he (refl (a.attempt st).state)
      · rw [advance_go rest he hk]
        exact go he hadvance

/-! ### What stretches leave alone -/

/-- Of the session a stretch changes at most the two flags of the outbound side. -/
theorem advance_session (acts : List Action) (st : Stage) : ∃ ended torn,
    (advance acts st).stage.session =
      { st.session with outputClosed := ended, closing := torn } := by
  induction acts generalizing st with
  | nil => exact ⟨st.session.outputClosed, st.session.closing, rfl⟩
  | cons a rest ih =>
    obtain ⟨ended, hs⟩ := (a.attempt_spec st).session
    cases he : (a.attempt st).error with
    | some t =>
      obtain ⟨torn, ht⟩ := t.conclude_session (a.attempt st).state
      rw [advance_trouble rest he]
      exact ⟨ended, torn, by rw [ht, hs]⟩
    | none =>
      by_cases hk : a.kind = some .wait
      · rw [advance_wait rest he hk]
        exact ⟨ended, st.session.closing, hs⟩
      · obtain ⟨ended', torn, hr⟩ := ih (a.attempt st).state
        rw [advance_go rest he hk]
        exact ⟨ended', torn, hr.trans (by rw [hs])⟩

/-- The gate is moved only by a stop that is seen. -/
theorem advance_gate {acts : List Action} {st : Stage}
    (h : .serverClose ∉ (advance acts st).events) : (advance acts st).stage.gate = st.gate := by
  induction acts generalizing st with
  | nil => rfl
  | cons a rest ih =>
    cases he : (a.attempt st).error with
    | some t =>
      rw [advance_trouble rest he] at h ⊢
      rw [List.mem_append, not_or] at h
      exact (t.conclude_gate _).trans ((a.attempt_spec st).gate h.1)
    | none =>
      by_cases hk : a.kind = some .wait
      · rw [advance_wait rest he hk] at h ⊢
        exact (a.attempt_spec st).gate h
      · rw [advance_go rest he hk] at h ⊢
        rw [Run.after, List.mem_append, not_or] at h
        exact (ih h.2).trans ((a.attempt_spec st).gate h.1)

/-- A sound gate stays sound. -/
theorem advance_sound (acts : List Action) {st : Stage} {g : Gate} (hg : st.gate = some g)
    (hs : g.Sound) : ∃ g', (advance acts st).stage.gate = some g' ∧ g'.Sound := by
  induction acts generalizing st g with
  | nil => exact ⟨g, hg, hs⟩
  | cons a rest ih =>
    obtain ⟨g', hg', hs'⟩ := (a.attempt_spec st).sound hg hs
    cases he : (a.attempt st).error with
    | some t =>
      rw [advance_trouble rest he]
      exact ⟨g', (t.conclude_gate _).trans hg', hs'⟩
    | none =>
      by_cases hk : a.kind = some .wait
      · rw [advance_wait rest he hk]
        exact ⟨g', hg', hs'⟩
      · rw [advance_go rest he hk]
        exact ih hg' hs'

/-- What is seen of a stretch belongs to its directive. -/
theorem advance_ofDirective (acts : List Action) (st : Stage) :
    ∀ e ∈ (advance acts st).events, e.ofDirective = true := by
  induction acts generalizing st with
  | nil => intro e he; cases he
  | cons a rest ih =>
    intro e hmem
    have ha := (a.attempt_spec st).ofDirective e
    cases he : (a.attempt st).error with
    | some t =>
      rw [advance_trouble rest he] at hmem
      rcases List.mem_append.1 hmem with h | h
      · exact ha h
      · exact (t.conclude_events _ e h).1
    | none =>
      by_cases hk : a.kind = some .wait
      · rw [advance_wait rest he hk] at hmem
        exact ha hmem
      · rw [advance_go rest he hk] at hmem
        rcases List.mem_append.1 hmem with h | h
        · exact ha h
        · exact ih _ e h

/-! ### Sleeps -/

/-- A stretch that falls asleep is seen to do so at last. -/
theorem advance_asleep {acts : List Action} {st : Stage} {left : List Action}
    (h : (advance acts st).result = .asleep left) :
    ∃ duration, (advance acts st).events.getLast? = some (.sleep duration) := by
  induction acts generalizing st with
  | nil => cases h
  | cons a rest ih =>
    cases he : (a.attempt st).error with
    | some t =>
      rw [advance_trouble rest he] at h
      cases h
    | none =>
      by_cases hk : a.kind = some .wait
      · rw [advance_wait rest he hk]
        exact (a.attempt_spec st).asleep hk he
      · rw [advance_go rest he hk] at h ⊢
        obtain ⟨duration, hd⟩ := ih h
        exact ⟨duration, by rw [Run.after, List.getLast?_append, hd]; rfl⟩

/-- What is still to be seen behind a stretch, if nothing comes in between. -/
def remainder (r : Run Progress) : List Event :=
  match r.result with
  | .asleep left => (complete left r.stage).events
  | .ended _ => []

/-- Carried out in one go, actions show what they show up to the first sleep, and then the rest. -/
theorem complete_events (acts : List Action) (st : Stage) :
    (complete acts st).events = (advance acts st).events ++ remainder (advance acts st) := by
  induction acts generalizing st with
  | nil => rfl
  | cons a rest ih =>
    cases he : (a.attempt st).error with
    | some t =>
      rw [complete_trouble rest he, advance_trouble rest he, remainder, List.append_nil]
    | none =>
      rw [complete_go rest he]
      by_cases hk : a.kind = some .wait
      · rw [advance_wait rest he hk]; rfl
      · rw [advance_go rest he hk]
        calc (a.attempt st).events ++ (complete rest (a.attempt st).state).events
            = (a.attempt st).events ++ ((advance rest (a.attempt st).state).events
                ++ remainder (advance rest (a.attempt st).state)) := by
              rw [ih]
          _ = _ := (List.append_assoc ..).symm

/-- At stages that are alike, actions carried out in one go show the same. -/
theorem complete_match (acts : List Action) {st st' : Stage} (h : st.Alike st') :
    (complete acts st).events = (complete acts st').events := by
  induction acts generalizing st st' with
  | nil => rfl
  | cons a rest ih =>
    have hm := a.attempt_match h
    cases he : (a.attempt st).error with
    | some t =>
      rw [complete_trouble rest he, complete_trouble rest (hm.error ▸ he), hm.events,
        t.conclude_match hm.state]
    | none =>
      rw [complete_go rest he, complete_go rest (hm.error ▸ he)]
      simp only [Run.after]
      rw [hm.events, ih hm.state]

/-- Actions of which none is a stop of the listener show the same whatever the gate is. -/
theorem complete_withGate {acts : List Action} (h : ∀ a ∈ acts, a.kind ≠ some .shut) (st : Stage)
    (g : Option Gate) : (complete acts { st with gate := g }).events = (complete acts st).events := by
  induction acts generalizing st with
  | nil => rfl
  | cons a rest ih =>
    have ha := Action.attempt_withGate (h a List.mem_cons_self) st g
    have hrest : ∀ b ∈ rest, b.kind ≠ some .shut := fun b hb => h b (List.mem_cons_of_mem _ hb)
    cases he : (a.attempt st).error with
    | some t =>
      rw [complete_trouble rest he, complete_trouble rest (by rw [ha]; exact he), ha,
        t.conclude_withGate]
    | none =>
      rw [complete_go rest he, complete_go rest (by rw [ha]; exact he), ha]
      exact congrArg ((a.attempt st).events ++ ·) (ih hrest (a.attempt st).state)

/-! ### Whole directives -/

theorem begin_session (d : Directive) (st : Stage) : ∃ ended torn,
    (begin d st).stage.session =
      { st.session with outputClosed := ended, closing := torn } := by
  rw [begin]
  split
  · exact ⟨_, _, rfl⟩
  · exact advance_session d st

theorem begin_gate {d : Directive} {st : Stage} (h : .serverClose ∉ (begin d st).events) :
    (begin d st).stage.gate = st.gate := by
  rw [begin] at h ⊢
  split
  · rfl
  · rename_i hd
    rw [if_neg hd] at h
    exact advance_gate h

theorem begin_sound (d : Directive) {st : Stage} {g : Gate} (hg : st.gate = some g)
    (hs : g.Sound) : ∃ g', (begin d st).stage.gate = some g' ∧ g'.Sound := by
  rw [begin]
  split
  · exact ⟨g, hg, hs⟩
  · exact advance_sound d hg hs

theorem begin_ofDirective (d : Directive) (st : Stage) :
    ∀ e ∈ (begin d st).events, e.ofDirective = true := by
  rw [begin]
  split
  · simp [Event.ofDirective]
  · exact advance_ofDirective d st

theorem begin_asleep {d : Directive} {st : Stage} {left : List Action}
    (h : (begin d st).result = .asleep left) :
    ∃ duration, (begin d st).events.getLast? = some (.sleep duration) := by
  rw [begin] at h ⊢
  split at h
  · cases h
  · rename_i hd
    rw [if_neg hd]
    exact advance_asleep h

/-- Executed in one go, a directive shows what its beginning shows, and then the rest. -/
theorem execute_events (d : Directive) (st : Stage) :
    (execute d st).events = (begin d st).events ++ remainder (begin d st) := by
  rw [execute, begin]
  split
  · rfl
  · exact complete_events d st

/-- The empty directive ends as having no actions to go through does. -/
theorem execute_result (d : Directive) (st : Stage) :
    (execute d st).result = (complete d st).result := by
  rw [execute]
  split
  · rename_i h
    rw [h]
    rfl
  · rfl

theorem execute_stage (d : Directive) (st : Stage) :
    (execute d st).stage = (complete d st).stage := by
  rw [execute]
  split
  · rename_i h
    rw [h]
    rfl
  · rfl

/-- The empty directive is logged as such, and that is all that sets `execute` and `complete` apart. -/
theorem execute_shows_complete (d : Directive) (st : Stage) :
    (execute d st).events =
      (if d = [] then [.log .nothingToDo] else []) ++ (complete d st).events := by
  rw [execute]
  split
  · rename_i h
    rw [h]
    rfl
  · rfl

theorem execute_match (d : Directive) {st st' : Stage} (h : st.Alike st') :
    (execute d st).events = (execute d st').events := by
  rw [execute, execute]
  split
  · rfl
  · exact complete_match d h

end Directive
end ScriptedServer
