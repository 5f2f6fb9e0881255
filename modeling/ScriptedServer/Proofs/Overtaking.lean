import ScriptedServer.Proofs.Waiting

/-!
Which activities that serve are ever told of a stop. Each start brings a signal of its own, and a stop
sets the newest one only, so an activity that awaits the signal of one start is lost when the next comes
before the stop: it is overtaken. Between starts the newest signal says whether connections are accepted
(`Gate.Prompt`), which gives the converse: in a run in which none is overtaken, every activity is done as
soon as the listener is stopped and no session is open (`served_iff`).
-/

namespace ScriptedServer

/-! ### The gate between two starts -/

theorem Trace.starts_of_connection (n : Nat) (events : List Event) :
    (Trace.of (.connection n) events).starts = 0 := by
  rw [starts, List.countP_eq_zero]
  rintro ⟨o, e⟩ hm
  obtain ⟨rfl, -⟩ := Trace.mem_of.1 hm
  exact Bool.false_ne_true

namespace Gate

/-- Whether the newest signal is set exactly if connections are no longer accepted. -/
def Prompt (g : Gate) : Prop := ∀ a, g.acceptor = some a → g.stopped = !a.serving

theorem opened_prompt (g : Gate) (port : Option Int) : (g.opened port).Prompt := by
  rintro a ⟨⟩
  rfl

theorem Prompt.stopped {g : Gate} (h : g.Prompt) (ha : g.acceptor.isSome = true) :
    g.stopped = !g.isListening := by
  obtain ⟨a, ha⟩ := Option.isSome_iff_exists.1 ha
  rw [h a ha, isListening, ha]
  rfl

/-- A gate that is taken to another without a start. -/
structure Between (g g' : Gate) : Prop where
  starts : g'.starts = g.starts
  opened : g'.acceptor.isSome = g.acceptor.isSome
  stopped : g.stopped = true → g'.stopped = true
  prompt : g.Prompt → g'.Prompt

variable {allowed : Step → Prop} {g g' g'' : Gate} {t : Trace}

theorem Between.refl (g : Gate) : g.Between g := ⟨rfl, rfl, id, id⟩

theorem Between.trans (h : g.Between g') (h' : g'.Between g'') : g.Between g'' where
  starts := h'.starts.trans h.starts
  opened := h'.opened.trans h.opened
  stopped := h'.stopped ∘ h.stopped
  prompt := h'.prompt ∘ h.prompt

theorem Shifts.between (h : Shifts allowed g t g') (ht : t.starts = 0) : g.Between g' := by
  induction h with
  | refl => exact .refl g
  | @snoc t u g' g'' _ hs ih =>
    rw [Trace.starts_append, Nat.add_eq_zero_iff] at ht
    refine (ih ht.1).trans ?_
    cases hs with
    | aside => exact .refl g'
    | stop o ha hs hf =>
      refine ⟨rfl, by rw [ha]; rfl, fun _ => rfl, fun _ => ?_⟩
      rintro a ⟨⟩
      rfl
    | start => cases ht.2
    | startFailed => cases ht.2
    | setCloseFault =>
      refine ⟨rfl, Option.isSome_map .., id, fun h a ha => ?_⟩
      obtain ⟨b, hb, rfl⟩ := Option.map_eq_some_iff.1 ha
      exact h b hb

/-- Starts are counted up. -/
theorem Shifts.starts_le (h : Shifts allowed g t g') : g.starts ≤ g'.starts := by
  induction h with
  | refl => exact Nat.le_refl _
  | snoc _ hs ih =>
    cases hs with
    | aside | stop | setCloseFault => exact ih
    | start | startFailed => exact Nat.le_succ_of_le ih

theorem shut_starts (g : Gate) : (Trace.of .listener g.shut.events).starts = 0 := by
  rcases g.shut_events with h | h <;> rw [h] <;> rfl

end Gate

namespace Listener

variable {l : Listener} {s : Step}

theorem dropSessions_starts (xs : List Nat) (l : Listener) :
    (dropSessions xs l).2.1.starts = 0 := by
  induction xs generalizing l with
  | nil => rfl
  | cons n rest ih =>
    cases hc : l.connections[n]? with
    | none =>
      rw [dropSessions_of_none hc]
      exact ih l
    | some c =>
      cases hf : c.session.faults.abort with
      | some f =>
        rw [dropSessions_of_fault hc hf]
        rfl
      | none =>
        rw [dropSessions_of_some hc hf]
        simp only [Trace.starts_append, Trace.starts_of_connection, ih]

/-- Only a start is seen to start the listener, or a serve of one that was never started. -/
theorem step_starts (hs : s ≠ .start) (hserve : s = .serve → l.gate.acceptor.isSome = true) :
    (l.step s).2.trace.starts = 0 := by
  have hstep : (l.step s).2 = (l.act s).2 := rfl
  rw [hstep]
  cases ht : s.target with
  | some n =>
    rw [act_of_target ht, onConnection]
    cases l.connections[n]?.bind (s.reaction l.directive l.gate) with
    | none => rfl
    | some t => exact Trace.starts_of_connection n t.events
  | none =>
    cases s with
    | start => exact absurd rfl hs
    | shutdown => exact l.gate.shut_starts
    | serve =>
      rw [act, serve, if_pos (hserve rfl)]
      rfl
    | close =>
      have hshut : (Trace.of .listener l.shut.events).starts = 0 := l.gate.shut_starts
      rw [act, close]
      cases l.shut.error with
      | some f => exact hshut
      | none =>
        simp only [Trace.starts_append, hshut, dropSessions_starts]
    | connect peer faults =>
      rw [act, connect]
      split
      · exact Trace.starts_of_connection _ _
      · rfl
    | setCloseFault f => rfl
    | receive | endInbound | reset | wake | setFault => cases ht

theorem step_between (hs : s ≠ .start) (hserve : s = .serve → l.gate.acceptor.isSome = true) :
    l.gate.Between (l.step s).1.gate := by
  have hshifts : Gate.Shifts (fun _ => True) l.gate (l.step s).2.trace (l.step s).1.gate :=
    step_shifts trivial
  exact hshifts.between (step_starts hs hserve)

/-- As long as no start comes, a listener that was started goes from gate to gate without one. -/
theorem after_between {steps : List Step} (ha : l.gate.acceptor.isSome = true)
    (hs : .start ∉ steps) : l.gate.Between (l.after steps).gate := by
  induction steps generalizing l with
  | nil => exact .refl _
  | cons s rest ih =>
    rw [List.mem_cons, not_or] at hs
    have hone : l.gate.Between (l.step s).1.gate := step_between (Ne.symm hs.1) fun _ => ha
    exact hone.trans (ih (hone.opened.trans ha) hs.2)

theorem start_opened (hb : ∀ f, l.binding ≠ .fails f) :
    l.start.error = none ∧ ∃ port, l.start.state.gate = l.gate.opened port := by
  rw [start]
  cases h : l.binding with
  | fails f => exact absurd h (hb f)
  | ports | asked => exact ⟨rfl, _, rfl⟩

/-- A listener whose starts all succeed, and whose newest signal says whether it is stopped. -/
structure Prompt (l : Listener) : Prop where
  steady : l.Steady
  binds : ∀ f, l.binding ≠ .fails f
  gate : l.gate.Prompt

/-- A step leaves the gate behind a start that has succeeded, or takes it on without one. -/
theorem step_gate_cases (hb : ∀ f, l.binding ≠ .fails f) (s : Step) :
    (∃ port, (l.step s).1.gate = l.gate.opened port ∧ (s = .start ∨ s = .serve))
      ∨ s ≠ .start ∧ l.gate.Between (l.step s).1.gate := by
  by_cases hs : s = .start
  · rw [hs]
    exact .inl ⟨_, (start_opened hb).2.choose_spec, .inl rfl⟩
  · by_cases hserve : s = .serve ∧ l.gate.acceptor.isSome = false
    · obtain ⟨rfl, ha⟩ := hserve
      obtain ⟨port, hport⟩ := (start_opened hb).2
      refine .inl ⟨port, ?_, .inr rfl⟩
      have hgate : (l.step .serve).1.gate = l.serve.1.gate := rfl
      rw [hgate, serve, if_neg (by rw [ha]; exact Bool.false_ne_true)]
      exact hport
    · refine .inr ⟨hs, step_between hs fun h => ?_⟩
      exact eq_true_of_ne_false fun ha => hserve ⟨h, ha⟩

theorem Prompt.step (h : l.Prompt) (s : Step) : (l.step s).1.Prompt where
  steady := h.steady.step s
  binds := by
    rw [(l.step_made s).2]
    exact h.binds
  gate := by
    rcases step_gate_cases h.binds s with ⟨port, hport, -⟩ | ⟨-, hbetween⟩
    · rw [hport]
      exact l.gate.opened_prompt port
    · exact hbetween.prompt h.gate

theorem Prompt.after (h : l.Prompt) (steps : List Step) : (l.after steps).Prompt := by
  induction steps generalizing l with
  | nil => exact h
  | cons s rest ih => exact ih (h.step s)

theorem new_prompt (host : Option Text) (port : Option Int) (directive : Option Directive)
    {binding : Binding} (order : SetOrder) (hb : ∀ f, binding ≠ .fails f) :
    (Listener.new host port directive binding order).Prompt where
  steady := new_steady host port directive binding order
  binds := hb
  gate := nofun

end Listener

/-! ### Activities between two steps -/

namespace Round

variable {l : Listener} {r : Round}

/-- Whether an activity has nothing to take notice of. -/
def Rests (l : Listener) (r : Round) : Prop := Waiter.settle l.gate l.isIdle r.waiter = r.waiter

/-- An activity that awaits the signal of an older start is not told of the newest. -/
theorem settle_older {k : Nat} (h : k < l.gate.starts) : (awaiting k).settle l = awaiting k :=
  if_neg fun hs => Nat.ne_of_lt h hs.1

theorem settle_unset {k : Nat} (h : l.gate.stopped = false) : (awaiting k).settle l = awaiting k :=
  if_neg fun hs => Bool.false_ne_true (h.symm.trans hs.2)

/-- Whether an activity was told of the stop it has awaited. -/
def Woken (r : Round) : Prop := r = .done ∨ ∃ batch, r = .gathering batch

theorem settle_rests (hl : l.Settled) (r : Round) : (r.settle l).Rests l := by
  rw [Rests, settle_waiter hl]
  exact Listener.settle_settle l.gate l.isIdle r.waiter

theorem Rests.of_waiter {r' : Round} (h : r'.Rests l) (he : r.waiter = r'.waiter) : r.Rests l := by
  rw [Rests, he]
  exact h

theorem Woken.of_waiter {r' : Round} (h : r'.Woken) (he : r.waiter = r'.waiter) : r.Woken := by
  rcases h with rfl | ⟨batch, rfl⟩
  · exact .inl (waiter_eq_done he)
  · cases r <;> cases he
    exact .inr ⟨_, rfl⟩

theorem next_woken (l : Listener) : (next l).Woken := by
  rw [next]
  split
  · exact .inl rfl
  · exact .inr ⟨_, rfl⟩

theorem Woken.settle (h : r.Woken) (l : Listener) : (r.settle l).Woken := by
  rcases r.settle_eq l with he | he
  · rwa [he]
  · rw [he]
    exact next_woken l

/-- An activity that was told of the stop is done where no session is open. -/
theorem Woken.eq_done (h : r.Woken) (hr : r.Rests l) (hidle : l.isIdle = true) : r = .done := by
  rcases h with rfl | ⟨batch, rfl⟩
  · rfl
  · rw [Rests, hidle] at hr
    cases hr

/-- An activity that awaits the newest signal awaits it no longer where that is set. -/
theorem Rests.unsignalled (h : (awaiting l.gate.starts).Rests l) : l.gate.stopped = false := by
  by_contra hstopped
  rw [Bool.not_eq_false] at hstopped
  rw [Rests, waiter, Waiter.settle, if_pos ⟨rfl, hstopped⟩] at h
  split at h <;> cases h

end Round

namespace Listener

variable {l : Listener} {r : Round} {k : Nat} {steps : List Step}

theorem follow_append (l : Listener) (r : Round) (steps more : List Step) :
    l.follow r (steps ++ more) = (l.after steps).follow (l.follow r steps) more := by
  induction steps generalizing l r with
  | nil => rfl
  | cons s rest ih => exact ih (l.step s).1 (r.settle (l.step s).1)

theorem follow_rests (hl : l.Steady) (hr : r.Rests l) (steps : List Step) :
    (l.follow r steps).Rests (l.after steps) := by
  induction steps generalizing l r with
  | nil => exact hr
  | cons s rest ih => exact ih (hl.step s) (Round.settle_rests (hl.step s).toSettled r)

theorem follow_woken (hr : r.Woken) (l : Listener) (steps : List Step) :
    (l.follow r steps).Woken := by
  induction steps generalizing l r with
  | nil => exact hr
  | cons s rest ih => exact ih (hr.settle _) _

/-- An activity that awaits a signal goes on to await it, or was told of it. -/
theorem follow_awaiting (l : Listener) (k : Nat) (steps : List Step) :
    l.follow (.awaiting k) steps = .awaiting k ∨ (l.follow (.awaiting k) steps).Woken := by
  induction steps generalizing l with
  | nil => exact .inl rfl
  | cons s rest ih =>
    rw [follow]
    rcases (Round.awaiting k).settle_eq (l.step s).1 with he | he
    · rw [he]
      exact ih _
    · rw [he]
      exact .inr (follow_woken (Round.next_woken _) _ _)

/-- An activity that awaits the signal of an older start awaits it for ever. -/
theorem follow_lost (hk : k < l.gate.starts) (steps : List Step) :
    l.follow (.awaiting k) steps = .awaiting k := by
  induction steps generalizing l with
  | nil => rfl
  | cons s rest ih =>
    have hshifts : Gate.Shifts (fun _ => True) l.gate (l.step s).2.trace (l.step s).1.gate :=
      step_shifts trivial
    have hlt : k < (l.step s).1.gate.starts := Nat.lt_of_lt_of_le hk hshifts.starts_le
    rw [follow, Round.settle_older hlt]
    exact ih hlt

/-- An activity awaits a signal as long as that is not set. -/
theorem follow_unsignalled (ha : l.gate.acceptor.isSome = true) (hs : .start ∉ steps)
    (hstopped : (l.after steps).gate.stopped = false) :
    l.follow (.awaiting k) steps = .awaiting k := by
  induction steps generalizing l with
  | nil => rfl
  | cons s rest ih =>
    rw [List.mem_cons, not_or] at hs
    have hone : l.gate.Between (l.step s).1.gate := step_between (Ne.symm hs.1) fun _ => ha
    have ha' := hone.opened.trans ha
    have hunset : (l.step s).1.gate.stopped = false := by
      by_contra h
      have hset := (after_between ha' hs.2).stopped (eq_true_of_ne_false h)
      cases hset.symm.trans hstopped
    rw [follow, Round.settle_unset hunset]
    exact ih ha' hs.2 hstopped

/-- An activity that serves awaits the newest signal when it begins, unless that is set. -/
theorem Prompt.serve_begins (h : l.Prompt) : (l.step .serve).1.gate.acceptor.isSome = true
    ∧ (l.step .serve).1.serving = some
        ((Round.awaiting (l.step .serve).1.gate.starts).settle (l.step .serve).1).waiter := by
  have hgate : (l.step .serve).1.gate = l.serve.1.gate := rfl
  have hsettled := (h.steady.step .serve).toSettled
  constructor
  · rw [hgate, serve]
    split
    · rename_i ha
      exact ha
    · obtain ⟨-, port, hport⟩ := start_opened h.binds
      simp only [hport]
      rfl
  · rw [Round.settle_waiter hsettled]
    rcases l.serve_serving with hw | ⟨f, -, -, he⟩
    · exact congrArg (Option.map _) hw
    · cases he.symm.trans (start_opened h.binds).1

/-- What is reported of an activity that begins to serve awaits the newest signal or was told of it. -/
theorem Prompt.serve_reported (h : l.Prompt) (hr : (l.step .serve).1.serving = some r.waiter) :
    r.Rests (l.step .serve).1 ∧ (r = .awaiting (l.step .serve).1.gate.starts ∨ r.Woken) := by
  let l' := (l.step .serve).1
  let r₀ := (Round.awaiting l'.gate.starts).settle l'
  have hw : r.waiter = r₀.waiter := Option.some.inj (hr.symm.trans h.serve_begins.2)
  have hrests : r₀.Rests l' := Round.settle_rests (h.steady.step .serve).toSettled _
  refine ⟨hrests.of_waiter hw, ?_⟩
  rcases (Round.awaiting l'.gate.starts).settle_eq l' with he | he
  · exact .inl (Round.waiter_eq_awaiting (hw.trans (congrArg Round.waiter he)))
  · exact .inr ((Round.next_woken l').of_waiter (hw.trans (congrArg Round.waiter he)))

/-- An activity that awaits the newest signal is told of it by the time that connections are no longer
accepted, if no start has come. -/
theorem Prompt.woken (h : l.Prompt) (ha : l.gate.acceptor.isSome = true) {mid : List Step}
    (hmid : .start ∉ mid) (hl : (l.after mid).isListening = false)
    (hr : (Round.awaiting l.gate.starts).Rests l) :
    (l.follow (.awaiting l.gate.starts) mid).Woken := by
  have hbetween := after_between ha hmid
  rcases follow_awaiting l l.gate.starts mid with he | he
  · have hrests := follow_rests h.steady hr mid
    rw [he, ← hbetween.starts] at hrests
    have hstopped := (h.after mid).gate.stopped (hbetween.opened.trans ha)
    rw [hrests.unsignalled] at hstopped
    cases hstopped.trans (congrArg (!·) hl)
  · exact he

/-- An activity that awaits the newest signal is lost to a start while connections are accepted. -/
theorem Prompt.lost (h : l.Prompt) (ha : l.gate.acceptor.isSome = true) {mid : List Step}
    (hmid : .start ∉ mid) (hl : (l.after mid).isListening = true) (rest : List Step) :
    l.gate.stopped = false
      ∧ l.follow (.awaiting l.gate.starts) (mid ++ .start :: rest) = .awaiting l.gate.starts := by
  have hbetween := after_between ha hmid
  have hstopped : (l.after mid).gate.stopped = false :=
    ((h.after mid).gate.stopped (hbetween.opened.trans ha)).trans (congrArg (!·) hl)
  constructor
  · by_contra hset
    cases (hbetween.stopped (eq_true_of_ne_false hset)).symm.trans hstopped
  · have hlater : l.gate.starts < ((l.after mid).step .start).1.gate.starts := by
      obtain ⟨-, port, hport⟩ := start_opened (h.after mid).binds
      have hgate : ((l.after mid).step .start).1.gate = (l.after mid).start.state.gate := rfl
      rw [hgate, hport, ← hbetween.starts]
      exact Nat.lt_succ_self _
    rw [follow_append, follow_unsignalled ha hmid hstopped, follow, Round.settle_older hlater]
    exact follow_lost hlater rest

/-- An activity that awaits the newest signal, or was told of it, is told of it by the time that the
listener is stopped if it has been stopped when the next start comes. -/
theorem Prompt.told (h : l.Prompt) (ha : l.gate.acceptor.isSome = true) (hr : r.Rests l)
    (hbegins : r = .awaiting l.gate.starts ∨ r.Woken) {later : List Step}
    (hstarts : ∀ mid rest, later = mid ++ .start :: rest → .start ∉ mid →
      (l.after mid).isListening = false)
    (hl : (l.after later).isListening = false) : (l.follow r later).Woken := by
  rcases hbegins with rfl | hwoken
  · by_cases hm : .start ∈ later
    · obtain ⟨mid, rest, rfl, hmid⟩ := List.eq_append_cons_of_mem hm
      rw [follow_append]
      exact follow_woken (h.woken ha hmid (hstarts mid rest rfl hmid) hr) _ _
    · exact h.woken ha hm hl hr
  · exact follow_woken hwoken _ _

/-! ### Whole runs -/

/-- Whether every activity that begins to serve in these steps is done behind them. -/
def AllServed (l : Listener) (steps : List Step) : Prop :=
  ∀ (before later : List Step) (r : Round), steps = before ++ .serve :: later →
    (l.after (before ++ [.serve])).serving = some r.waiter →
    (l.after (before ++ [.serve])).follow r later = .done

/-- Whether in these steps a start comes behind a serve, as the first, while connections are accepted. -/
def Overtaken (l : Listener) (steps : List Step) : Prop :=
  ∃ before mid later : List Step, steps = before ++ .serve :: (mid ++ .start :: later)
    ∧ .start ∉ mid ∧ (l.after (before ++ .serve :: mid)).isListening = true

/-- No stop is lost but where an activity is overtaken. In a run in which every start succeeds, and
behind which connections are not accepted and no session is open, all activities that serve are done
exactly if no start came first behind a serve while connections were accepted. -/
theorem all_served_iff {host : Option Text} {port : Option Int} {directive : Option Directive}
    {binding : Binding} {order : SetOrder} (hb : ∀ f, binding ≠ .fails f) {steps : List Step}
    (hl : ((Listener.new host port directive binding order).after steps).isListening = false)
    (hs : ((Listener.new host port directive binding order).after steps).sessions = []) :
    (Listener.new host port directive binding order).AllServed steps
      ↔ ¬ (Listener.new host port directive binding order).Overtaken steps := by
  have hnew := new_prompt host port directive order hb
  generalize Listener.new host port directive binding order = new at *
  constructor
  · rintro hserved ⟨before, mid, later, rfl, hmid, hlistening⟩
    have h := hnew.after before
    obtain ⟨ha, hbegins⟩ := h.serve_begins
    rw [after_append] at hlistening
    obtain ⟨hstopped, hlost⟩ := (h.step .serve).lost ha hmid hlistening later
    rw [Round.settle_unset hstopped] at hbegins
    have hdone := hserved before (mid ++ .start :: later) (.awaiting _) rfl
      (by rw [after_append]; exact hbegins)
    rw [after_append] at hdone
    cases hlost.symm.trans hdone
  · rintro hovertaken before later r rfl hr
    have h := hnew.after before
    rw [after_append] at hr hl hs ⊢
    obtain ⟨hrests, hbegins⟩ := h.serve_reported hr
    have hstarts : ∀ mid rest, later = mid ++ .start :: rest → .start ∉ mid →
        (((new.after before).step .serve).1.after mid).isListening = false := by
      intro mid rest hlater hmid
      by_contra hlistening
      refine hovertaken ⟨before, mid, rest, by rw [hlater], hmid, ?_⟩
      rw [after_append]
      exact eq_true_of_ne_false hlistening
    have htold := (h.step .serve).told h.serve_begins.1 hrests hbegins hstarts hl
    have hsettled := ((h.step .serve).after later).steady.toSettled
    exact htold.eq_done (follow_rests (h.step .serve).steady hrests later) (hsettled.isIdle_iff.2 hs)

/-- A listener that is started again only behind a stop. -/
theorem all_served_again :
    let new := Listener.new none (some 0) none .asked .ofAcceptance
    let steps : List Step := [.serve, .connect none {}, .shutdown, .start, .endInbound 0, .shutdown]
    (new.after steps).isListening = false ∧ (new.after steps).sessions = [] ∧ new.AllServed steps := by
  intro new steps
  have hl : (new.after steps).isListening = false := by decide
  have hs : (new.after steps).sessions = [] := by decide
  have hb : ∀ f, Binding.asked ≠ .fails f := fun _ => nofun
  refine ⟨hl, hs, (all_served_iff hb hl hs).2 ?_⟩
  rintro ⟨before, mid, later, hsteps, hmid, hlistening⟩
  rcases before with _ | ⟨b, before⟩
  · -- the only start stands third behind the serve
    obtain ⟨-, hlater⟩ := List.cons.inj hsteps
    rcases mid with _ | ⟨x, _ | ⟨y, _ | ⟨z, mid⟩⟩⟩
    · cases hlater
    · cases hlater
    · cases hlater
      exact absurd hlistening (by decide)
    · simp only [List.cons_append, List.cons.injEq] at hlater
      obtain ⟨-, -, rfl, -⟩ := hlater
      simp at hmid
  · have hrest : [.connect none {}, .shutdown, .start, .endInbound 0, .shutdown]
        = before ++ .serve :: (mid ++ .start :: later) := (List.cons.inj hsteps).2
    have hserve : Step.serve ∈ before ++ .serve :: (mid ++ .start :: later) := by simp
    rw [← hrest] at hserve
    simp at hserve

/-- An activity that is overtaken still awaits its signal when the listener is stopped. -/
theorem overtaken_awaits :
    let new := Listener.new none (some 0) none .asked .ofAcceptance
    let steps : List Step := [.start, .serve, .start, .shutdown]
    (new.after steps).isListening = false ∧ (new.after steps).sessions = []
      ∧ (new.after steps).serving = some (.awaiting 1) ∧ ¬ new.AllServed steps := by
  intro new steps
  refine ⟨by decide, by decide, by decide, fun hserved => ?_⟩
  have hdone := hserved [.start] [.start, .shutdown] (.awaiting 1) rfl (by decide)
  exact absurd hdone (by decide)

end Listener
end ScriptedServer
