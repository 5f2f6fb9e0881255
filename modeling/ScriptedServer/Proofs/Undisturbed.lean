import ScriptedServer.Proofs.Stopping

/-!
Stopping the listener disturbs no open session. Two listeners that differ in their gates alone, both of
them started and with no fault to meet at a stop, go through steps side by side (`Listener.Beside`): an
action that stops the one finds the other stopped, and passes in both. So a run with a shutdown inserted
is, from there on, the run without it, as long as nothing asks whether connections are accepted.
-/

namespace ScriptedServer

/-! ### Traces without stops -/

/-- A trace without the stops of the listener. -/
def Trace.stopless (t : Trace) : Trace := t.filter (!·.2.isStop)

namespace Trace

@[simp] theorem stopless_append (t u : Trace) : (t ++ u).stopless = t.stopless ++ u.stopless :=
  List.filter_append ..

theorem stopless_of (o : Origin) (events : List Event) :
    (of o events).stopless = of o (events.filter (!·.isStop)) := by
  simp only [of, stopless, List.filter_map]
  rfl

end Trace

/-! ### Sound gates -/

namespace Gate

variable {allowed : Step → Prop} {g g' : Gate} {t : Trace}

theorem sound_of_acceptor {a : Acceptor} (ha : g.acceptor = some a) (hf : a.closeFault = none) :
    g.Sound := ⟨a.serving, by simp [face, ha, hf]⟩

theorem Sound.acceptor (h : g.Sound) : ∃ a, g.acceptor = some a ∧ a.closeFault = none := by
  obtain ⟨serving, hf⟩ := h
  cases ha : g.acceptor with
  | none => simp [face, ha] at hf
  | some a =>
    have hboth : a.serving = serving ∧ a.closeFault = none := by simpa [face, ha] using hf
    exact ⟨a, rfl, hboth.2⟩

/-- A sound gate is stopped without a fault, and is sound behind it. -/
theorem Sound.shut (h : g.Sound) : g.shut.state.Sound ∧ g.shut.error = none := by
  obtain ⟨a, ha, hf⟩ := h.acceptor
  cases hs : a.serving with
  | false =>
    have hl : g.isListening = false := by simp [isListening, ha, hs]
    rw [shut_of_not_listening hl]
    exact ⟨h, rfl⟩
  | true =>
    rw [shut_of_listening ha hs hf]
    exact ⟨sound_of_acceptor rfl hf, rfl⟩

theorem Sound.mended (h : g.Sound) : (g.setCloseFault none).Sound := by
  obtain ⟨a, ha, -⟩ := h.acceptor
  exact sound_of_acceptor (congrArg (Option.map _) ha) rfl

/-- Nothing but a stop is seen of a stop. -/
theorem shut_stopless (g : Gate) : g.shut.events.filter (!·.isStop) = [] := by
  rcases g.shut_events with he | he <;> rw [he] <;> rfl

/-- Where no fault is ever set for stops, a gate that was started is sound. -/
theorem Shifts.sound (h : Shifts (fun s => ∀ f, s ≠ .setCloseFault (some f)) {} t g) {a : Acceptor}
    (ha : g.acceptor = some a) : g.Sound := by
  refine sound_of_acceptor ha (Option.eq_none_iff_forall_ne_some.2 fun f hf => ?_)
  exact h.closeFault (fun _ => False) (fun f hset => hset f rfl) (fun _ _ h => by cases h) ha hf

end Gate

/-! ### Directives side by side -/

/-- Two stages with the same session, each with a sound gate. -/
structure Stage.Beside (st st' : Stage) : Prop where
  session : st.session = st'.session
  gate : ∃ g, st.gate = some g ∧ g.Sound
  gate' : ∃ g, st'.gate = some g ∧ g.Sound

/-- Two calls that fail alike, show the same but for stops, and lead to stages side by side. -/
structure Call.Beside (c c' : Call Stage Trouble) : Prop where
  state : c.state.Beside c'.state
  events : c.events.filter (!·.isStop) = c'.events.filter (!·.isStop)
  error : c.error = c'.error

/-- Two runs with one result that show the same but for stops, and lead to stages side by side. -/
structure Run.Beside {ρ : Type} (r r' : Run ρ) : Prop where
  stage : r.stage.Beside r'.stage
  events : r.events.filter (!·.isStop) = r'.events.filter (!·.isStop)
  result : r.result = r'.result

section Directives

variable {a : Action} {st st' : Stage}

/-- A stop of a sound gate passes. -/
theorem Action.attempt_shut_of_sound (hk : a.kind = some .shut) {g : Gate} (hg : st.gate = some g)
    (hs : g.Sound) : (a.attempt st).state.session = st.session
      ∧ (a.attempt st).events.filter (!·.isStop) = [.log (.executing a)]
      ∧ (a.attempt st).error = none := by
  have hattempt : a.attempt st = { state := { st with gate := some g.shut.state }
                                   events := .log (.executing a) :: g.shut.events } := by
    simp only [Action.attempt, hk, Action.perform, hg, Stage.onGate, hs.shut.2, Option.map_none]
  rw [hattempt]
  refine ⟨rfl, ?_, rfl⟩
  rw [List.filter_cons_of_pos rfl, g.shut_stopless]

theorem Action.attempt_beside (a : Action) (h : st.Beside st') :
    Call.Beside (a.attempt st) (a.attempt st') := by
  obtain ⟨hsession, ⟨g, hg, hs⟩, ⟨g', hg', hs'⟩⟩ := h
  have hgate := (a.attempt_spec st).sound hg hs
  have hgate' := (a.attempt_spec st').sound hg' hs'
  by_cases hk : a.kind = some .shut
  · obtain ⟨hstate, hevents, herror⟩ := Action.attempt_shut_of_sound hk hg hs
    obtain ⟨hstate', hevents', herror'⟩ := Action.attempt_shut_of_sound hk hg' hs'
    refine ⟨⟨?_, hgate, hgate'⟩, hevents.trans hevents'.symm, herror.trans herror'.symm⟩
    rw [hstate, hstate', hsession]
  · have hst' : st' = { st with gate := st'.gate } := by rw [hsession]
    have hattempt := Action.attempt_withGate hk st st'.gate
    rw [← hst'] at hattempt
    rw [hattempt] at hgate' ⊢
    exact ⟨⟨rfl, hgate, hgate'⟩, rfl, rfl⟩

theorem Trouble.conclude_beside (t : Trouble) (h : st.Beside st') :
    (t.conclude st).Beside (t.conclude st') := by
  obtain ⟨hsession, hgate, hgate'⟩ := h
  cases t with
  | fault f => exact ⟨⟨hsession, hgate, hgate'⟩, rfl, rfl⟩
  | error e =>
    rw [conclude, conclude, hsession]
    cases e.drops with
    | false => exact ⟨⟨hsession, hgate, hgate'⟩, rfl, rfl⟩
    | true => exact ⟨⟨rfl, hgate, hgate'⟩, rfl, rfl⟩

namespace Directive

theorem advance_beside (acts : List Action) (h : st.Beside st') :
    (advance acts st).Beside (advance acts st') := by
  induction acts generalizing st st' with
  | nil => exact ⟨h, rfl, rfl⟩
  | cons a rest ih =>
    obtain ⟨hstate, hevents, herror⟩ := a.attempt_beside h
    cases he : (a.attempt st).error with
    | some t =>
      obtain ⟨hstage, hend, hresult⟩ := t.conclude_beside hstate
      rw [advance_trouble rest he, advance_trouble rest (herror ▸ he)]
      refine ⟨hstage, ?_, congrArg Progress.ended hresult⟩
      simp only [List.filter_append, hevents, hend]
    | none =>
      by_cases hk : a.kind = some .wait
      · rw [advance_wait rest he hk, advance_wait rest (herror ▸ he) hk]
        exact ⟨hstate, hevents, rfl⟩
      · obtain ⟨hstage, hrest, hresult⟩ := ih hstate
        rw [advance_go rest he hk, advance_go rest (herror ▸ he) hk]
        refine ⟨hstage, ?_, hresult⟩
        simp only [Run.after, List.filter_append, hevents, hrest]

theorem Stretch.beside {acts : List Action} {stretch : Stage → Run Progress}
    (hs : Stretch acts stretch) (h : st.Beside st') : (stretch st).Beside (stretch st') := by
  cases hs with
  | advance => exact advance_beside acts h
  | begin =>
    rw [Directive.begin, Directive.begin]
    split
    · exact ⟨h, rfl, rfl⟩
    · exact advance_beside acts h

end Directive
end Directives

/-! ### Turns side by side -/

/-- Two turns that show the same but for stops and lead to the same connection, each with a sound gate
behind it. -/
structure Turn.Beside (t t' : Turn) : Prop where
  connection : t.connection = t'.connection
  events : t.events.filter (!·.isStop) = t'.events.filter (!·.isStop)
  sound : t.gate.Sound
  sound' : t'.gate.Sound

namespace Connection

variable {g g' : Gate} {t t' : Turn}

theorem rest_beside (h : t.Beside t') : (rest t).Beside (rest t') := by
  obtain ⟨hconnection, hevents, hs, hs'⟩ := h
  refine ⟨?_, ?_, hs, hs'⟩
  · simp only [rest, hconnection]
  · simp only [rest, List.filter_append, hconnection, hevents]

theorem after_beside (h : t.Beside t') (events : List Event) :
    (t.after events).Beside (t'.after events) := by
  refine ⟨h.connection, ?_, h.sound, h.sound'⟩
  simp only [Turn.after, List.filter_append, h.events]

theorem work_beside (c : Connection) {acts : List Action} {stretch : Stage → Run Progress}
    (hst : Directive.Stretch acts stretch) (hs : g.Sound) (hs' : g'.Sound) :
    (c.work g stretch).Beside (c.work g' stretch) := by
  have hstages : Stage.Beside ⟨c.session, some g⟩ ⟨c.session, some g'⟩ :=
    ⟨rfl, ⟨g, rfl, hs⟩, ⟨g', rfl, hs'⟩⟩
  obtain ⟨⟨hsession, ⟨b, hb, hsound⟩, ⟨b', hb', hsound'⟩⟩, hevents, hresult⟩ := hst.beside hstages
  refine ⟨?_, hevents, ?_, ?_⟩
  · simp only [work, hsession, hresult]
  · rwa [work, hb]
  · rwa [work, hb']

theorem refuse_beside (c : Connection) (hs : g.Sound) (hs' : g'.Sound) (others : List Event) :
    (c.refuse g others).Beside (c.refuse g' others) := by
  rw [refuse, refuse]
  cases c.session.hangUp.error <;> exact ⟨rfl, rfl, hs, hs'⟩

theorem read_beside (c : Connection) (hs : g.Sound) (hs' : g'.Sound) (data : List UInt8) :
    (c.read g data).Beside (c.read g' data) := by
  cases hp : pieces data with
  | nil =>
    rw [read_nothing hp, read_nothing hp]
    exact ⟨rfl, rfl, hs, hs'⟩
  | cons first others =>
    cases hk : c.session.consumed with
    | true =>
      rw [read_consumed hp hk, read_consumed hp hk]
      exact ⟨rfl, rfl, hs, hs'⟩
    | false =>
      cases hd : Directive.ofBytes? first with
      | none =>
        rw [read_refused hp hk hd, read_refused hp hk hd]
        exact after_beside (refuse_beside _ hs hs' _) _
      | some d =>
        rw [read_begun hp hk hd, read_begun hp hk hd]
        exact after_beside (work_beside _ .begin hs hs') _

theorem drop_beside (c : Connection) (hs : g.Sound) (hs' : g'.Sound) :
    (c.drop g).Beside (c.drop g') := rest_beside ⟨rfl, rfl, hs, hs'⟩

/-- A connection makes the same of a step that is addressed to it, or nothing on both sides. -/
theorem reaction_beside (s : Step) (directive : Option Directive) (c : Connection) (hs : g.Sound)
    (hs' : g'.Sound) :
    (s.reaction directive g c = none ∧ s.reaction directive g' c = none)
      ∨ ∃ t t', s.reaction directive g c = some t ∧ s.reaction directive g' c = some t'
          ∧ t.Beside t' := by
  cases s with
  | receive n data eof =>
    simp only [Step.reaction]
    split
    · refine .inr ⟨_, _, rfl, rfl, ?_⟩
      rw [receive, receive]
      split
      · exact rest_beside ⟨rfl, rfl, hs, hs'⟩
      · obtain ⟨hconnection, hevents, hsound, hsound'⟩ := read_beside c hs hs' data
        exact rest_beside ⟨by simp only [hconnection], hevents, hsound, hsound'⟩
    · exact .inl ⟨rfl, rfl⟩
  | endInbound n =>
    simp only [Step.reaction]
    split
    · exact .inr ⟨_, _, rfl, rfl, rest_beside ⟨rfl, rfl, hs, hs'⟩⟩
    · exact .inl ⟨rfl, rfl⟩
  | reset n f =>
    simp only [Step.reaction]
    split
    · exact .inr ⟨_, _, rfl, rfl, rest_beside ⟨rfl, rfl, hs, hs'⟩⟩
    · exact .inl ⟨rfl, rfl⟩
  | wake n =>
    simp only [Step.reaction]
    split
    · exact .inr ⟨_, _, rfl, rfl, rest_beside (work_beside c .advance hs hs')⟩
    · exact .inl ⟨rfl, rfl⟩
  | setFault n point f => exact .inr ⟨_, _, rfl, rfl, rfl, rfl, hs, hs'⟩
  | start | shutdown | serve | close | connect | setCloseFault => exact .inl ⟨rfl, rfl⟩

end Connection

/-! ### Listeners side by side -/

/-- Whether a step neither starts the listener nor asks whether connections are accepted, and sets no
fault for stops. -/
def Step.indifferent : Step → Bool
  | .start | .connect _ _ | .setCloseFault (some _) => false
  | _ => true

namespace Listener

/-- Two listeners that differ at most in their gates, which are sound, and in their waiters. -/
structure Beside (l l' : Listener) : Prop where
  directive : l.directive = l'.directive
  connections : l.connections = l'.connections
  sessions : l.sessions = l'.sessions
  order : l.order = l'.order
  sound : l.gate.Sound
  sound' : l'.gate.Sound

variable {l l' : Listener}

theorem Beside.withWaiters (h : l.Beside l') (serving closing serving' closing' : Option Waiter) :
    Beside { l with serving, closing } { l' with serving := serving', closing := closing' } :=
  ⟨h.directive, h.connections, h.sessions, h.order, h.sound, h.sound'⟩

theorem Beside.put (h : l.Beside l') (n : Nat) {t t' : Turn} (ht : t.Beside t') :
    (l.put n t).Beside (l'.put n t') := by
  refine ⟨h.directive, ?_, ?_, h.order, ht.sound, ht.sound'⟩
  · simp only [Listener.put, h.connections, ht.connection]
  · simp only [Listener.put, h.sessions, ht.connection]

theorem Beside.shut (h : l.Beside l') : l.shut.state.Beside l'.shut.state :=
  ⟨h.directive, h.connections, h.sessions, h.order, h.sound.shut.1, h.sound'.shut.1⟩

theorem dropSessions_beside (xs : List Nat) (h : l.Beside l') :
    (dropSessions xs l).1.Beside (dropSessions xs l').1
      ∧ (dropSessions xs l).2.1.stopless = (dropSessions xs l').2.1.stopless := by
  induction xs generalizing l l' with
  | nil => exact ⟨h, rfl⟩
  | cons n rest ih =>
    have hn : l.connections[n]? = l'.connections[n]? := by rw [h.connections]
    cases hc : l.connections[n]? with
    | none =>
      rw [dropSessions_of_none hc, dropSessions_of_none (hn ▸ hc)]
      exact ih h
    | some c =>
      cases hf : c.session.faults.abort with
      | some f =>
        rw [dropSessions_of_fault hc hf, dropSessions_of_fault (hn ▸ hc) hf]
        exact ⟨h, rfl⟩
      | none =>
        have hdrop := c.drop_beside h.sound h.sound'
        obtain ⟨hrest, htrace⟩ := ih (h.put n hdrop)
        rw [dropSessions_of_some hc hf, dropSessions_of_some (hn ▸ hc) hf]
        refine ⟨hrest, ?_⟩
        simp only [Trace.stopless_append, Trace.stopless_of, hdrop.events, htrace]

theorem shut_stopless (l : Listener) : (Trace.of .listener l.shut.events).stopless = [] := by
  rw [Trace.stopless_of]
  exact congrArg (Trace.of .listener) l.gate.shut_stopless

theorem close_beside (h : l.Beside l') :
    l.close.1.Beside l'.close.1 ∧ l.close.2.1.stopless = l'.close.2.1.stopless := by
  have he : l.shut.error = none := h.sound.shut.2
  have he' : l'.shut.error = none := h.sound'.shut.2
  obtain ⟨hdrop, htrace⟩ := dropSessions_beside l.openSessions h.shut
  have hopen : l'.openSessions = l.openSessions := by
    rw [openSessions, openSessions, h.order, h.sessions]
  rw [close, close, he, he', hopen]
  refine ⟨hdrop, ?_⟩
  simp only [Trace.stopless_append, shut_stopless, htrace]

/-- A step leads two listeners that are side by side on, and shows the same but for stops. -/
theorem step_beside {s : Step} (hs : s.indifferent = true) (h : l.Beside l') :
    (l.step s).1.Beside (l'.step s).1
      ∧ (l.step s).2.trace.stopless = (l'.step s).2.trace.stopless := by
  suffices hact : (l.act s).1.Beside (l'.act s).1
      ∧ (l.act s).2.trace.stopless = (l'.act s).2.trace.stopless from
    ⟨hact.1.withWaiters _ _ _ _, hact.2⟩
  cases ht : s.target with
  | some n =>
    have hn : l.connections[n]? = l'.connections[n]? := by rw [h.connections]
    rw [act_of_target ht, act_of_target ht, onConnection, onConnection, ← hn, ← h.directive]
    cases l.connections[n]? with
    | none => exact ⟨h, rfl⟩
    | some c =>
      rw [Option.bind_some, Option.bind_some]
      rcases Connection.reaction_beside s l.directive c h.sound h.sound' with
        ⟨hr, hr'⟩ | ⟨t, t', hr, hr', hturn⟩
      · rw [hr, hr']
        exact ⟨h, rfl⟩
      · rw [hr, hr']
        refine ⟨h.put n hturn, ?_⟩
        simp only [turn, Trace.stopless_of, hturn.events]
  | none =>
    cases s with
    | shutdown => exact ⟨h.shut, l.shut_stopless.trans l'.shut_stopless.symm⟩
    | serve =>
      obtain ⟨a, ha, -⟩ := h.sound.acceptor
      obtain ⟨a', ha', -⟩ := h.sound'.acceptor
      simp only [act, serve, ha, ha', Option.isSome_some, if_true]
      exact ⟨h.withWaiters _ _ _ _, trivial⟩
    | close =>
      obtain ⟨hclose, htrace⟩ := close_beside h
      exact ⟨hclose.withWaiters _ _ _ _, htrace⟩
    | setCloseFault f =>
      cases f with
      | some f => cases hs
      | none =>
        exact ⟨⟨h.directive, h.connections, h.sessions, h.order, h.sound.mended, h.sound'.mended⟩, rfl⟩
    | start | connect => cases hs
    | receive | endInbound | reset | wake | setFault => cases ht

/-! ### Whole runs -/

/-- What is to be seen at a step with a given result but for stops of the listener: all that it showed,
and behind it every connection and the numbers of those with an open session. -/
structure Scene where
  trace : Trace
  connections : List Connection
  sessions : List Nat

/-- What is to be seen at a step with a given result. -/
def scene (r : Listener × Outcome) : Scene where
  trace := r.2.trace.stopless
  connections := r.1.connections
  sessions := r.1.sessions

theorem run_beside {steps : List Step} (hs : ∀ s ∈ steps, s.indifferent = true) (h : l.Beside l') :
    (l.run steps).map scene = (l'.run steps).map scene
      ∧ (l.transcript steps).stopless = (l'.transcript steps).stopless := by
  induction steps generalizing l l' with
  | nil => exact ⟨rfl, rfl⟩
  | cons s rest ih =>
    obtain ⟨hone, hrest⟩ := List.forall_mem_cons.1 hs
    obtain ⟨hstep, htrace⟩ := step_beside hone h
    obtain ⟨hrun, htranscript⟩ := ih hrest hstep
    have hscene : scene (l.step s) = scene (l'.step s) := by
      simp only [scene, htrace, hstep.connections, hstep.sessions]
    refine ⟨?_, ?_⟩
    · simp only [run, List.map_cons, hscene, hrun]
    · simp only [transcript_cons, Trace.stopless_append, htrace, htranscript]

/-- A shutdown changes nothing but the gate, where no fault is ever set for stops. -/
theorem shutdown_beside (h : l.Steady)
    (hfree : ∀ a, l.gate.acceptor = some a → l.gate.Sound) :
    (l.step .shutdown).1 = l ∨ l.Beside (l.step .shutdown).1 := by
  cases ha : l.gate.acceptor with
  | none =>
    left
    have hshut : l.shut = { state := l } := by
      rw [shut, Gate.shut_of_not_listening (by simp [Gate.isListening, ha])]
    rw [step, act, hshut]
    exact h.noticed
  | some a =>
    have hs := hfree a ha
    exact .inr ⟨rfl, rfl, rfl, rfl, hs, hs.shut.1⟩

/-- Stopping the listener disturbs no session. In a run in which no fault is set for stops, a shutdown
may be inserted at any point behind which the listener is not started and no connection comes in: at each
later step the run shows the same but for stops, every connection stands the same and the same sessions
are open, and so the whole transcripts are the same but for stops. -/
theorem undisturbed_by_shutdown (host : Option Text) (port : Option Int)
    (directive : Option Directive) (binding : Binding) (order : SetOrder) {before after : List Step}
    (hfault : ∀ f, .setCloseFault (some f) ∉ before ++ after) (hstart : .start ∉ after)
    (hconnect : ∀ peer faults, .connect peer faults ∉ after) :
    let new := Listener.new host port directive binding order
    ((new.after before).run after).map scene
        = ((new.after (before ++ [.shutdown])).run after).map scene
      ∧ (new.transcript (before ++ after)).stopless
        = (new.transcript (before ++ .shutdown :: after)).stopless := by
  intro new
  let l := new.after before
  have hsteady : l.Steady := (new_steady host port directive binding order).after before
  have hshifts : Gate.Shifts (fun s => ∀ f, s ≠ .setCloseFault (some f)) {} (new.transcript before)
      l.gate := by
    refine after_shifts (l := new) fun s hs f he => hfault f ?_
    exact List.mem_append_left _ (he ▸ hs)
  have hsteps : ∀ s ∈ after, s.indifferent = true := by
    intro s hs
    cases s with
    | start => exact absurd hs hstart
    | connect peer faults => exact absurd hs (hconnect peer faults)
    | setCloseFault f =>
      cases f with
      | none => rfl
      | some f => exact absurd (List.mem_append_right _ hs) (hfault f)
    | _ => rfl
  have hboth : (l.run after).map scene = ((l.step .shutdown).1.run after).map scene
      ∧ (l.transcript after).stopless = ((l.step .shutdown).1.transcript after).stopless := by
    rcases shutdown_beside hsteady (fun a ha => hshifts.sound ha) with he | hbeside
    · rw [he]
      exact ⟨rfl, rfl⟩
    · exact run_beside hsteps hbeside
  have hquiet : (l.step .shutdown).2.trace.stopless = [] := l.shut_stopless
  refine ⟨?_, ?_⟩
  · rw [after_append]
    exact hboth.1
  · rw [transcript_append, transcript_append, transcript_cons]
    simp only [Trace.stopless_append]
    rw [hquiet, List.nil_append, hboth.2]

/-- Two connections, of which the first sends and falls asleep in front of a stop. -/
def sharedRun : List Step :=
  [.start, .connect none {}, .connect none {},
    .receive 0 (Utf8.encode "ACT[SEND=a,WAIT=5,SHUT,SEND=b]".toList) false]

/-- The second stops the listener too, the first wakes up, and a fault is met before all is closed. -/
def laterRun : List Step :=
  [.receive 1 (Utf8.encode "ACT[SHUT,WAIT=1,SEND=c]".toList) false, .wake 0,
    .setFault 1 .write (some .writeAfterClose), .serve, .wake 1, .close]

theorem undisturbed_by_shutdown_shared :
    let new := Listener.new none (some 0) none .asked .ofAcceptance
    (∀ f, .setCloseFault (some f) ∉ sharedRun ++ laterRun) ∧ .start ∉ laterRun
      ∧ (∀ peer faults, .connect peer faults ∉ laterRun)
      ∧ new.transcript (sharedRun ++ laterRun)
        ≠ new.transcript (sharedRun ++ .shutdown :: laterRun)
      ∧ ((new.after sharedRun).run laterRun).map scene
        = ((new.after (sharedRun ++ [.shutdown])).run laterRun).map scene
      ∧ (new.transcript (sharedRun ++ laterRun)).stopless
        = (new.transcript (sharedRun ++ .shutdown :: laterRun)).stopless := by
  intro new
  have hfault : ∀ f, .setCloseFault (some f) ∉ sharedRun ++ laterRun := by
    simp [sharedRun, laterRun]
  have hstart : .start ∉ laterRun := by simp [laterRun]
  have hconnect : ∀ peer faults, .connect peer faults ∉ laterRun := by simp [laterRun]
  exact ⟨hfault, hstart, hconnect, by decide,
    undisturbed_by_shutdown none (some 0) none .asked .ofAcceptance hfault hstart hconnect⟩

end Listener
end ScriptedServer
