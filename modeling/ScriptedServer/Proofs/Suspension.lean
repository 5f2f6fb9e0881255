import ScriptedServer.Proofs.Run

/-!
Sleeping changes nothing of what a directive does. A connection follows a list of events when what
its directive has shown so far is that list, up to a sleep that is still pending or to its end
(`Connection.Follows`). A stretch of the directive that begins where the last one stopped keeps it so
(`follows_stretch`), bytes and ends of file keep it so (`Closes.follows`), and steps of others keep it
so as long as they leave the gate with the same face. Hence a connection that has begun to follow what
its directive shows when executed in one go follows it through the whole run (`run_follows`).

The face of the gate matters: a start behind the stop that the directive itself made opens the gate
again, and the directive would stop it once more where in one go it finds it stopped.
-/

namespace ScriptedServer

/-! ### Connections that follow a list of events -/

namespace Connection

/-- Where a connection stands that has shown `shown` of the events `total` of its directive. -/
def Follows (total shown : List Event) (directive : Option Directive) (c : Connection) (g : Gate) :
    Prop :=
  (directive.isSome = true ∨ c.session.consumed = true) ∧ g.Sound ∧
    match c.job with
    | .none => False
    | .asleep left =>
      (∃ duration, shown.getLast? = some (.sleep duration))
        ∧ shown ++ (Directive.complete left ⟨c.session, some g⟩).events = total
    | .ended _ => shown = total

variable {total shown : List Event} {directive : Option Directive} {c c' : Connection} {g g' : Gate}

/-- What shows nothing of the directive and lets it sleep does not matter. -/
theorem Closes.follows {r : Connection × List Event} (hc : Closes c r)
    (h : c.Follows total shown directive g) : r.1.Follows total shown directive g := by
  obtain ⟨hd, hg, hj⟩ := h
  obtain ⟨torn, hs⟩ := hc.session
  refine ⟨by rw [hs]; exact hd, hg, ?_⟩
  rw [hc.job]
  cases hjob : c.job with
  | none => rwa [hjob] at hj
  | asleep left =>
    rw [hjob] at hj
    rw [hc.asleep (by rw [hjob]; rfl)]
    exact hj
  | ended f => rwa [hjob] at hj

/-- Another gate may be put in place if what is left of the directive shows the same with it. -/
theorem Follows.withGate (h : c.Follows total shown directive g) (hs : g'.Sound)
    (hrest : ∀ left, c.job = .asleep left →
      (Directive.complete left ⟨c.session, some g'⟩).events
        = (Directive.complete left ⟨c.session, some g⟩).events) :
    c.Follows total shown directive g' := by
  obtain ⟨hd, -, hj⟩ := h
  refine ⟨hd, hs, ?_⟩
  cases hjob : c.job with
  | none => rwa [hjob] at hj
  | asleep left =>
    rw [hjob] at hj
    exact ⟨hj.1, by rw [hrest left hjob]; exact hj.2⟩
  | ended f => rwa [hjob] at hj

/-- Only the face of the gate matters. -/
theorem Follows.ofFace (h : c.Follows total shown directive g) (hf : g'.face = g.face) :
    c.Follows total shown directive g' := by
  obtain ⟨serving, hs⟩ := h.2.1
  refine h.withGate ⟨serving, hf.trans hs⟩ fun left _ => ?_
  exact Directive.complete_match left ⟨⟨rfl, rfl, rfl⟩, congrArg some hf⟩

/-- Whether the directive is asleep with a stop of the listener still to come. -/
def willShut (c : Connection) : Bool :=
  match c.job with
  | .asleep left => left.any (·.kind = some .shut)
  | _ => false

/-- With no stop of the listener to come, the gate does not matter. -/
theorem Follows.ofNoShut (h : c.Follows total shown directive g) (hs : g'.Sound)
    (hw : c.willShut = false) : c.Follows total shown directive g' := by
  refine h.withGate hs fun left hl => ?_
  rw [willShut, hl] at hw
  have hnone : ∀ a ∈ left, a.kind ≠ some .shut := by simpa using hw
  exact Directive.complete_withGate hnone ⟨c.session, some g⟩ (some g')

/-- A stretch that shows what comes next, and that ends asleep or at the end of the directive. -/
theorem follows_stretch {stretch : Stage → Run Progress} {r : Run Progress}
    (hr : stretch ⟨c.session, some g⟩ = r) (hd : directive.isSome = true ∨ c.session.consumed = true)
    (hsession : ∃ ended torn,
      r.stage.session = { c.session with outputClosed := ended, closing := torn })
    (hgate : ∃ g', r.stage.gate = some g' ∧ g'.Sound)
    (hlast : ∀ left, r.result = .asleep left → ∃ duration, r.events.getLast? = some (.sleep duration))
    (htotal : shown ++ (r.events ++ Directive.remainder r) = total) :
    (c.work g stretch).connection.Follows total (shown ++ r.events) directive
      (c.work g stretch).gate := by
  obtain ⟨ended, torn, hs⟩ := hsession
  obtain ⟨g', hg', hsound⟩ := hgate
  have hstage : (⟨r.stage.session, some g'⟩ : Stage) = r.stage := by rw [← hg']
  rw [work, hr, hg']
  refine ⟨by rw [hs]; exact hd, hsound, ?_⟩
  rw [Directive.remainder] at htotal
  cases hres : r.result with
  | asleep left =>
    obtain ⟨duration, hlast⟩ := hlast left hres
    rw [hres] at htotal
    refine ⟨⟨duration, by rw [List.getLast?_append, hlast]; rfl⟩, ?_⟩
    rw [Option.getD_some, hstage, List.append_assoc]
    exact htotal
  | ended e =>
    rw [hres, List.append_nil] at htotal
    cases e <;> exact htotal

/-! ### Turns that carry the directive on -/

/-- A connection that wakes up shows the next stretch. -/
theorem wake_follows {left : List Action} (h : c.Follows total shown directive g)
    (hj : c.job = .asleep left) :
    (c.wake g left).connection.Follows total
      (shown ++ (c.wake g left).events.filter Event.ofDirective) directive (c.wake g left).gate := by
  obtain ⟨hd, hs, hf⟩ := h
  rw [hj] at hf
  have htotal : shown ++ ((Directive.advance left ⟨c.session, some g⟩).events
      ++ Directive.remainder (Directive.advance left ⟨c.session, some g⟩)) = total := by
    rw [← Directive.complete_events]
    exact hf.2
  have hw := follows_stretch rfl hd (Directive.advance_session left _)
    (Directive.advance_sound left rfl hs) (fun _ => Directive.advance_asleep) htotal
  rw [wake, rest_filter, List.filter_eq_self.2]
  · exact (settle_closes _).follows hw
  · exact Directive.advance_ofDirective left _

/-- A connection as it is accepted without faults, before anything came in. -/
def fresh (supply : Supply) (peer : Text) : Connection :=
  { session := { peer, faults := { supply } } }

variable {d : Directive} {peer label : Text} {supply : Supply}

/-- A directive that begins while connections are accepted shows the first stretch. -/
theorem begin_follows (directive : Option Directive) (c : Connection) (d : Directive) (peer : Text)
    (hd : directive.isSome = true ∨ c.session.consumed = true)
    (hs : c.session.Alike { peer, faults := { supply } }) (hg : g.face = some (true, none))
    (port : Option Int) :
    (c.work g d.begin).connection.Follows
      (d.execute ⟨{ peer, faults := { supply } }, some (Gate.started port)⟩).events
      ((c.work g d.begin).events.filter Event.ofDirective) directive (c.work g d.begin).gate := by
  have ha : Stage.Alike ⟨c.session, some g⟩ ⟨{ peer, faults := { supply } }, some (Gate.started port)⟩ :=
    ⟨hs, congrArg some hg⟩
  have htotal : [] ++ ((d.begin ⟨c.session, some g⟩).events
      ++ Directive.remainder (d.begin ⟨c.session, some g⟩))
        = (d.execute ⟨{ peer, faults := { supply } }, some (Gate.started port)⟩).events := by
    rw [← Directive.execute_match d ha, Directive.execute_events, List.nil_append]
  have hall : (c.work g d.begin).events.filter Event.ofDirective
      = (d.begin ⟨c.session, some g⟩).events :=
    List.filter_eq_self.2 (Directive.begin_ofDirective d _)
  rw [hall]
  exact follows_stretch rfl hd (Directive.begin_session d _)
    (Directive.begin_sound d rfl ⟨true, hg⟩) (fun _ => Directive.begin_asleep) htotal

/-- With a directive for all sessions it begins at once. -/
theorem welcome_follows (hg : g.face = some (true, none)) (port : Option Int) :
    ((fresh supply label).welcome (some d) g).connection.Follows
      (d.execute ⟨{ peer, faults := { supply } }, some (Gate.started port)⟩).events
      (((fresh supply label).welcome (some d) g).events.filter Event.ofDirective) (some d)
      ((fresh supply label).welcome (some d) g).gate := by
  have hb := begin_follows (some d) (fresh supply label) d peer (.inl rfl) ⟨rfl, rfl, rfl⟩ hg port
  rw [welcome, rest_filter]
  exact (settle_closes _).follows hb

/-- Without one the connection waits. -/
theorem welcome_fresh (supply : Supply) (label : Text) (g : Gate) :
    (fresh supply label).welcome none g =
      { connection := fresh supply label, gate := g, events := [.log (.connected label)] } := rfl

theorem receive_nothing (supply : Supply) (label : Text) (g : Gate) :
    (fresh supply label).receive none g [] false = { connection := fresh supply label, gate := g } := rfl

/-- The first payload that comes in carries the directive. -/
theorem receive_follows {data : List UInt8} (h : data ≠ [])
    (hd : Directive.ofBytes? (data.take readSize) = some d) (hg : g.face = some (true, none))
    (port : Option Int) (eof : Bool) :
    ((fresh supply label).receive none g data eof).connection.Follows
      (d.execute ⟨{ peer, faults := { supply } }, some (Gate.started port)⟩).events
      (((fresh supply label).receive none g data eof).events.filter Event.ofDirective) none
      ((fresh supply label).receive none g data eof).gate := by
  obtain ⟨others, hp⟩ := pieces_of_ne_nil h
  have hlines : (receivedLine (data.take readSize) :: others.map receivedLine).filter
      Event.ofDirective = [] := by
    simp [receivedLine, Event.ofDirective]
  have hr : (fresh supply label).receive none g data eof =
      let t := (Connection.work { fresh supply label with session.consumed := true } g d.begin).after
        (receivedLine (data.take readSize) :: others.map receivedLine)
      rest { t with
        connection := { t.connection with inboundOpen := t.connection.inboundOpen && !eof } } := by
    rw [receive, if_neg (by simp [fresh]), read_begun hp rfl hd]
  rw [hr, rest_filter]
  simp only [Turn.after]
  rw [List.filter_append, hlines, List.nil_append]
  have hb := begin_follows none { fresh supply label with session.consumed := true } d peer (.inr rfl)
    ⟨rfl, rfl, rfl⟩ hg port
  exact (settle_closes _).follows ((inbound_closes _ _).follows hb)

/-- What a connection that follows its directive has shown, in the end. -/
theorem Follows.shown_of (h : c.Follows total shown directive g) :
    shown <+: total ∧
      if c.job.isAsleep = true then ∃ duration, shown.getLast? = some (.sleep duration)
      else shown = total := by
  obtain ⟨-, -, hj⟩ := h
  cases hjob : c.job with
  | none => rw [hjob] at hj; exact hj.elim
  | asleep left =>
    rw [hjob] at hj
    exact ⟨⟨_, hj.2⟩, hj.1⟩
  | ended f =>
    rw [hjob] at hj
    exact ⟨hj ▸ List.prefix_rfl, hj⟩

end Connection

/-! ### Steps that leave a connection to itself -/

namespace Step

/-- Whether a step neither resets connection `n`, nor gives it or the listening socket a fault, nor
closes the listener. -/
def calm (n : Nat) : Step → Bool
  | .close => false
  | .reset m _ | .setFault m _ _ => m ≠ n
  | .setCloseFault f => f.isNone
  | _ => true

theorem calm_ne_close {n : Nat} {s : Step} (hs : s.calm n = true) : s ≠ .close := by
  rintro rfl
  cases hs

/-- The bytes that a step brings to connection `n`, and whether the end of file is behind them. -/
def inbound? (n : Nat) : Step → Option (List UInt8 × Bool)
  | .receive m data eof => if m = n then some (data, eof) else none
  | .endInbound m => if m = n then some ([], true) else none
  | _ => none

end Step

/-- What a trace shows of the directive of connection `n`. -/
def Trace.ofDirective (t : Trace) (n : Nat) : List Event :=
  (t.view (.connection n)).filter Event.ofDirective

@[simp] theorem Trace.ofDirective_append (t u : Trace) (n : Nat) :
    (t ++ u).ofDirective n = t.ofDirective n ++ u.ofDirective n := by
  simp [Trace.ofDirective]

theorem Trace.ofDirective_of (n : Nat) (events : List Event) :
    Trace.ofDirective (Trace.of (.connection n) events) n = events.filter Event.ofDirective := by
  rw [Trace.ofDirective, Trace.view_of_self]

namespace Listener

variable {l : Listener} {n : Nat} {s : Step} {steps : List Step}

/-- Whether connection `n` has a stop of the listener still to come. -/
def willShut (l : Listener) (n : Nat) : Bool := l.connections[n]?.any (·.willShut)

/-- Whether no start finds the listener stopped while connection `n` has another stop of it still to
come. -/
def neverReopened (n : Nat) : Listener → List Step → Bool
  | _, [] => true
  | l, s :: rest =>
    (s ≠ .start || l.isListening || !l.willShut n) && neverReopened n (l.step s).1 rest

/-- Whether all stops of the listener that a trace shows are made by connection `n`. -/
def SoleShutter (n : Nat) (t : Trace) : Prop := ∀ e ∈ t, e.2 = .serverClose → e.1 = .connection n

instance (n : Nat) (t : Trace) : Decidable (SoleShutter n t) :=
  inferInstanceAs (Decidable (∀ e ∈ t, e.2 = .serverClose → e.1 = .connection n))

/-- If connection `n` alone stops the listener, a step that it takes no part in does not. -/
theorem not_stopped_by_others (hn : n < l.connections.length) (ht : s.target ≠ some n)
    (hclose : s ≠ .close) (hsole : SoleShutter n (l.step s).2.trace) (o : Origin) :
    (o, .serverClose) ∉ (l.step s).2.trace := by
  intro hm
  obtain rfl := hsole _ hm rfl
  have hv := (step_other hn ht hclose).2
  rw [← Trace.mem_view, hv] at hm
  cases hm

/-- A step of others leaves the face of the gate alone, unless it starts the listener. -/
theorem step_face (hn : n < l.connections.length) (ht : s.target ≠ some n) (hs : s.calm n = true)
    (hg : l.gate.Sound) (hsole : SoleShutter n (l.step s).2.trace) :
    (l.step s).1.gate.face = l.gate.face
      ∨ s = .start ∧ (l.step s).1.gate.face = some (true, none) := by
  have hclose := Step.calm_ne_close hs
  have hquiet := not_stopped_by_others hn ht hclose hsole
  obtain ⟨serving, hface⟩ := hg
  by_cases hstart : s = .start
  · subst hstart
    simp only [step, act, start, notice_gate]
    cases l.binding.bind l.port with
    | error f => exact .inl rfl
    | ok port => exact .inr ⟨trivial, rfl⟩
  · left
    by_cases hfault : ∃ f, s = .setCloseFault f
    · obtain ⟨f, rfl⟩ := hfault
      have hf : f = none := by simpa [Step.calm] using hs
      obtain ⟨acceptor, ha, -, hnone⟩ : ∃ a, l.gate.acceptor = some a ∧ a.serving = serving
          ∧ a.closeFault = none := by simpa [Gate.face] using hface
      simp [step, act, Gate.setCloseFault, Gate.face, ha, hf, hnone]
    · have hacc : l.gate.acceptor.isSome = true := by
        rw [← Option.isSome_map, ← Gate.face, hface]; rfl
      rw [step_gate hstart hclose (fun f hf => hfault ⟨f, hf⟩) (fun _ => hacc) hquiet]

/-! ### Steps that are addressed to the connection -/

variable {c : Connection} {total shown : List Event}

/-- A connection that follows its directive goes on to do so. -/
theorem reaction_follows {directive : Option Directive} {g : Gate} {t : Turn}
    (ht : s.target = some n) (hs : s.calm n = true) (h : c.Follows total shown directive g)
    (hr : s.reaction directive g c = some t) :
    t.connection.Follows total (shown ++ t.events.filter Event.ofDirective) directive t.gate := by
  have hsilent : ∀ {c' : Connection} {events : List Event}, c.Closes (c', events) →
      c'.Follows total (shown ++ events.filter Event.ofDirective) directive g := by
    intro c' events hc
    have hnone : events.filter Event.ofDirective = [] :=
      List.filter_eq_nil_iff.2 fun e he => by simp [hc.events e he]
    rw [hnone, List.append_nil]
    exact hc.follows h
  cases s with
  | receive m data eof =>
    obtain ⟨-, ⟨⟩⟩ := Option.ite_none_right_eq_some.1 hr
    obtain ⟨hc, hg⟩ := Connection.receive_closes h.1 g data eof
    rw [hg]
    exact hsilent hc
  | endInbound m =>
    obtain ⟨-, ⟨⟩⟩ := Option.ite_none_right_eq_some.1 hr
    exact hsilent (c.endInbound_closes g)
  | wake m =>
    rw [Step.reaction] at hr
    split at hr
    · rename_i left hj
      cases hr
      exact Connection.wake_follows h hj
    · cases hr
  | reset m f | setFault m point f =>
    cases ht
    simp [Step.calm] at hs
  | start | shutdown | serve | close | connect | setCloseFault => cases ht

/-! ### Whole runs -/

/-- A connection that follows its directive does so behind a step of any kind. -/
theorem step_follows (hc : l.connections[n]? = some c) (h : c.Follows total shown l.directive l.gate)
    (hs : s.calm n = true) (hsole : SoleShutter n (l.step s).2.trace)
    (hstart : s ≠ .start ∨ l.isListening = true ∨ l.willShut n = false) :
    ∃ c', (l.step s).1.connections[n]? = some c'
      ∧ c'.Follows total (shown ++ (l.step s).2.trace.ofDirective n) (l.step s).1.directive
          (l.step s).1.gate := by
  obtain ⟨hlt, -⟩ := List.getElem?_eq_some_iff.1 hc
  rw [step_directive]
  by_cases ht : s.target = some n
  · rcases step_target ht hc with ⟨-, he⟩ | ⟨t, hr, ht', hg, hev⟩
    · rw [he]
      refine ⟨c, hc, ?_⟩
      rw [show Trace.ofDirective [] n = [] from rfl, List.append_nil]
      exact h
    · rw [ht', hg, hev, Trace.ofDirective_of]
      exact ⟨_, rfl, reaction_follows ht hs h hr⟩
  · have hclose := Step.calm_ne_close hs
    obtain ⟨hsame, hview⟩ := step_other hlt ht hclose
    rw [hsame, Trace.ofDirective, hview, List.filter_nil, List.append_nil]
    refine ⟨c, hc, ?_⟩
    rcases step_face hlt ht hs h.2.1 hsole with hf | ⟨hst, hf⟩
    · exact h.ofFace hf
    · obtain ⟨serving, hface⟩ := h.2.1
      rcases hstart with hne | hl | hw
      · exact absurd hst hne
      · -- a start of a listener that is listening leaves it so
        have hserving : serving = true := (Gate.isListening_of_face hface).symm.trans hl
        exact h.ofFace (by rw [hf, hface, hserving])
      · rw [willShut, hc] at hw
        exact h.ofNoShut ⟨true, hf⟩ hw

/-- So it does through a whole run. -/
theorem run_follows (steps : List Step) (hc : l.connections[n]? = some c)
    (h : c.Follows total shown l.directive l.gate) (hs : ∀ s ∈ steps, s.calm n = true)
    (hsole : SoleShutter n (l.transcript steps)) (hstart : l.neverReopened n steps = true) :
    ∃ c', (l.after steps).connections[n]? = some c'
      ∧ c'.Follows total (shown ++ (l.transcript steps).ofDirective n) (l.after steps).directive
          (l.after steps).gate := by
  induction steps generalizing l c shown with
  | nil =>
    refine ⟨c, hc, ?_⟩
    rw [transcript_nil, show Trace.ofDirective [] n = [] from rfl, List.append_nil]
    exact h
  | cons s rest ih =>
    rw [transcript_cons] at hsole ⊢
    rw [neverReopened, Bool.and_eq_true] at hstart
    have hnow : s ≠ .start ∨ l.isListening = true ∨ l.willShut n = false := by
      simpa [or_assoc] using hstart.1
    obtain ⟨c', hc', h'⟩ := step_follows hc h (hs s List.mem_cons_self)
      (fun e he => hsole e (List.mem_append_left _ he)) hnow
    rw [Trace.ofDirective_append, ← List.append_assoc]
    exact ih hc' h' (fun s hm => hs s (List.mem_cons_of_mem _ hm))
      (fun e he => hsole e (List.mem_append_right _ he)) hstart.2

/-- The bytes that connection `n` receives first. -/
def firstPayload? (n : Nat) : List Step → Option (List UInt8)
  | [] => none
  | s :: rest =>
    match s.inbound? n with
    | some (data, eof) =>
      if data ≠ [] then some data else if eof then none else firstPayload? n rest
    | none => firstPayload? n rest

/-- The directive that the next connection runs: the one for all sessions, or else the one that the
first piece of what it receives carries. -/
def directiveOf (l : Listener) (peer : Option (List Value)) (steps : List Step) : Option Directive :=
  match peerLabel (peer.getD (standInPeer l.connections.length)), l.directive with
  | .error _, _ => none
  | .ok _, some d => some d
  | .ok _, none =>
    (firstPayload? l.connections.length steps).bind fun data =>
      Directive.ofBytes? (data.take readSize)

/-- Whether a sleep of connection `n` is pending. -/
def isAsleep (l : Listener) (n : Nat) : Bool := l.connections[n]?.any (·.job.isAsleep)

variable {d : Directive} {label : Text} {supply : Supply}

/-- A step of others leaves a connection waiting. -/
theorem step_fresh_other (rest : List Step) (hc : l.connections[n]? = some (.fresh supply label))
    (hg : l.gate.face = some (true, none)) (ht : s.target ≠ some n) (hs : s.calm n = true)
    (hsole : SoleShutter n (l.step s).2.trace) :
    (l.step s).1.connections[n]? = some (.fresh supply label)
      ∧ (l.step s).1.gate.face = some (true, none)
      ∧ (l.step s).2.trace.ofDirective n = []
      ∧ firstPayload? n (s :: rest) = firstPayload? n rest := by
  have hclose := Step.calm_ne_close hs
  obtain ⟨hlt, -⟩ := List.getElem?_eq_some_iff.1 hc
  obtain ⟨hsame, hview⟩ := step_other hlt ht hclose
  have hin : s.inbound? n = none := by
    cases s with
    | receive m | endInbound m => exact if_neg fun hm => ht (congrArg some hm)
    | _ => rfl
  refine ⟨hsame.trans hc, ?_, by rw [Trace.ofDirective, hview]; rfl, ?_⟩
  · rcases step_face hlt ht hs ⟨true, hg⟩ hsole with hf | ⟨-, hf⟩
    · exact hf.trans hg
    · exact hf
  · simp only [firstPayload?, hin]

/-- A connection that waits for its directive goes on to wait, or the step brings the directive and
the connection follows it from then on. -/
theorem step_fresh {rest : List Step} {data : List UInt8}
    (hc : l.connections[n]? = some (.fresh supply label)) (hl : l.directive = none)
    (hg : l.gate.face = some (true, none)) (hdata : firstPayload? n (s :: rest) = some data)
    (hd : Directive.ofBytes? (data.take readSize) = some d)
    (hs : s.calm n = true) (hsole : SoleShutter n (l.step s).2.trace)
    (peer : Text) (port : Option Int) :
    ((l.step s).1.connections[n]? = some (.fresh supply label)
        ∧ (l.step s).1.gate.face = some (true, none)
        ∧ (l.step s).2.trace.ofDirective n = [] ∧ firstPayload? n rest = some data)
      ∨ ∃ c', (l.step s).1.connections[n]? = some c'
          ∧ c'.Follows (d.execute ⟨{ peer, faults := { supply } }, some (Gate.started port)⟩).events
              ((l.step s).2.trace.ofDirective n) (l.step s).1.directive (l.step s).1.gate := by
  by_cases ht : s.target = some n
  · cases s with
    | receive m bytes eof =>
      obtain rfl : m = n := by simpa [Step.target] using ht
      simp only [firstPayload?, Step.inbound?, if_true] at hdata
      rcases step_target ht hc with ⟨hr, -⟩ | ⟨t, hr, ht', hg', hev⟩
      · cases hr
      · obtain rfl : (Connection.fresh supply label).receive none l.gate bytes eof = t := by
          simpa [Step.reaction, Connection.fresh, hl] using hr
        by_cases hb : bytes = []
        · subst hb
          cases eof with
          | true => cases hdata
          | false =>
            rw [Connection.receive_nothing] at ht' hg' hev
            exact .inl ⟨ht', by rw [hg', hg], by rw [hev]; rfl, hdata⟩
        · rw [if_pos hb] at hdata
          cases hdata
          rw [step_directive, hl, hg', hev, Trace.ofDirective_of]
          exact .inr ⟨_, ht', Connection.receive_follows hb hd hg port eof⟩
    | endInbound m =>
      obtain rfl : m = n := by simpa [Step.target] using ht
      simp [firstPayload?, Step.inbound?] at hdata
    | wake m =>
      rcases step_target ht hc with ⟨-, he⟩ | ⟨t, hr, -⟩
      · rw [he]
        exact .inl ⟨hc, hg, rfl, hdata⟩
      · cases hr
    | reset m f | setFault m point f =>
      cases ht
      simp [Step.calm] at hs
    | start | shutdown | serve | close | connect | setCloseFault => cases ht
  · obtain ⟨hsame, hface, hev, hrest⟩ := step_fresh_other rest hc hg ht hs hsole
    exact .inl ⟨hsame, hface, hev, hrest.symm.trans hdata⟩

theorem run_fresh (steps : List Step) {data : List UInt8}
    (hc : l.connections[n]? = some (.fresh supply label)) (hl : l.directive = none)
    (hg : l.gate.face = some (true, none)) (hdata : firstPayload? n steps = some data)
    (hd : Directive.ofBytes? (data.take readSize) = some d)
    (hs : ∀ s ∈ steps, s.calm n = true) (hsole : SoleShutter n (l.transcript steps))
    (hstart : l.neverReopened n steps = true) (peer : Text) (port : Option Int) :
    ∃ c', (l.after steps).connections[n]? = some c'
      ∧ c'.Follows (d.execute ⟨{ peer, faults := { supply } }, some (Gate.started port)⟩).events
          ((l.transcript steps).ofDirective n) (l.after steps).directive (l.after steps).gate := by
  induction steps generalizing l with
  | nil => cases hdata
  | cons s rest ih =>
    have hrest : ∀ s ∈ rest, s.calm n = true := fun s hm => hs s (List.mem_cons_of_mem _ hm)
    rw [transcript_cons] at hsole ⊢
    rw [neverReopened, Bool.and_eq_true] at hstart
    have hsole' : SoleShutter n ((l.step s).1.transcript rest) :=
      fun e he => hsole e (List.mem_append_right _ he)
    rw [Trace.ofDirective_append]
    rcases step_fresh hc hl hg hdata hd (hs s List.mem_cons_self)
      (fun e he => hsole e (List.mem_append_left _ he)) peer port
      with ⟨hc', hg', hev, hdata'⟩ | ⟨c', hc', h'⟩
    · rw [hev, List.nil_append]
      exact ih hc' ((step_directive l s).trans hl) hg' hdata' hrest hsole' hstart.2
    · exact run_follows rest hc' h' hrest hsole' hstart.2

/-- A connection that is accepted is announced. -/
theorem step_connect (supply : Supply) {peer : Option (List Value)} (hl : l.isListening = true)
    (hp : peerLabel (peer.getD (standInPeer l.connections.length)) = .ok label) :
    let t := (Connection.fresh supply label).welcome l.directive l.gate
    (l.step (.connect peer { supply })).1.connections[l.connections.length]? = some t.connection
      ∧ (l.step (.connect peer { supply })).1.gate = t.gate
      ∧ (l.step (.connect peer { supply })).2.trace.ofDirective l.connections.length
          = t.events.filter Event.ofDirective := by
  intro t
  have hacc : Connection.accept (peer.getD (standInPeer l.connections.length)) { supply } l.directive
      l.gate = t := by
    rw [Connection.accept, hp]; rfl
  simp only [step, act, connect_of_listening hl, hacc, notice_connections, notice_gate]
  exact ⟨List.getElem?_concat_length, trivial, Trace.ofDirective_of _ _⟩

/-- A connection that is accepted while connections are accepted runs its directive through all that
comes in, ends of file and the ends of its sleeps, in whatever order, and what it shows is a prefix
of what the directive shows when it is executed in one go in a new session of a started listener, with
the same supply.
It shows all of it, or is asleep and has shown so at last. Nobody but the connection may stop the
listener meanwhile, and nobody may start it again while the directive has another stop to make. -/
theorem suspended_shows {peer : Option (List Value)}
    (hg : l.gate.face = some (true, none)) (hd : l.directiveOf peer steps = some d)
    (hs : ∀ s ∈ steps, s.calm l.connections.length = true)
    (hsole : SoleShutter l.connections.length (l.transcript (.connect peer { supply } :: steps)))
    (hstart : (l.step (.connect peer { supply })).1.neverReopened l.connections.length steps = true)
    (label : Text) (port : Option Int) :
    let n := l.connections.length
    let run := .connect peer { supply } :: steps
    let shown := (l.transcript run).ofDirective n
    let straight := (d.execute ⟨{ peer := label, faults := { supply } }, some (Gate.started port)⟩).events
    shown <+: straight ∧
      if (l.after run).isAsleep n = true then ∃ duration, shown.getLast? = some (.sleep duration)
      else shown = straight := by
  intro n run shown straight
  suffices hc : ∃ c', (l.after run).connections[n]? = some c'
      ∧ c'.Follows straight shown (l.after run).directive (l.after run).gate by
    obtain ⟨c', hc', h⟩ := hc
    have ha : (l.after run).isAsleep n = c'.job.isAsleep := by rw [isAsleep, hc']; rfl
    rw [ha]
    exact h.shown_of
  have hl : l.isListening = true := Gate.isListening_of_face hg
  cases hp : peerLabel (peer.getD (standInPeer l.connections.length)) with
  | error f => simp [directiveOf, hp] at hd
  | ok own =>
    obtain ⟨hc, hgate, hev⟩ := step_connect supply hl hp
    have hdir := l.step_directive (.connect peer { supply })
    have hsole' : SoleShutter n ((l.step (.connect peer { supply })).1.transcript steps) := fun e he =>
      hsole e (by rw [transcript_cons]; exact List.mem_append_right _ he)
    simp only [shown, run, after_cons, transcript_cons, Trace.ofDirective_append]
    cases hglobal : l.directive with
    | some d' =>
      obtain rfl : d' = d := by simpa [directiveOf, hp, hglobal] using hd
      rw [hglobal] at hc hgate hev hdir
      refine run_follows steps hc ?_ hs hsole' hstart
      rw [hdir, hgate, hev]
      exact Connection.welcome_follows hg port
    | none =>
      obtain ⟨data, hdata, hd'⟩ : ∃ data, firstPayload? n steps = some data
          ∧ Directive.ofBytes? (data.take readSize) = some d := by
        simpa [directiveOf, hp, hglobal, Option.bind_eq_some_iff] using hd
      rw [hglobal, Connection.welcome_fresh] at hc hgate hev
      have hquiet : (l.step (.connect peer { supply })).2.trace.ofDirective n = [] := hev.trans rfl
      rw [hquiet, List.nil_append]
      exact run_fresh steps hc (hdir.trans hglobal) (by rw [hgate]; exact hg) hdata hd' hs hsole'
        hstart label port

/-- A connection that sends, sleeps, stops the listener, sleeps and sends again. Nothing but an empty
read comes in before its directive, the file ends behind it, and once it has stopped the listener for
good that is started again. -/
def sleepyRun : List Step :=
  [.receive 1 [] false, .connect none {}, .start,
    .receive 1 (Utf8.encode "x ACT[SEND=a,WAIT=5,SHUT,WAIT=1,SEND=b]".toList) false,
    .receive 1 (Utf8.encode "ACT[CLOSE]".toList) false, .wake 2, .endInbound 1, .wake 1, .start]

/-- The directive of that connection. -/
def sleepyDirective : Directive :=
  [⟨"SEND".toList, some "a".toList⟩, ⟨"WAIT".toList, some "5".toList⟩, ⟨"SHUT".toList, none⟩,
    ⟨"WAIT".toList, some "1".toList⟩, ⟨"SEND".toList, some "b".toList⟩]

theorem suspended_shows_sleepy :
    let l : Listener := Listener.after { host := none, port := some 0 } [.start, .connect none {}]
    let shown := (l.transcript (.connect none {} :: sleepyRun)).ofDirective 1
    let straight := (sleepyDirective.execute ⟨{ peer := [] }, some (Gate.started none)⟩).events
    l.gate.face = some (true, none) ∧ l.directiveOf none sleepyRun = some sleepyDirective
      ∧ (∀ s ∈ sleepyRun, s.calm 1 = true)
      ∧ SoleShutter 1 (l.transcript (.connect none {} :: sleepyRun))
      ∧ (l.step (.connect none {})).1.neverReopened 1 sleepyRun = true
      ∧ shown <+: straight ∧ shown ≠ [] ∧ shown ≠ straight := by
  intro l shown straight
  have hg : l.gate.face = some (true, none) := by decide
  have hd : l.directiveOf none sleepyRun = some sleepyDirective := by decide
  have hs : ∀ s ∈ sleepyRun, s.calm 1 = true := by decide
  have hsole : SoleShutter 1 (l.transcript (.connect none {} :: sleepyRun)) := by decide
  have hstart : (l.step (.connect none {})).1.neverReopened 1 sleepyRun = true := by decide
  exact ⟨hg, hd, hs, hsole, hstart, (suspended_shows hg hd hs hsole hstart [] none).1, by decide,
    by decide⟩

/-- A start between two stops of one directive makes the second one visible, which in one go it would
not be: there it finds the listener stopped. -/
theorem reopened_shows_more :
    let shut : Action := ⟨"SHUT".toList, none⟩
    let d : Directive := [shut, ⟨"WAIT".toList, some "1".toList⟩, shut]
    let l : Listener := Listener.after { host := none, port := some 0, directive := some d } [.start]
    let steps : List Step := [.start, .wake 0]
    l.gate.face = some (true, none) ∧ l.directiveOf none steps = some d
      ∧ (∀ s ∈ steps, s.calm 0 = true) ∧ SoleShutter 0 (l.transcript (.connect none {} :: steps))
      ∧ ¬ (l.transcript (.connect none {} :: steps)).ofDirective 0 <+:
          (d.execute ⟨{ peer := [] }, some (Gate.started none)⟩).events := by
  decide

end Listener
end ScriptedServer
