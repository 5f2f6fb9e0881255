import ScriptedServer.Connection
import ScriptedServer.Proofs.Progress

/-!
What the turns of a connection leave alone. Two kinds of change are kept apart. What brings a
handling to its end (`finish`, `leave`, `breakOff`, `settle`) may tear the connection down but shows
nothing of the directive and does not touch a sleeping one: that is `Connection.Closes`. A turn as a
whole never changes the plan of faults, and moves the gate only by a stop that is seen: that is
`Turn.Keeps`.
-/

namespace ScriptedServer

namespace Session

/-- A release changes at most whether the connection is being torn down. -/
theorem release_session (s : Session) :
    ∃ torn, s.release.state = { s with closing := torn } := by
  rw [release]
  cases hc : s.closing with
  | true => exact ⟨_, rfl⟩
  | false =>
    rw [hangUp]
    cases s.faults.close <;> exact ⟨_, rfl⟩

/-- Nothing of a directive is seen at a release. -/
theorem release_events (s : Session) : ∀ e ∈ s.release.events, e.ofDirective = false := by
  rw [release]
  cases hc : s.closing with
  | true => simp [Event.ofDirective]
  | false =>
    rw [hangUp]
    cases s.faults.close <;> simp [Event.ofDirective]

theorem hangUp_session (s : Session) : ∃ torn, s.hangUp.state = { s with closing := torn } := by
  rw [hangUp]
  cases s.faults.close <;> exact ⟨_, rfl⟩

end Session

namespace Connection

/-! ### The end of the handling -/

/-- A change of a connection that shows nothing of its directive, and lets it sleep. -/
structure Closes (c : Connection) (r : Connection × List Event) : Prop where
  session : ∃ torn, r.1.session = { c.session with closing := torn }
  job : r.1.job = c.job
  asleep : c.job.isAsleep = true → r.1.session = c.session
  events : ∀ e ∈ r.2, e.ofDirective = false

theorem Closes.refl (c : Connection) : Closes c (c, []) :=
  ⟨⟨_, rfl⟩, rfl, fun _ => rfl, by simp⟩

theorem finish_closes {c : Connection} (h : c.job.isAsleep = false) : Closes c c.finish := by
  obtain ⟨torn, hs⟩ := c.session.release_session
  have hev := c.session.release_events
  have hawake : ¬ c.job.isAsleep = true := by rw [h]; decide
  rw [finish]
  cases c.session.release.error with
  | some f => exact ⟨⟨torn, hs⟩, rfl, fun ha => absurd ha hawake, hev⟩
  | none =>
    refine ⟨⟨torn, hs⟩, rfl, fun ha => absurd ha hawake, fun e he => ?_⟩
    rcases List.mem_append.1 he with he | he
    · exact hev e he
    · rw [List.mem_singleton.1 he]; rfl

theorem leave_closes (c : Connection) : Closes c c.leave := by
  rw [leave]
  split
  · rename_i h
    exact finish_closes (by simpa using h.2)
  · exact .refl c

theorem breakOff_closes (c : Connection) (f : Fault) : Closes c (c.breakOff f) := by
  rw [breakOff]
  split
  · exact .refl c
  · split
    · obtain ⟨hs, hj, ha, he⟩ := leave_closes c
      refine ⟨hs, hj, ha, fun e h => ?_⟩
      rcases List.mem_cons.1 h with rfl | h
      · rfl
      · exact he e h
    · exact ⟨⟨_, rfl⟩, rfl, fun _ => rfl, by simp⟩

theorem settle_closes (c : Connection) : Closes c c.settle := by
  rw [settle]
  split
  · exact ⟨⟨_, rfl⟩, rfl, fun _ => rfl, by simp⟩
  · obtain ⟨hs, hj, ha, he⟩ :=
      leave_closes { c with inboundOpen := c.inboundOpen && !c.session.closing }
    exact ⟨hs, hj, ha, he⟩

theorem Closes.trans {c : Connection} {r r' : Connection × List Event} (h : Closes c r)
    (h' : Closes r.1 r') :
    Closes c (r'.1, r.2 ++ r'.2) := by
  obtain ⟨torn, hs⟩ := h.session
  obtain ⟨torn', hs'⟩ := h'.session
  refine ⟨⟨torn', by rw [hs', hs]⟩, h'.job.trans h.job, fun ha => ?_, fun e he => ?_⟩
  · exact (h'.asleep (by rwa [h.job])).trans (h.asleep ha)
  · rcases List.mem_append.1 he with he | he
    · exact h.events e he
    · exact h'.events e he

theorem inbound_closes (c : Connection) (isOpen : Bool) :
    Closes c ({ c with inboundOpen := isOpen }, []) :=
  ⟨⟨_, rfl⟩, rfl, fun _ => rfl, by simp⟩

/-- Coming to rest shows nothing of the directive. -/
theorem rest_filter (t : Turn) :
    (rest t).events.filter Event.ofDirective = t.events.filter Event.ofDirective := by
  have hs : t.connection.settle.2.filter Event.ofDirective = [] :=
    List.filter_eq_nil_iff.2 fun e he => by simp [(settle_closes t.connection).events e he]
  rw [rest, List.filter_append, hs, List.append_nil]

theorem Closes.faults {c : Connection} {r : Connection × List Event} (h : Closes c r) :
    r.1.session.faults = c.session.faults := by
  obtain ⟨torn, hs⟩ := h.session
  rw [hs]

end Connection

/-! ### Whole turns -/

/-- A turn that leaves the plan of faults alone, and the gate unless a stop of it is seen. -/
structure Turn.Keeps (c : Connection) (g : Gate) (t : Turn) : Prop where
  faults : t.connection.session.faults = c.session.faults
  gate : .serverClose ∉ t.events → t.gate = g

namespace Connection

variable {c : Connection} {g : Gate}

theorem keeps_after {t : Turn} (h : t.Keeps c g) (events : List Event) :
    (t.after events).Keeps c g :=
  ⟨h.faults, fun hm => h.gate fun ht => hm (List.mem_append_right _ ht)⟩

theorem rest_keeps {t : Turn} (h : t.Keeps c g) : (rest t).Keeps c g :=
  ⟨(settle_closes t.connection).faults.trans h.faults,
    fun hm => h.gate fun ht => hm (List.mem_append_left _ ht)⟩

/-- A connection changed beside the gate. -/
theorem keeps_of_closes {r : Connection × List Event} (h : Closes c r) :
    Turn.Keeps c g { connection := r.1, gate := g, events := r.2 } :=
  ⟨h.faults, fun _ => rfl⟩

theorem begin_keeps (c : Connection) (g : Gate) (d : Directive) : (c.work g d.begin).Keeps c g := by
  obtain ⟨ended, torn, hs⟩ := Directive.begin_session d ⟨c.session, some g⟩
  refine ⟨?_, fun hm => ?_⟩
  · rw [work, hs]
  · rw [work, Directive.begin_gate hm]; rfl

theorem advance_keeps (c : Connection) (g : Gate) (left : List Action) :
    (c.work g (Directive.advance left)).Keeps c g := by
  obtain ⟨ended, torn, hs⟩ := Directive.advance_session left ⟨c.session, some g⟩
  refine ⟨?_, fun hm => ?_⟩
  · rw [work, hs]
  · rw [work, Directive.advance_gate hm]; rfl

theorem refuse_keeps (c : Connection) (g : Gate) (others : List Event) :
    (c.refuse g others).Keeps c g := by
  obtain ⟨torn, hs⟩ := c.session.hangUp_session
  rw [refuse]
  cases c.session.hangUp.error with
  | none => exact ⟨by simp only [hs], fun _ => rfl⟩
  | some f => exact keeps_of_closes (breakOff_closes c f)

/-! ### Reading, case by case -/

theorem pieces_of_ne_nil {data : List UInt8} (h : data ≠ []) :
    ∃ others, pieces data = data.take readSize :: others := by
  cases data with
  | nil => exact absurd rfl h
  | cons b rest => exact ⟨_, rfl⟩

section Read

variable {data first : List UInt8} {others : List (List UInt8)}

theorem read_nothing (hp : pieces data = []) : c.read g data = { connection := c, gate := g } := by
  simp only [read, hp]

/-- Behind the first payload bytes are logged and nothing else. -/
theorem read_consumed (hp : pieces data = first :: others) (hc : c.session.consumed = true) :
    c.read g data =
      { connection := c, gate := g, events := receivedLine first :: others.map receivedLine } := by
  simp only [read, hp, Session.consume, hc, if_true]

theorem read_refused (hp : pieces data = first :: others) (hc : c.session.consumed = false)
    (hd : Directive.ofBytes? first = none) :
    c.read g data =
      (Connection.refuse { c with session.consumed := true } g (others.map receivedLine)).after
        [receivedLine first, .log .requestIncorrect] := by
  simp only [read, hp, Session.consume, hc, hd, Bool.false_eq_true, if_false]

theorem read_begun (hp : pieces data = first :: others) (hc : c.session.consumed = false)
    {d : Directive} (hd : Directive.ofBytes? first = some d) :
    c.read g data =
      (Connection.work { c with session.consumed := true } g d.begin).after
        (receivedLine first :: others.map receivedLine) := by
  simp only [read, hp, Session.consume, hc, hd, Bool.false_eq_true, if_false]

end Read

/-- Nobody looks at bytes with a directive for all sessions, once the handling is over, or once the
first payload came in. -/
def Deaf (c : Connection) (directive : Option Directive) : Prop :=
  directive.isSome = true ∨ c.task ≠ .running ∨ c.session.consumed = true

/-- Bytes that nobody looks at are at most logged. -/
theorem receive_deaf {directive : Option Directive} (hd : c.Deaf directive) (g : Gate)
    (data : List UInt8) (eof : Bool) : ∃ ps : List (List UInt8), c.receive directive g data eof =
      rest
        { connection := { c with inboundOpen := c.inboundOpen && !eof }, gate := g
          events := ps.map receivedLine } := by
  rw [receive]
  split
  · exact ⟨[], rfl⟩
  · rename_i h
    rw [not_or] at h
    cases hp : pieces data with
    | nil => exact ⟨[], by rw [read_nothing hp]; rfl⟩
    | cons first others =>
      have hc := (hd.resolve_left h.1).resolve_left h.2
      exact ⟨first :: others, by rw [read_consumed hp hc]; rfl⟩

/-- With a directive for all sessions, or once the first payload came in, bytes change nothing. -/
theorem receive_closes {directive : Option Directive}
    (hd : directive.isSome = true ∨ c.session.consumed = true) (g : Gate)
    (data : List UInt8) (eof : Bool) :
    Closes c ((c.receive directive g data eof).connection, (c.receive directive g data eof).events)
      ∧ (c.receive directive g data eof).gate = g := by
  obtain ⟨ps, hread⟩ := receive_deaf (hd.imp_right .inr) g data eof
  have hlog : ∀ e ∈ ps.map receivedLine, e.ofDirective = false :=
    List.forall_mem_map.2 fun _ _ => rfl
  have hin : Closes c
      ({ c with inboundOpen := c.inboundOpen && !eof }, ps.map receivedLine) :=
    ⟨⟨_, rfl⟩, rfl, fun _ => rfl, hlog⟩
  rw [hread]
  exact ⟨hin.trans (settle_closes _), rfl⟩

theorem endInbound_closes (c : Connection) (g : Gate) :
    Closes c ((c.endInbound g).connection, (c.endInbound g).events) :=
  (inbound_closes c false).trans (settle_closes _)

theorem read_keeps (c : Connection) (g : Gate) (data : List UInt8) : (c.read g data).Keeps c g := by
  cases hp : pieces data with
  | nil => rw [read_nothing hp]; exact ⟨rfl, fun _ => rfl⟩
  | cons first others =>
    cases hc : c.session.consumed with
    | true => rw [read_consumed hp hc]; exact ⟨rfl, fun _ => rfl⟩
    | false =>
      cases hd : Directive.ofBytes? first with
      | none =>
        obtain ⟨hf, hg⟩ :=
          keeps_after (refuse_keeps { c with session.consumed := true } g (others.map receivedLine))
            [receivedLine first, .log .requestIncorrect]
        rw [read_refused hp hc hd]
        exact ⟨hf, hg⟩
      | some d =>
        obtain ⟨hf, hg⟩ :=
          keeps_after (begin_keeps { c with session.consumed := true } g d)
            (receivedLine first :: others.map receivedLine)
        rw [read_begun hp hc hd]
        exact ⟨hf, hg⟩

theorem receive_keeps (c : Connection) (directive : Option Directive) (g : Gate)
    (data : List UInt8) (eof : Bool) : (c.receive directive g data eof).Keeps c g := by
  rw [receive]
  split
  · exact rest_keeps ⟨rfl, fun _ => rfl⟩
  · have hr := read_keeps c g data
    exact rest_keeps ⟨hr.faults, hr.gate⟩

theorem endInbound_keeps (c : Connection) (g : Gate) : (c.endInbound g).Keeps c g :=
  rest_keeps ⟨rfl, fun _ => rfl⟩

theorem reset_keeps (c : Connection) (g : Gate) (f : Fault) : (c.reset g f).Keeps c g := by
  have hb := breakOff_closes { c with session := c.session.lose, inboundOpen := false } f
  exact rest_keeps ⟨hb.faults, fun _ => rfl⟩

theorem wake_keeps (c : Connection) (g : Gate) (left : List Action) : (c.wake g left).Keeps c g :=
  rest_keeps (advance_keeps c g left)

/-- A connection that is dropped. -/
def drop (c : Connection) (g : Gate) : Turn :=
  rest
    { connection := { c with session := c.session.abort.state }, gate := g
      events := c.session.abort.events }

theorem drop_faults (c : Connection) (g : Gate) :
    (c.drop g).connection.session.faults = c.session.faults := by
  refine (settle_closes _).faults.trans ?_
  simp only [Session.abort]
  cases c.session.faults.abort <;> rfl

/-- A connection is accepted with the plan of faults that it is given. -/
theorem accept_keeps (peer : List Value) (faults : FaultPlan) (directive : Option Directive)
    (g : Gate) :
    (accept peer faults directive g).Keeps { session := { peer := [], faults } } g := by
  rw [accept]
  cases peerLabel peer with
  | error f => exact ⟨rfl, fun _ => rfl⟩
  | ok label =>
    simp only [welcome]
    cases directive with
    | none => exact rest_keeps ⟨rfl, fun _ => rfl⟩
    | some d =>
      obtain ⟨hf, hg⟩ := rest_keeps
        (keeps_after (begin_keeps { session := { peer := label, faults } } g d)
          [.log (.connected label)])
      exact ⟨hf, hg⟩

end Connection
end ScriptedServer
