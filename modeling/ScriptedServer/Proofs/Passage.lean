import ScriptedServer.Proofs.Course
import ScriptedServer.Proofs.Run

/-!
What a turn makes of a connection. `Connection.Passes` holds between a connection, a record and the
connection behind it: the record makes a sealed course of the session, and what is over stays over, be
it the inbound side, the handling or the wait for a first payload. Every function that a turn is made
of passes (`reaction_passes` and `drop_passes` are the whole turns), and every turn leaves the
connection at rest (`Connection.AtRest`).
-/

namespace ScriptedServer

theorem Mark.not_announces_all {events : List Event} (h : ∀ e ∈ events, e.ofDirective = false) :
    ∀ m ∈ Mark.all events, m.announces = false := by
  refine List.forall_mem_map.2 fun e he => ?_
  have hd := h e he
  cases e with
  | log line =>
    cases line with
    | executing a => cases hd
    | _ => rfl
  | _ => rfl

namespace Connection

/-- The record `marks` leads from connection `c` to connection `c'`. -/
structure Passes (c : Connection) (marks : List Mark) (c' : Connection) : Prop where
  session : Session.Sealed c.session marks c'.session
  inboundOpen : c'.inboundOpen = true → c.inboundOpen = true
  running : c'.task = .running → c.task = .running
  consumed : c.session.consumed = true → c'.session.consumed = true

variable {c c' c'' : Connection} {g : Gate} {marks more : List Mark}

theorem Passes.refl (c : Connection) : Passes c [] c := ⟨.refl c.session, id, id, id⟩

theorem Passes.trans (h : Passes c marks c') (h' : Passes c' more c'') :
    Passes c (marks ++ more) c'' :=
  ⟨h.session.trans h'.session, h.inboundOpen ∘ h'.inboundOpen, h.running ∘ h'.running,
    h'.consumed ∘ h.consumed⟩

/-- A record in which nothing is sent, torn down or announced, of a session that is left alone. -/
theorem passes_still (hs : c'.session = c.session) (hi : c'.inboundOpen = true → c.inboundOpen = true)
    (ht : c'.task = .running → c.task = .running)
    (hm : ∀ m ∈ marks, m.isOutput = false ∧ m.tearsDown = false ∧ m.announces = false) :
    Passes c marks c' := by
  refine ⟨?_, hi, ht, fun h => by rwa [hs]⟩
  rw [hs]
  exact (Session.course_still rfl rfl rfl id fun m hmem => ⟨(hm m hmem).1, (hm m hmem).2.1⟩).sealed
    fun m hmem => (hm m hmem).2.2

/-! ### The end of the handling -/

theorem finish_not_running (c : Connection) : c.finish.1.task ≠ .running := by
  intro h
  rw [finish] at h
  cases hr : c.session.release.error with
  | some f =>
    rw [hr] at h
    cases h
  | none =>
    rw [hr] at h
    cases hf : c.job.fault? <;> rw [hf] at h <;> cases h

theorem finish_passes (c : Connection) : Passes c (Mark.all c.finish.2) c.finish.1 := by
  have hr := c.session.release_course.sealed (Mark.not_announces_all c.session.release_events)
  obtain ⟨torn, hs⟩ := c.session.release_session
  have hconsumed : c.session.consumed = true → c.session.release.state.consumed = true :=
    fun h => by rw [hs]; exact h
  have hover := c.finish_not_running
  rw [finish] at hover ⊢
  cases he : c.session.release.error with
  | some f => exact ⟨hr, id, Task.noConfusion, hconsumed⟩
  | none =>
    have hlogged : Session.Sealed c.session.release.state [.seen (.log (.closed c.session.peer))]
        c.session.release.state :=
      (Session.course_still rfl rfl rfl id (by simp [Mark.isOutput, Mark.tearsDown])).sealed
        (by simp [Mark.announces])
    rw [he] at hover
    simp only [Mark.all_append]
    exact ⟨hr.trans hlogged, id, fun ht => absurd ht hover, hconsumed⟩

theorem leave_passes (c : Connection) : Passes c (Mark.all c.leave.2) c.leave.1 := by
  rw [leave]
  split
  · exact c.finish_passes
  · exact .refl c

theorem breakOff_passes (c : Connection) (f : Fault) :
    Passes c (Mark.all (c.breakOff f).2) (c.breakOff f).1 := by
  rw [breakOff]
  split
  · exact .refl c
  · split
    · have hlogged : Passes c [.seen (.log (.readFailed c.session.peer f))] c :=
        passes_still rfl id id (by simp [Mark.isOutput, Mark.tearsDown, Mark.announces])
      exact hlogged.trans c.leave_passes
    · exact passes_still rfl id Task.noConfusion (by simp)

theorem settle_passes (c : Connection) : Passes c (Mark.all c.settle.2) c.settle.1 := by
  have hin : Passes c [] { c with inboundOpen := c.inboundOpen && !c.session.closing } :=
    passes_still rfl (fun h => (Bool.and_eq_true_iff.1 h).1) id (by simp)
  rw [settle]
  split
  · exact hin
  · exact hin.trans (leave_passes _)

theorem rest_passes {t : Turn} (h : Passes c (Mark.all t.events) t.connection) :
    Passes c (Mark.all (rest t).events) (rest t).connection := by
  rw [rest, Mark.all_append]
  exact h.trans t.connection.settle_passes

/-! ### The directive -/

theorem begin_passes (c : Connection) (g : Gate) (d : Directive) :
    Passes c (Mark.all (c.work g d.begin).events) (c.work g d.begin).connection := by
  obtain ⟨ended, torn, hs⟩ := Directive.begin_session d ⟨c.session, some g⟩
  refine ⟨Directive.begin_sealed d ⟨c.session, some g⟩, id, id, fun h => ?_⟩
  rw [work, hs]
  exact h

theorem advance_passes (c : Connection) (g : Gate) (left : List Action) :
    Passes c (Mark.all (c.work g (Directive.advance left)).events)
      (c.work g (Directive.advance left)).connection := by
  obtain ⟨ended, torn, hs⟩ := Directive.advance_session left ⟨c.session, some g⟩
  refine ⟨(Directive.stretch_sealed left ⟨c.session, some g⟩).1, id, id, fun h => ?_⟩
  rw [work, hs]
  exact h

/-! ### Reading -/

theorem received_passes (c : Connection) (ps : List (List UInt8)) :
    Passes c (Mark.all (ps.map receivedLine)) c := by
  refine passes_still rfl id id (List.forall_mem_map.2 (List.forall_mem_map.2 fun piece _ => ?_))
  exact ⟨rfl, rfl, rfl⟩

/-- A connection that is not being torn down is hung up once at a bad payload. -/
theorem refuse_passes (hc : c.session.closing = false) (g : Gate) (ps : List (List UInt8)) :
    Passes c (Mark.all (c.refuse g (ps.map receivedLine)).events)
      (c.refuse g (ps.map receivedLine)).connection := by
  have hh := Session.hangUp_course hc
  obtain ⟨torn, hs⟩ := c.session.hangUp_session
  rw [refuse]
  cases he : c.session.hangUp.error with
  | some f => exact c.breakOff_passes f
  | none =>
    have hhung : Passes c (Mark.all c.session.hangUp.events)
        { c with session := c.session.hangUp.state } := by
      refine ⟨hh.sealed (Mark.not_announces_all ?_), id, id, fun h => by rw [hs]; exact h⟩
      rw [Session.hangUp]
      cases c.session.faults.close <;> simp [Event.ofDirective]
    simp only [Mark.all_append]
    exact hhung.trans (received_passes _ ps)

theorem read_passes (hc : c.session.closing = false) (g : Gate) (data : List UInt8) :
    Passes c (Mark.all (c.read g data).events) (c.read g data).connection := by
  cases hp : pieces data with
  | nil =>
    rw [read_nothing hp]
    exact .refl c
  | cons first others =>
    cases hk : c.session.consumed with
    | true =>
      rw [read_consumed hp hk]
      exact received_passes c (first :: others)
    | false =>
      have htaken : Passes c [] { c with session.consumed := true } := by
        refine ⟨Session.Course.sealed (Session.course_still rfl rfl rfl id ?_) ?_, id, id, fun _ => rfl⟩
          <;> simp
      cases hd : Directive.ofBytes? first with
      | none =>
        have hlogged : Passes { c with session.consumed := true }
            [.seen (receivedLine first), .seen (.log .requestIncorrect)]
            { c with session.consumed := true } :=
          passes_still rfl id id
            (by simp [receivedLine, Mark.isOutput, Mark.tearsDown, Mark.announces])
        rw [read_refused hp hk hd, Turn.after, Mark.all_append]
        exact (htaken.trans hlogged).trans
          (refuse_passes (c := { c with session.consumed := true }) hc g others)
      | some d =>
        rw [read_begun hp hk hd, Turn.after, Mark.all_append]
        exact (htaken.trans (received_passes _ (first :: others))).trans (begin_passes _ g d)

theorem refuse_consumed (hk : c.session.consumed = true) (g : Gate) (others : List Event) :
    (c.refuse g others).connection.session.consumed = true := by
  obtain ⟨torn, hs⟩ := c.session.hangUp_session
  rw [refuse]
  cases c.session.hangUp.error with
  | none => simpa only [hs] using hk
  | some f => exact (c.breakOff_passes f).consumed hk

/-- Whoever reads takes the directive of the session. -/
theorem read_consumes (c : Connection) (g : Gate) {data : List UInt8} (hdata : data ≠ []) :
    (c.read g data).connection.session.consumed = true := by
  obtain ⟨others, hp⟩ := pieces_of_ne_nil hdata
  cases hk : c.session.consumed with
  | true =>
    rw [read_consumed hp hk]
    exact hk
  | false =>
    cases hd : Directive.ofBytes? (data.take readSize) with
    | none =>
      rw [read_refused hp hk hd]
      exact refuse_consumed rfl g _
    | some d =>
      rw [read_begun hp hk hd]
      exact (begin_passes _ g d).consumed rfl

/-! ### Connections at rest -/

/-- A connection on which nothing goes on but the wait for bytes or for the end of a sleep. -/
structure AtRest (c : Connection) : Prop where
  open_of_inboundOpen : c.inboundOpen = true → c.session.closing = false
  asleep_of_running : c.inboundOpen = false → c.task = .running → c.job.isAsleep = true

/-- What is at rest stays as it is. -/
theorem AtRest.settle (h : AtRest c) : c.settle = (c, []) := by
  have hc : (c.inboundOpen && !c.session.closing) = c.inboundOpen := by
    cases hi : c.inboundOpen with
    | false => rfl
    | true => rw [h.open_of_inboundOpen hi]; rfl
  rw [Connection.settle, hc]
  by_cases hi : c.inboundOpen = true
  · exact if_pos hi
  · rw [if_neg hi, leave, if_neg]
    rintro ⟨ht, hj⟩
    rw [h.asleep_of_running (by simpa using hi) ht] at hj
    cases hj

theorem finish_inboundOpen (c : Connection) : c.finish.1.inboundOpen = c.inboundOpen := by
  rw [finish]
  cases c.session.release.error <;> rfl

theorem leave_inboundOpen (c : Connection) : c.leave.1.inboundOpen = c.inboundOpen := by
  rw [leave]
  split
  · exact c.finish_inboundOpen
  · rfl

/-- A connection that is left is over, or asleep. -/
theorem leave_asleep (h : c.leave.1.task = .running) : c.leave.1.job.isAsleep = true := by
  rw [leave] at h ⊢
  split at h
  · exact absurd h c.finish_not_running
  · rename_i hn
    rw [if_neg hn]
    cases hj : c.job.isAsleep with
    | true => rfl
    | false => exact absurd ⟨h, by rw [hj]; rfl⟩ hn

/-- The inbound side is over behind a turn if it was or if the connection is being torn down. -/
theorem settle_inboundOpen (c : Connection) :
    c.settle.1.inboundOpen = (c.inboundOpen && !c.session.closing) := by
  rw [Connection.settle]
  split
  · rfl
  · exact leave_inboundOpen _

theorem settle_atRest (c : Connection) : AtRest c.settle.1 := by
  rw [Connection.settle]
  cases hi : c.inboundOpen && !c.session.closing with
  | true =>
    refine ⟨fun _ => ?_, Bool.noConfusion⟩
    simpa using (Bool.and_eq_true_iff.1 hi).2
  | false =>
    simp only [Bool.false_eq_true, if_false]
    refine ⟨fun h => ?_, fun _ => leave_asleep⟩
    rw [leave_inboundOpen] at h
    cases h

theorem rest_atRest (t : Turn) : AtRest (rest t).connection := settle_atRest t.connection

/-! ### Whole turns -/

theorem drop_atRest (c : Connection) (g : Gate) : AtRest (c.drop g).connection := rest_atRest _

theorem drop_passes (c : Connection) (g : Gate) :
    Passes c (Mark.all (c.drop g).events) (c.drop g).connection := by
  refine rest_passes ⟨c.session.abort_course.sealed ?_, id, id, ?_⟩
  · rw [Session.abort]
    cases c.session.faults.abort <;> simp [Mark.announces]
  · intro h
    rw [Session.abort]
    cases c.session.faults.abort <;> exact h

end Connection

/-- What a step brings to the connection that it is addressed to, if it is anything but bytes. -/
def Step.brings : Step → List Mark
  | .receive _ _ true | .endInbound _ => [.eof]
  | .reset _ _ => [.reset]
  | _ => []

namespace Connection

variable {c : Connection} {g : Gate} {s : Step} {directive : Option Directive} {t : Turn}

/-- Bytes are read by a connection that is not being torn down. -/
theorem receive_passes (hc : c.session.closing = false) (directive : Option Directive) (g : Gate)
    (data : List UInt8) (eof : Bool) :
    Passes c (Mark.all (c.receive directive g data eof).events)
      (c.receive directive g data eof).connection := by
  have hin : ∀ {c' : Connection} {marks : List Mark}, Passes c marks c' →
      Passes c marks { c' with inboundOpen := c'.inboundOpen && !eof } := by
    intro c' marks h
    have hover : Passes c' [] { c' with inboundOpen := c'.inboundOpen && !eof } :=
      passes_still rfl (fun h => (Bool.and_eq_true_iff.1 h).1) id (by simp)
    simpa using h.trans hover
  rw [receive]
  split
  · exact rest_passes (hin (.refl c))
  · exact rest_passes (hin (read_passes hc g data))

/-- A turn that a step brings about, with what the step brings in front. -/
theorem reaction_passes (h : s.reaction directive g c = some t) (hc : AtRest c) :
    Passes c (s.brings ++ Mark.all t.events) t.connection := by
  have heof : Passes c [.eof] c :=
    passes_still rfl id id (by simp [Mark.isOutput, Mark.tearsDown, Mark.announces])
  cases s with
  | receive n data eof =>
    obtain ⟨hi, ⟨⟩⟩ := Option.ite_none_right_eq_some.1 h
    have hr := receive_passes (hc.open_of_inboundOpen hi) directive g data eof
    cases eof with
    | true => exact heof.trans hr
    | false => exact hr
  | endInbound n =>
    obtain ⟨-, ⟨⟩⟩ := Option.ite_none_right_eq_some.1 h
    have hover : Passes c [] { c with inboundOpen := false } :=
      passes_still rfl Bool.noConfusion id (by simp)
    exact heof.trans (rest_passes hover)
  | reset n f =>
    obtain ⟨-, ⟨⟩⟩ := Option.ite_none_right_eq_some.1 h
    have hlost : Passes c [.reset] { c with session := c.session.lose, inboundOpen := false } :=
      ⟨c.session.lose_course.sealed (by simp [Mark.announces]), Bool.noConfusion, id, id⟩
    exact hlost.trans (rest_passes (breakOff_passes _ f))
  | wake n =>
    rw [Step.reaction] at h
    split at h
    · rename_i left hj
      cases h
      exact rest_passes (c.advance_passes g left)
    · cases h
  | setFault n point f =>
    cases h
    have hsupply := FaultPlan.set_supply c.session.faults f point
    refine ⟨Session.Course.sealed (Session.course_still rfl hsupply rfl id ?_) ?_, id, id, id⟩ <;>
      simp [Step.brings]
  | start | shutdown | serve | close | connect | setCloseFault => cases h

/-- A turn that a step brings about leaves the connection at rest. -/
theorem reaction_atRest (h : s.reaction directive g c = some t) (hc : AtRest c) :
    AtRest t.connection := by
  cases s with
  | receive | endInbound | reset =>
    obtain ⟨-, ⟨⟩⟩ := Option.ite_none_right_eq_some.1 h
    exact rest_atRest _
  | wake n =>
    rw [Step.reaction] at h
    split at h
    · cases h
      exact rest_atRest _
    · cases h
  | setFault n point f =>
    cases h
    exact ⟨hc.open_of_inboundOpen, hc.asleep_of_running⟩
  | start | shutdown | serve | close | connect | setCloseFault => cases h

theorem welcome_passes (c : Connection) (directive : Option Directive) (g : Gate) :
    Passes c (Mark.all (c.welcome directive g).events) (c.welcome directive g).connection := by
  have hconnected : Passes c [.seen (.log (.connected c.session.peer))] c :=
    passes_still rfl id id (by simp [Mark.isOutput, Mark.tearsDown, Mark.announces])
  refine rest_passes ?_
  rw [Turn.after, Mark.all_append]
  cases directive with
  | none => exact hconnected.trans (.refl c)
  | some d => exact hconnected.trans (c.begin_passes g d)

/-- A connection that is accepted starts from one to which nothing has happened yet. -/
theorem accept_passes (peer : List Value) (faults : FaultPlan) (directive : Option Directive)
    (g : Gate) : ∃ label, Passes { session := { peer := label, faults } }
      (Mark.all (accept peer faults directive g).events)
      (accept peer faults directive g).connection := by
  rw [accept]
  cases peerLabel peer with
  | error f => exact ⟨[], passes_still rfl id Task.noConfusion (by simp)⟩
  | ok label => exact ⟨label, welcome_passes _ directive g⟩

theorem accept_atRest (peer : List Value) (faults : FaultPlan) (directive : Option Directive)
    (g : Gate) : AtRest (accept peer faults directive g).connection := by
  rw [accept]
  cases peerLabel peer with
  | ok label => exact rest_atRest _
  | error f => exact ⟨fun _ => rfl, Bool.noConfusion⟩

end Connection
end ScriptedServer
