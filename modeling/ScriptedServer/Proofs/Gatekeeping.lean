import ScriptedServer.Proofs.Dismissal
import ScriptedServer.Proofs.History

/-!
What a run does to the gate. `Gate.Shift` lists the smallest things that can happen to it, each with what
is seen of it: the gate is stopped, a start renews it and may fail to open it, and a fault is set. All
else goes on beside it. A run is a sequence of such shifts (`Gate.Shifts`), and so what can be read off
every shift holds of the whole transcript and of the gate behind it.
-/

namespace ScriptedServer

/-- Whether an event is of a stop of the listener. -/
def Event.isStop : Event → Bool
  | .serverClose | .log .stoppedListening => true
  | _ => false

theorem Event.isStop_of_not_ofDirective {e : Event} (h : e.ofDirective = false) :
    e.isStop = false := by
  cases e with
  | log line => cases line <;> first | rfl | cases h
  | serverClose => cases h
  | _ => rfl

namespace Gate

/-- The gate behind a stop. -/
def stop (g : Gate) (a : Acceptor) : Gate :=
  { g with acceptor := some { a with serving := false }, stopped := true }

/-- The gate behind a start that succeeds. -/
def opened (g : Gate) (port : Option Int) : Gate := { g.renew with acceptor := some { port } }

/-- The smallest things that happen to a gate in steps that `allowed` holds of. -/
inductive Shift (allowed : Step → Prop) (g : Gate) : Trace → Gate → Prop
  | aside (n : Nat) {e : Event} (he : e.isStop = false) : Shift allowed g [(.connection n, e)] g
  | stop (o : Origin) {a : Acceptor} (ha : g.acceptor = some a) (hs : a.serving = true)
      (hf : a.closeFault = none) :
      Shift allowed g [(o, .serverClose), (o, .log .stoppedListening)] (g.stop a)
  | start (host : Option Text) (port bound : Option Int) :
      Shift allowed g [(.listener, .bind host port), (.listener, .log (.listening bound))]
        (g.opened bound)
  | startFailed (host : Option Text) (port : Option Int) :
      Shift allowed g [(.listener, .bind host port)] g.renew
  | setCloseFault {f : Option Fault} (hf : allowed (.setCloseFault f)) :
      Shift allowed g [] (g.setCloseFault f)

/-- Shifts one after the other. -/
inductive Shifts (allowed : Step → Prop) (g : Gate) : Trace → Gate → Prop
  | refl : Shifts allowed g [] g
  | snoc {t u : Trace} {g' g'' : Gate} (h : Shifts allowed g t g') (hs : Shift allowed g' u g'') :
      Shifts allowed g (t ++ u) g''

variable {allowed : Step → Prop} {g g' g'' : Gate} {t u : Trace} {n : Nat}

theorem Shift.shifts (h : Shift allowed g t g') : Shifts allowed g t g' := by
  have hone := Shifts.snoc .refl h
  rwa [List.nil_append] at hone

theorem Shifts.trans (h : Shifts allowed g t g') (h' : Shifts allowed g' u g'') :
    Shifts allowed g (t ++ u) g'' := by
  induction h' with
  | refl => rwa [List.append_nil]
  | snoc _ hs ih =>
    rw [← List.append_assoc]
    exact .snoc ih hs

/-- Whatever is seen of a connection goes on beside the gate, stops apart. -/
theorem shifts_aside {events : List Event} (h : ∀ e ∈ events, e.isStop = false) :
    Shifts allowed g (Trace.of (.connection n) events) g := by
  induction events with
  | nil => exact .refl
  | cons e events ih =>
    obtain ⟨he, hrest⟩ := List.forall_mem_cons.1 h
    exact (Shift.aside n he).shifts.trans (ih hrest)

theorem shut_shifts (g : Gate) (o : Origin) :
    Shifts allowed g (Trace.of o g.shut.events) g.shut.state := by
  cases hl : g.isListening with
  | false =>
    rw [shut_of_not_listening hl]
    exact .refl
  | true =>
    obtain ⟨a, ha, hs⟩ := (Option.any_eq_true _ _).1 hl
    cases hf : a.closeFault with
    | some f =>
      rw [shut_of_fault ha hs hf]
      exact .refl
    | none =>
      rw [shut_of_listening ha hs hf]
      exact (Shift.stop o ha hs hf).shifts

/-- Each entry of what is seen belongs to one shift. -/
theorem Shifts.at_split (h : Shifts allowed g t g'') {pre post : Trace} {x : Origin × Event}
    (he : t = pre ++ x :: post) : ∃ t₁ g₁ u₁ u₂ g₂ t₂, Shifts allowed g t₁ g₁
      ∧ Shift allowed g₁ (u₁ ++ x :: u₂) g₂ ∧ Shifts allowed g₂ t₂ g''
      ∧ pre = t₁ ++ u₁ ∧ post = u₂ ++ t₂ := by
  induction h generalizing post with
  | refl => simp at he
  | @snoc t u g' g'' hshifts hs ih =>
    rcases List.append_eq_append_iff.1 he with ⟨mid, hpre, hu⟩ | ⟨mid, ht, hpost⟩
    · rw [hu] at hs
      exact ⟨t, g', mid, post, g'', [], hshifts, hs, .refl, hpre, (List.append_nil post).symm⟩
    · cases mid with
      | nil =>
        rw [List.nil_append] at hpost
        rw [List.append_nil] at ht
        rw [← hpost] at hs
        exact ⟨t, g', [], post, g'', [], hshifts, hs, .refl, by simp [ht], by simp⟩
      | cons y mid =>
        rw [List.cons_append, List.cons.injEq] at hpost
        obtain ⟨rfl, rfl⟩ := hpost
        obtain ⟨t₁, g₁, u₁, u₂, g₂, t₂, hbefore, hshift, hbehind, rfl, rfl⟩ := ih ht
        exact ⟨t₁, g₁, u₁, u₂, g₂, t₂ ++ u, hbefore, hshift, hbehind.snoc hs, rfl,
          List.append_assoc ..⟩

end Gate

/-! ### Directives -/

section Directives

variable (allowed : Step → Prop) (n : Nat)

theorem Action.Attempt.shifts {a : Action} {st : Stage} {c : Call Stage Trouble}
    (h : a.Attempt st c) {g : Gate} (hg : st.gate = some g) : ∃ g', c.state.gate = some g'
      ∧ Gate.Shifts allowed g (Trace.of (.connection n) c.events) g' := by
  cases h with
  | shut _ hg' ha hs hf =>
    obtain rfl := Option.some.inj (hg.symm.trans hg')
    have hannounced : Gate.Shifts allowed g (Trace.of (.connection n) [.log (.executing a)]) g :=
      Gate.shifts_aside (by simp [Event.isStop])
    exact ⟨_, rfl, hannounced.snoc (.stop (.connection n) ha hs hf)⟩
  | _ => exact ⟨g, hg, Gate.shifts_aside (by simp [Event.isStop])⟩

/-- What is seen of the end at trouble is no stop of the listener. -/
theorem Trouble.conclude_isStop (t : Trouble) (st : Stage) :
    ∀ e ∈ (t.conclude st).events, e.isStop = false := by
  cases t with
  | fault f => intro e he; cases he
  | error e =>
    rw [conclude]
    cases e.drops with
    | false => simp [Event.isStop]
    | true =>
      simp only [if_true, Session.abort]
      cases st.session.faults.abort <;> simp [Event.isStop]

theorem Directive.advance_shifts (acts : List Action) (s : Session) (g : Gate) :
    ∃ g', (advance acts ⟨s, some g⟩).stage.gate = some g' ∧ Gate.Shifts allowed g
      (Trace.of (.connection n) (advance acts ⟨s, some g⟩).events) g' := by
  let R (st : Stage) (events : List Event) (st' : Stage) : Prop := ∀ g, st.gate = some g →
    ∃ g', st'.gate = some g' ∧ Gate.Shifts allowed g (Trace.of (.connection n) events) g'
  refine (stretch_keeps (R := R) ?_ ?_ ?_ acts ⟨s, some g⟩).1 g rfl
  · intro st g hg
    exact ⟨g, hg, .refl⟩
  · intro a st st' events _ hrest g hg
    obtain ⟨g₁, hg₁, hown⟩ := (a.attempt_spec st).shifts allowed n hg
    obtain ⟨g₂, hg₂, hbehind⟩ := hrest g₁ hg₁
    rw [Trace.of, List.map_append]
    exact ⟨g₂, hg₂, hown.trans hbehind⟩
  · intro a st t _ g hg
    obtain ⟨g₁, hg₁, hown⟩ := (a.attempt_spec st).shifts allowed n hg
    rw [Trace.of, List.map_append]
    exact ⟨g₁, (t.conclude_gate _).trans hg₁, hown.trans (Gate.shifts_aside (t.conclude_isStop _))⟩

theorem Directive.Stretch.shifts {acts : List Action} {stretch : Stage → Run Progress}
    (hs : Directive.Stretch acts stretch) (s : Session) (g : Gate) :
    ∃ g', (stretch ⟨s, some g⟩).stage.gate = some g' ∧ Gate.Shifts allowed g
      (Trace.of (.connection n) (stretch ⟨s, some g⟩).events) g' := by
  cases hs with
  | advance => exact advance_shifts allowed n acts s g
  | begin =>
    rw [Directive.begin]
    split
    · exact ⟨g, rfl, Gate.shifts_aside (by simp [Event.isStop])⟩
    · exact advance_shifts allowed n acts s g

end Directives

/-! ### Turns of a connection -/

/-- Whether the gate is shifted from `g` to where a turn of connection `n` leaves it. -/
def Turn.Shifts (allowed : Step → Prop) (n : Nat) (g : Gate) (t : Turn) : Prop :=
  Gate.Shifts allowed g (Trace.of (.connection n) t.events) t.gate

namespace Connection

variable {allowed : Step → Prop} {n : Nat} {g : Gate} {c : Connection} {t : Turn}

theorem Closes.isStop {r : Connection × List Event} (h : Closes c r) :
    ∀ e ∈ r.2, e.isStop = false :=
  fun e he => Event.isStop_of_not_ofDirective (h.events e he)

/-- A turn that does not look at the gate. -/
theorem shifts_of_closes {r : Connection × List Event} (h : Closes c r) :
    Turn.Shifts allowed n g { connection := r.1, gate := g, events := r.2 } :=
  Gate.shifts_aside h.isStop

theorem rest_shifts (h : t.Shifts allowed n g) : (rest t).Shifts allowed n g := by
  rw [Turn.Shifts, rest, Trace.of, List.map_append]
  exact h.trans (shifts_of_closes (settle_closes t.connection))

theorem after_shifts {events : List Event} (h : t.Shifts allowed n g)
    (he : ∀ e ∈ events, e.isStop = false) : (t.after events).Shifts allowed n g := by
  have hfront : Gate.Shifts allowed g (Trace.of (.connection n) events) g := Gate.shifts_aside he
  rw [Turn.Shifts, Turn.after, Trace.of, List.map_append]
  exact hfront.trans h

theorem work_shifts (c : Connection) {acts : List Action} {stretch : Stage → Run Progress}
    (hs : Directive.Stretch acts stretch) : (c.work g stretch).Shifts allowed n g := by
  obtain ⟨g', hg', hshifts⟩ := hs.shifts allowed n c.session g
  rw [Turn.Shifts, work, hg']
  exact hshifts

theorem received_isStop (ps : List (List UInt8)) :
    ∀ e ∈ ps.map receivedLine, e.isStop = false := List.forall_mem_map.2 fun _ _ => rfl

theorem refuse_shifts (c : Connection) (ps : List (List UInt8)) :
    (c.refuse g (ps.map receivedLine)).Shifts allowed n g := by
  rw [refuse]
  cases hf : c.session.faults.close with
  | none =>
    simp only [Session.hangUp, hf]
    refine Gate.shifts_aside (List.forall_mem_append.2 ⟨?_, received_isStop ps⟩)
    simp [Event.isStop]
  | some f =>
    simp only [Session.hangUp, hf]
    exact shifts_of_closes (breakOff_closes c f)

theorem read_shifts (c : Connection) (data : List UInt8) : (c.read g data).Shifts allowed n g := by
  cases hp : pieces data with
  | nil =>
    rw [read_nothing hp]
    exact .refl
  | cons first others =>
    cases hk : c.session.consumed with
    | true =>
      rw [read_consumed hp hk]
      exact Gate.shifts_aside (received_isStop (first :: others))
    | false =>
      cases hd : Directive.ofBytes? first with
      | none =>
        rw [read_refused hp hk hd]
        exact after_shifts (refuse_shifts _ others) (by simp [receivedLine, Event.isStop])
      | some d =>
        rw [read_begun hp hk hd]
        exact after_shifts (work_shifts _ .begin) (received_isStop (first :: others))

/-- A turn that a step brings about. -/
theorem reaction_shifts {s : Step} {directive : Option Directive}
    (h : s.reaction directive g c = some t) : t.Shifts allowed n g := by
  cases s with
  | receive m data eof =>
    obtain ⟨-, ⟨⟩⟩ := Option.ite_none_right_eq_some.1 h
    rw [receive]
    split
    · exact rest_shifts .refl
    · exact rest_shifts (read_shifts c data)
  | endInbound m =>
    obtain ⟨-, ⟨⟩⟩ := Option.ite_none_right_eq_some.1 h
    exact rest_shifts .refl
  | reset m f =>
    obtain ⟨-, ⟨⟩⟩ := Option.ite_none_right_eq_some.1 h
    exact rest_shifts (shifts_of_closes (breakOff_closes _ f))
  | wake m =>
    rw [Step.reaction] at h
    split at h
    · cases h
      exact rest_shifts (work_shifts c .advance)
    · cases h
  | setFault m point f =>
    cases h
    exact .refl
  | start | shutdown | serve | close | connect | setCloseFault => cases h

theorem drop_shifts (c : Connection) (g : Gate) : (c.drop g).Shifts allowed n g := by
  refine rest_shifts (Gate.shifts_aside ?_)
  rw [Session.abort]
  cases c.session.faults.abort <;> simp [Event.isStop]

theorem accept_shifts (peer : List Value) (faults : FaultPlan) (directive : Option Directive)
    (g : Gate) : (accept peer faults directive g).Shifts allowed n g := by
  rw [accept]
  cases peerLabel peer with
  | error f => exact .refl
  | ok label =>
    have hline : ∀ e ∈ [Event.log (.connected label)], e.isStop = false := by simp [Event.isStop]
    cases directive with
    | none => exact rest_shifts (after_shifts .refl hline)
    | some d => exact rest_shifts (after_shifts (work_shifts _ .begin) hline)

end Connection

/-! ### Steps and runs of a listener -/

namespace Listener

variable {allowed : Step → Prop} {l : Listener}

theorem start_shifts (l : Listener) :
    Gate.Shifts allowed l.gate (Trace.of .listener l.start.events) l.start.state.gate := by
  rw [start]
  cases l.binding.bind l.port with
  | error f => exact (Gate.Shift.startFailed l.host l.port).shifts
  | ok bound => exact (Gate.Shift.start l.host l.port bound).shifts

theorem dropSessions_shifts (xs : List Nat) (l : Listener) :
    Gate.Shifts allowed l.gate (dropSessions xs l).2.1 (dropSessions xs l).1.gate := by
  induction xs generalizing l with
  | nil => exact .refl
  | cons n rest ih =>
    cases hc : l.connections[n]? with
    | none =>
      rw [dropSessions_of_none hc]
      exact ih l
    | some c =>
      cases hf : c.session.faults.abort with
      | some f =>
        rw [dropSessions_of_fault hc hf]
        exact .refl
      | none =>
        rw [dropSessions_of_some hc hf]
        exact (c.drop_shifts l.gate).trans (ih (l.put n (c.drop l.gate)))

theorem close_shifts (l : Listener) :
    Gate.Shifts allowed l.gate l.close.2.1 l.close.1.gate := by
  have hshut : Gate.Shifts allowed l.gate (Trace.of .listener l.shut.events) l.shut.state.gate :=
    l.gate.shut_shifts .listener
  rw [close]
  cases l.shut.error with
  | some f => exact hshut
  | none => exact hshut.trans (dropSessions_shifts l.openSessions l.shut.state)

/-- A step shifts the gate to where it leaves it. -/
theorem step_shifts {s : Step} (hs : allowed s) :
    Gate.Shifts allowed l.gate (l.step s).2.trace (l.step s).1.gate := by
  have hstep : l.step s = ((l.act s).1.notice, (l.act s).2) := rfl
  rw [hstep, notice_gate]
  cases ht : s.target with
  | some n =>
    rw [act_of_target ht]
    cases hb : l.connections[n]?.bind (s.reaction l.directive l.gate) with
    | none =>
      rw [onConnection_of_none hb]
      exact .refl
    | some t =>
      obtain ⟨c, hc, hr⟩ := Option.bind_eq_some_iff.1 hb
      rw [onConnection_of_some hc hr]
      exact Connection.reaction_shifts hr
  | none =>
    cases s with
    | start => exact l.start_shifts
    | shutdown => exact l.gate.shut_shifts .listener
    | serve =>
      simp only [act, serve]
      split
      · exact .refl
      · exact l.start_shifts
    | close => exact l.close_shifts
    | connect peer faults =>
      simp only [act]
      cases hl : l.isListening with
      | false =>
        rw [connect_of_not_listening hl]
        exact .refl
      | true =>
        rw [connect_of_listening hl]
        exact Connection.accept_shifts _ faults l.directive l.gate
    | setCloseFault f => exact (Gate.Shift.setCloseFault hs).shifts
    | receive | endInbound | reset | wake | setFault => cases ht

/-- And so does a run. -/
theorem after_shifts {steps : List Step} (hs : ∀ s ∈ steps, allowed s) :
    Gate.Shifts allowed l.gate (l.transcript steps) (l.after steps).gate := by
  induction steps generalizing l with
  | nil => exact .refl
  | cons s rest ih =>
    obtain ⟨hone, hrest⟩ := List.forall_mem_cons.1 hs
    rw [transcript_cons, after_cons]
    exact (step_shifts hone).trans (ih hrest)

end Listener
end ScriptedServer
