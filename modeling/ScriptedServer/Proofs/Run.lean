import ScriptedServer.Listener
import ScriptedServer.Proofs.Turn

/-!
Runs of a listener. `Listener.after` is the listener behind a list of steps and
`Listener.transcript` all that they show. A step that is addressed to a connection is a reaction of
that connection (`act_of_target`), so it changes and shows nothing of any other: `step_other` says
so for every step that a connection is not addressed by, a close of the listener apart.
-/

namespace ScriptedServer

/-! ### Views of a trace -/

namespace Trace

@[simp] theorem view_append (t u : Trace) (o : Origin) : view (t ++ u) o = view t o ++ view u o := by
  simp [view]

@[simp] theorem view_of_self (o : Origin) (events : List Event) : view (of o events) o = events := by
  simp [view, of, List.filter_map, Function.comp_def]

theorem view_of_ne {o o' : Origin} (h : o ≠ o') (events : List Event) :
    view (of o events) o' = [] := by
  simp [view, of, List.filter_map, Function.comp_def, h]

theorem mem_of {o o' : Origin} {e : Event} {events : List Event} :
    (o', e) ∈ of o events ↔ o = o' ∧ e ∈ events := by
  rw [of, List.mem_map]
  constructor
  · rintro ⟨a, ha, ⟨⟩⟩
    exact ⟨rfl, ha⟩
  · rintro ⟨rfl, he⟩
    exact ⟨e, he, rfl⟩

theorem mem_view {t : Trace} {o : Origin} {e : Event} : e ∈ t.view o ↔ (o, e) ∈ t := by
  simp only [view, List.mem_map, List.mem_filter, decide_eq_true_eq]
  constructor
  · rintro ⟨⟨o', e'⟩, ⟨hm, rfl⟩, rfl⟩
    exact hm
  · exact fun hm => ⟨_, ⟨hm, rfl⟩, rfl⟩

/-- Nothing that belongs to the listener itself is seen of a connection. -/
theorem view_listener (events : List Event) (i : Nat) :
    view (of .listener events) (.connection i) = [] := view_of_ne (by simp) events

end Trace

/-! ### Steps that are addressed to a connection -/

namespace Step

/-- The connection that a step is addressed to. -/
def target : Step → Option Nat
  | .receive n _ _ | .endInbound n | .reset n _ | .wake n | .setFault n _ _ => some n
  | _ => none

/-- What a connection makes of a step that is addressed to it, if it makes anything of it. -/
def reaction (s : Step) (directive : Option Directive) (g : Gate) (c : Connection) : Option Turn :=
  match s with
  | .receive _ data eof => if c.inboundOpen then some (c.receive directive g data eof) else none
  | .endInbound _ => if c.inboundOpen then some (c.endInbound g) else none
  | .reset _ f => if c.inboundOpen then some (c.reset g f) else none
  | .wake _ =>
    match c.job with
    | .asleep left => some (c.wake g left)
    | _ => none
  | .setFault _ point f =>
    some { connection := { c with session.faults := c.session.faults.set f point }, gate := g }
  | _ => none

/-- A reaction moves the gate only by a stop that is seen. -/
theorem reaction_gate {s : Step} {directive : Option Directive} {g : Gate} {c : Connection}
    {t : Turn} (h : s.reaction directive g c = some t) (hs : .serverClose ∉ t.events) :
    t.gate = g := by
  cases s with
  | receive n data eof =>
    obtain ⟨-, ⟨⟩⟩ := Option.ite_none_right_eq_some.1 h
    exact (Connection.receive_keeps c directive g data eof).gate hs
  | endInbound n =>
    obtain ⟨-, ⟨⟩⟩ := Option.ite_none_right_eq_some.1 h
    exact (Connection.endInbound_keeps c g).gate hs
  | reset n f =>
    obtain ⟨-, ⟨⟩⟩ := Option.ite_none_right_eq_some.1 h
    exact (Connection.reset_keeps c g f).gate hs
  | wake n =>
    rw [reaction] at h
    split at h
    · cases h
      exact (Connection.wake_keeps c g _).gate hs
    · cases h
  | setFault n point f =>
    cases h
    rfl
  | start | shutdown | serve | close | connect | setCloseFault => cases h

/-- A reaction leaves the plan of faults alone, unless it sets it. -/
theorem reaction_faults {s : Step} {directive : Option Directive} {g : Gate} {c : Connection}
    {t : Turn} (h : s.reaction directive g c = some t) :
    t.connection.session.faults = c.session.faults ∨ ∃ n point f, s = .setFault n point f
      ∧ t.connection.session.faults = c.session.faults.set f point := by
  cases s with
  | receive n data eof =>
    obtain ⟨-, ⟨⟩⟩ := Option.ite_none_right_eq_some.1 h
    exact .inl (Connection.receive_keeps c directive g data eof).faults
  | endInbound n =>
    obtain ⟨-, ⟨⟩⟩ := Option.ite_none_right_eq_some.1 h
    exact .inl (Connection.endInbound_keeps c g).faults
  | reset n f =>
    obtain ⟨-, ⟨⟩⟩ := Option.ite_none_right_eq_some.1 h
    exact .inl (Connection.reset_keeps c g f).faults
  | wake n =>
    rw [reaction] at h
    split at h
    · cases h
      exact .inl (Connection.wake_keeps c g _).faults
    · cases h
  | setFault n point f =>
    cases h
    exact .inr ⟨n, point, f, rfl, rfl⟩
  | start | shutdown | serve | close | connect | setCloseFault => cases h

end Step

namespace Listener

/-! ### The listener behind a list of steps -/

/-- The listener behind a list of steps. -/
def after (l : Listener) (steps : List Step) : Listener :=
  steps.foldl (fun l s => (l.step s).1) l

/-- All that a list of steps shows, in order. -/
def transcript (l : Listener) (steps : List Step) : Trace := (l.run steps).flatMap (·.2.trace)

variable {l : Listener}

@[simp] theorem after_nil (l : Listener) : l.after [] = l := rfl

@[simp] theorem after_cons (l : Listener) (s : Step) (rest : List Step) :
    l.after (s :: rest) = (l.step s).1.after rest := rfl

@[simp] theorem after_append (l : Listener) (steps more : List Step) :
    l.after (steps ++ more) = (l.after steps).after more := List.foldl_append ..

@[simp] theorem transcript_nil (l : Listener) : l.transcript [] = [] := rfl

@[simp] theorem transcript_cons (l : Listener) (s : Step) (rest : List Step) :
    l.transcript (s :: rest) = (l.step s).2.trace ++ (l.step s).1.transcript rest := by
  simp [transcript, run]

@[simp] theorem transcript_append (l : Listener) (steps more : List Step) :
    l.transcript (steps ++ more) = l.transcript steps ++ (l.after steps).transcript more := by
  induction steps generalizing l with
  | nil => rfl
  | cons s rest ih =>
    rw [List.cons_append, transcript_cons, transcript_cons, after_cons, ih, List.append_assoc]

/-! ### Taking notice changes the waiters alone -/

@[simp] theorem notice_connections (l : Listener) : l.notice.connections = l.connections := rfl
@[simp] theorem notice_gate (l : Listener) : l.notice.gate = l.gate := rfl

/-! ### Turns put in place -/

theorem get_put_of_ne {n i : Nat} (h : i ≠ n) (l : Listener) (t : Turn) :
    (l.put n t).connections[i]? = l.connections[i]? := by
  rw [put, List.getElem?_set_ne h.symm]

theorem get_put_self {n : Nat} (h : n < l.connections.length) (t : Turn) :
    (l.put n t).connections[n]? = some t.connection := by
  rw [put, List.getElem?_set_self h]

theorem length_put (l : Listener) (n : Nat) (t : Turn) :
    (l.put n t).connections.length = l.connections.length := List.length_set

theorem onConnection_of_some {n : Nat} {c : Connection} {f : Connection → Option Turn} {t : Turn}
    (hc : l.connections[n]? = some c) (hf : f c = some t) :
    l.onConnection n f = l.turn n t := by
  rw [onConnection, hc, Option.bind_some, hf]

theorem onConnection_of_none {n : Nat} {f : Connection → Option Turn}
    (h : l.connections[n]?.bind f = none) : l.onConnection n f = (l, { ignored := true }) := by
  rw [onConnection, h]

/-- A step that is addressed to a connection is a reaction of that connection. -/
theorem act_of_target {s : Step} {n : Nat} (h : s.target = some n) (l : Listener) :
    l.act s = l.onConnection n (s.reaction l.directive l.gate) := by
  cases s <;> cases h <;> rfl

/-- A step that is addressed to one connection shows nothing of another. -/
theorem view_of_target {s : Step} {n i : Nat} (h : s.target = some n) (hi : i ≠ n) :
    (l.step s).2.trace.view (.connection i) = [] := by
  rw [step, act_of_target h, onConnection]
  cases l.connections[n]?.bind (s.reaction l.directive l.gate) with
  | none => rfl
  | some t => exact Trace.view_of_ne (by simpa using hi.symm) t.events

/-- A connection that is accepted takes the next number. -/
theorem connect_of_listening (h : l.isListening = true) (peer : Option (List Value))
    (faults : FaultPlan) :
    l.connect peer faults =
      let n := l.connections.length
      let t := Connection.accept (peer.getD (standInPeer n)) faults l.directive l.gate
      ({ l with
          gate := t.gate
          connections := l.connections ++ [t.connection]
          sessions :=
            if t.connection.task = .running then l.sessions ++ [n] else (l.sessions ++ [n]).erase n },
        { trace := Trace.of (.connection n) t.events }) := by
  simp [connect, h, turn, put]

theorem connect_of_not_listening (h : l.isListening = false) (peer : Option (List Value))
    (faults : FaultPlan) : l.connect peer faults = (l, { ignored := true }) := by
  simp [connect, h]

/-! ### The calls on the listening side -/

theorem start_connections (l : Listener) : l.start.state.connections = l.connections := by
  rw [start]
  cases l.binding.bind l.port <;> rfl

theorem serve_connections (l : Listener) : l.serve.1.connections = l.connections := by
  rw [serve]
  split
  · rfl
  · exact l.start_connections

/-- A step leaves each connection alone that was accepted before, unless it is addressed to it or
closes the listener; and it shows nothing of that connection. -/
theorem step_other {s : Step} {i : Nat} (hi : i < l.connections.length)
    (ht : s.target ≠ some i) (hc : s ≠ .close) :
    (l.step s).1.connections[i]? = l.connections[i]?
      ∧ (l.step s).2.trace.view (.connection i) = [] := by
  cases hs : s.target with
  | some n =>
    have hin : i ≠ n := fun h => ht (h ▸ hs)
    refine ⟨?_, view_of_target hs hin⟩
    rw [step, act_of_target hs, onConnection]
    cases l.connections[n]?.bind (s.reaction l.directive l.gate) with
    | none => rfl
    | some t => exact get_put_of_ne hin l t
  | none =>
    rw [step]
    cases s with
    | start =>
      exact ⟨congrArg (·[i]?) l.start_connections, Trace.view_listener _ i⟩
    | shutdown => exact ⟨rfl, Trace.view_listener _ i⟩
    | serve =>
      refine ⟨congrArg (·[i]?) l.serve_connections, ?_⟩
      simp only [act, serve]
      split
      · rfl
      · exact Trace.view_listener _ i
    | close => exact absurd rfl hc
    | connect peer faults =>
      simp only [act]
      cases hl : l.isListening with
      | false => rw [connect_of_not_listening hl]; exact ⟨rfl, rfl⟩
      | true =>
        rw [connect_of_listening hl]
        refine ⟨List.getElem?_append_left hi, Trace.view_of_ne ?_ _⟩
        simpa using Nat.ne_of_gt hi
    | setCloseFault f => exact ⟨rfl, rfl⟩
    | receive | endInbound | reset | wake | setFault => cases hs

/-- A connection makes nothing of a step that is addressed to it, or its turn is put in place. -/
theorem step_target {s : Step} {n : Nat} {c : Connection} (ht : s.target = some n)
    (hc : l.connections[n]? = some c) :
    (s.reaction l.directive l.gate c = none ∧ l.step s = (l.notice, { ignored := true })) ∨
      ∃ t, s.reaction l.directive l.gate c = some t
        ∧ (l.step s).1.connections[n]? = some t.connection ∧ (l.step s).1.gate = t.gate
        ∧ (l.step s).2.trace = Trace.of (.connection n) t.events := by
  rw [step, act_of_target ht]
  cases hr : s.reaction l.directive l.gate c with
  | none =>
    left
    rw [onConnection_of_none (by rw [hc, Option.bind_some, hr])]
    exact ⟨rfl, rfl⟩
  | some t =>
    right
    obtain ⟨hlt, -⟩ := List.getElem?_eq_some_iff.1 hc
    rw [onConnection_of_some hc hr]
    exact ⟨t, rfl, get_put_self hlt t, rfl, rfl⟩

/-- A turn that a step brings about is put in place and shown. -/
theorem step_of_reaction {s : Step} {n : Nat} {c : Connection} {t : Turn} (ht : s.target = some n)
    (hc : l.connections[n]? = some c) (hr : s.reaction l.directive l.gate c = some t) :
    l.step s = ((l.put n t).notice, { trace := Trace.of (.connection n) t.events }) := by
  rw [step, act_of_target ht, onConnection_of_some hc hr]
  rfl

/-- The gate is moved only by a stop that is seen, a start or a fault that is set on it. -/
theorem step_gate {s : Step} (hstart : s ≠ .start) (hclose : s ≠ .close)
    (hfault : ∀ f, s ≠ .setCloseFault f) (hserve : s = .serve → l.gate.acceptor.isSome = true)
    (hquiet : ∀ o, (o, .serverClose) ∉ (l.step s).2.trace) : (l.step s).1.gate = l.gate := by
  have hof : ∀ {o : Origin} {events : List Event}, (l.step s).2.trace = Trace.of o events →
      .serverClose ∉ events := fun he hm => hquiet _ (by rw [he]; exact Trace.mem_of.2 ⟨rfl, hm⟩)
  cases ht : s.target with
  | some m =>
    rw [step, act_of_target ht] at hof ⊢
    cases hb : l.connections[m]?.bind (s.reaction l.directive l.gate) with
    | none => rw [onConnection_of_none hb]; rfl
    | some t =>
      obtain ⟨c, hc, hr⟩ := Option.bind_eq_some_iff.1 hb
      rw [onConnection_of_some hc hr] at hof ⊢
      exact Step.reaction_gate hr (hof rfl)
  | none =>
    cases s with
    | start => exact absurd rfl hstart
    | shutdown => exact Gate.shut_quiet (hof rfl)
    | serve => simp only [step, act, serve, hserve rfl, if_true, notice_gate]
    | close => exact absurd rfl hclose
    | connect peer faults =>
      cases hl : l.isListening with
      | false => simp only [step, act, connect_of_not_listening hl, notice_gate]
      | true =>
        simp only [step, act, connect_of_listening hl, notice_gate] at hof ⊢
        exact (Connection.accept_keeps _ _ _ _).gate (hof rfl)
    | setCloseFault f => exact absurd rfl (hfault f)
    | receive | endInbound | reset | wake | setFault => cases ht

/-! ### Dropping sessions -/

theorem openSessions_perm (l : Listener) : l.openSessions.Perm l.sessions := l.order.perm l.sessions

@[simp] theorem mem_openSessions {l : Listener} {n : Nat} : n ∈ l.openSessions ↔ n ∈ l.sessions :=
  l.openSessions_perm.mem_iff

theorem dropSessions_of_none {n : Nat} (h : l.connections[n]? = none) (rest : List Nat) :
    dropSessions (n :: rest) l = dropSessions rest l := by
  simp only [dropSessions, h]

theorem dropSessions_of_some {n : Nat} {c : Connection} (h : l.connections[n]? = some c)
    (ha : c.session.faults.abort = none) (rest : List Nat) :
    dropSessions (n :: rest) l =
      let t := c.drop l.gate
      let d := dropSessions rest (l.put n t)
      (d.1, Trace.of (.connection n) t.events ++ d.2.1, d.2.2) := by
  simp only [dropSessions, h, Connection.drop, Session.abort, ha]

/-- A session that fails to drop stays, and so do those behind it. -/
theorem dropSessions_of_fault {n : Nat} {c : Connection} (h : l.connections[n]? = some c)
    {f : Fault} (ha : c.session.faults.abort = some f) (rest : List Nat) :
    dropSessions (n :: rest) l = (l, [], some f) := by
  simp only [dropSessions, h, Session.abort, ha]

/-! ### What a listener is made with -/

theorem start_made (l : Listener) :
    l.start.state.directive = l.directive ∧ l.start.state.binding = l.binding := by
  rw [start]
  cases l.binding.bind l.port <;> exact ⟨rfl, rfl⟩

theorem dropSessions_made (xs : List Nat) (l : Listener) :
    (dropSessions xs l).1.directive = l.directive ∧ (dropSessions xs l).1.binding = l.binding := by
  induction xs generalizing l with
  | nil => exact ⟨rfl, rfl⟩
  | cons n rest ih =>
    simp only [dropSessions]
    cases l.connections[n]? with
    | none => exact ih l
    | some c =>
      simp only
      cases c.session.abort.error with
      | some f => exact ⟨rfl, rfl⟩
      | none => exact ih _

/-- No step changes the directive and the binding that a listener was made with. -/
theorem step_made (l : Listener) (s : Step) :
    (l.step s).1.directive = l.directive ∧ (l.step s).1.binding = l.binding := by
  cases ht : s.target with
  | some m =>
    rw [step, act_of_target ht, onConnection]
    cases l.connections[m]?.bind (s.reaction l.directive l.gate) <;> exact ⟨rfl, rfl⟩
  | none =>
    rw [step]
    cases s with
    | start => exact l.start_made
    | serve =>
      simp only [act, serve]
      split
      · exact ⟨rfl, rfl⟩
      · exact l.start_made
    | close =>
      simp only [act, close]
      cases l.shut.error with
      | some f => exact ⟨rfl, rfl⟩
      | none => exact dropSessions_made l.openSessions l.shut.state
    | connect peer faults =>
      simp only [act, connect]
      split <;> exact ⟨rfl, rfl⟩
    | shutdown | setCloseFault => exact ⟨rfl, rfl⟩
    | receive | endInbound | reset | wake | setFault => cases ht

theorem step_directive (l : Listener) (s : Step) : (l.step s).1.directive = l.directive :=
  (l.step_made s).1

theorem after_directive (l : Listener) (steps : List Step) :
    (l.after steps).directive = l.directive := by
  induction steps generalizing l with
  | nil => rfl
  | cons s rest ih => exact (ih _).trans (l.step_directive s)

end Listener
end ScriptedServer
