import ScriptedServer.Proofs.Passage

/-!
What befalls each connection through a run of a listener. A step takes a connection on by one of its
own turns or by dropping it, or leaves it alone: `Step.Moves`, which `step_moves` finds for every step.
So a property of a connection and its history that is there when the connection is accepted and
survives turns and drops holds in every run (`Invariant.holds`). The interleaving of the connections is
dealt with here, once and for all.
-/

namespace ScriptedServer

/-- A listener as it is made. -/
def Listener.new (host : Option Text) (port : Option Int) (directive : Option Directive)
    (binding : Binding) (order : SetOrder) : Listener :=
  { host, port, directive, binding, order }

/-- What a step with a given outcome is to connection `n`. -/
def Step.marks (n : Nat) (s : Step) (o : Outcome) : List Mark :=
  (if s.target = some n ∧ o.ignored = false then s.brings else [])
    ++ Mark.all (o.trace.view (.connection n))

/-- All that befalls connection `n` in a run. -/
def Listener.history (n : Nat) : Listener → List Step → List Mark
  | _, [] => []
  | l, s :: rest => s.marks n (l.step s).2 ++ history n (l.step s).1 rest

/-- How a step takes connection `n` on: not at all, by a turn of it, or by dropping it. -/
inductive Step.Moves (n : Nat) (s : Step) (directive : Option Directive) :
    Connection → List Mark → Connection → Prop
  | still (c : Connection) : Moves n s directive c [] c
  | turn {g : Gate} {c : Connection} {t : Turn} (ht : s.target = some n)
      (hr : s.reaction directive g c = some t) :
      Moves n s directive c (s.brings ++ Mark.all t.events) t.connection
  | drop {c c' : Connection} {marks : List Mark} (g : Gate) (h : Moves n s directive c marks c')
      (ha : c'.session.faults.abort = none) :
      Moves n s directive c (marks ++ Mark.all (c'.drop g).events) (c'.drop g).connection

theorem Step.marks_of_silent {n : Nat} {s : Step} {o : Outcome}
    (ht : s.target = some n → o.ignored = true) (hv : o.trace.view (.connection n) = []) :
    s.marks n o = [] := by
  rw [marks, hv, if_neg]
  · rfl
  · rintro ⟨hs, hi⟩
    rw [ht hs] at hi
    cases hi

namespace Listener

variable {l : Listener} {n : Nat} {c : Connection} {s : Step}

/-! ### One step -/

/-- Sessions that are dropped take a connection on, or leave it alone. -/
theorem dropSessions_moves (xs : List Nat) {c₀ : Connection} {marks : List Mark}
    {directive : Option Directive} (hc : l.connections[n]? = some c)
    (h : s.Moves n directive c₀ marks c) :
    ∃ c', (dropSessions xs l).1.connections[n]? = some c'
      ∧ s.Moves n directive c₀
          (marks ++ Mark.all ((dropSessions xs l).2.1.view (.connection n))) c' := by
  induction xs generalizing l c marks with
  | nil => exact ⟨c, hc, by simpa [dropSessions, Trace.view] using h⟩
  | cons m rest ih =>
    cases hm : l.connections[m]? with
    | none =>
      rw [dropSessions_of_none hm]
      exact ih hc h
    | some b =>
      cases ha : b.session.faults.abort with
      | some f =>
        rw [dropSessions_of_fault hm ha]
        exact ⟨c, hc, by simpa [Trace.view] using h⟩
      | none =>
        rw [dropSessions_of_some hm ha]
        simp only [Trace.view_append]
        by_cases hnm : n = m
        · subst hnm
          obtain rfl : c = b := Option.some.inj (hc.symm.trans hm)
          obtain ⟨hlt, -⟩ := List.getElem?_eq_some_iff.1 hc
          obtain ⟨c', hc', h'⟩ := ih (get_put_self hlt _) (h.drop l.gate ha)
          refine ⟨c', hc', ?_⟩
          rw [Trace.view_of_self, Mark.all_append, ← List.append_assoc]
          exact h'
        · have hview : Trace.view (Trace.of (.connection m) (b.drop l.gate).events)
              (.connection n) = [] := Trace.view_of_ne (by simpa using Ne.symm hnm) _
          rw [hview]
          exact ih ((get_put_of_ne hnm l _).trans hc) h

/-- A step takes each connection on, or leaves it alone. -/
theorem step_moves (s : Step) (hc : l.connections[n]? = some c) :
    ∃ c', (l.step s).1.connections[n]? = some c'
      ∧ s.Moves n l.directive c (s.marks n (l.step s).2) c' := by
  obtain ⟨hlt, -⟩ := List.getElem?_eq_some_iff.1 hc
  by_cases ht : s.target = some n
  · cases hr : s.reaction l.directive l.gate c with
    | none =>
      rw [step, act_of_target ht, onConnection_of_none (by rw [hc, Option.bind_some, hr]),
        Step.marks_of_silent (fun _ => rfl) rfl]
      exact ⟨c, hc, .still c⟩
    | some t =>
      rw [step_of_reaction ht hc hr, Step.marks, if_pos ⟨ht, rfl⟩, Trace.view_of_self]
      exact ⟨t.connection, get_put_self hlt t, .turn ht hr⟩
  · by_cases hclose : s = .close
    · subst hclose
      have hview : Step.marks n .close (l.step .close).2
          = Mark.all ((l.step .close).2.trace.view (.connection n)) := by
        rw [Step.marks, if_neg fun h => ht h.1, List.nil_append]
      rw [hview]
      simp only [step, act, close, notice_connections]
      cases l.shut.error with
      | some f =>
        rw [Trace.view_listener]
        exact ⟨c, hc, .still c⟩
      | none =>
        simp only [Trace.view_append, Trace.view_listener, List.nil_append]
        exact dropSessions_moves l.openSessions (l := l.shut.state) hc (.still c)
    · obtain ⟨hsame, hview⟩ := step_other hlt ht hclose
      rw [hsame, Step.marks_of_silent (fun h => absurd h ht) hview]
      exact ⟨c, hc, .still c⟩

/-! ### Numbers that no connection has yet -/

/-- Nothing is dropped that was not accepted. -/
theorem dropSessions_unknown (xs : List Nat) (hn : l.connections[n]? = none) :
    (dropSessions xs l).1.connections[n]? = none
      ∧ (dropSessions xs l).2.1.view (.connection n) = [] := by
  induction xs generalizing l with
  | nil => exact ⟨hn, rfl⟩
  | cons m rest ih =>
    cases hm : l.connections[m]? with
    | none =>
      rw [dropSessions_of_none hm]
      exact ih hn
    | some b =>
      cases ha : b.session.faults.abort with
      | some f =>
        rw [dropSessions_of_fault hm ha]
        exact ⟨hn, rfl⟩
      | none =>
        have hnm : n ≠ m := by
          rintro rfl
          rw [hn] at hm
          cases hm
        obtain ⟨hnone, hview⟩ := ih (l := l.put m (b.drop l.gate)) ((get_put_of_ne hnm l _).trans hn)
        have hother : Trace.view (Trace.of (.connection m) (b.drop l.gate).events)
            (.connection n) = [] := Trace.view_of_ne (by simpa using Ne.symm hnm) _
        rw [dropSessions_of_some hm ha]
        exact ⟨hnone, by rw [Trace.view_append, hother, hview]; rfl⟩

/-- A step that accepts no connection does nothing to numbers that are not taken. -/
theorem step_unknown (hn : l.connections[n]? = none) (hs : ∀ peer faults, s ≠ .connect peer faults) :
    (l.step s).1.connections[n]? = none ∧ s.marks n (l.step s).2 = [] := by
  cases ht : s.target with
  | some m =>
    rw [step, act_of_target ht]
    cases hb : l.connections[m]?.bind (s.reaction l.directive l.gate) with
    | none =>
      rw [onConnection_of_none hb]
      exact ⟨hn, Step.marks_of_silent (fun _ => rfl) rfl⟩
    | some t =>
      obtain ⟨c, hc, hr⟩ := Option.bind_eq_some_iff.1 hb
      have hnm : n ≠ m := by
        rintro rfl
        rw [hn] at hc
        cases hc
      rw [onConnection_of_some hc hr]
      refine ⟨(get_put_of_ne hnm l t).trans hn, Step.marks_of_silent (fun h => ?_) ?_⟩
      · exact absurd (Option.some.inj (h.symm.trans ht)) hnm
      · exact Trace.view_of_ne (by simpa using Ne.symm hnm) _
  | none =>
    have hmarks : (l.step s).2.trace.view (.connection n) = [] → s.marks n (l.step s).2 = [] :=
      Step.marks_of_silent fun h => by rw [ht] at h; cases h
    cases s with
    | start =>
      exact ⟨(congrArg (·[n]?) l.start_connections).trans hn, hmarks (Trace.view_listener _ n)⟩
    | shutdown => exact ⟨hn, hmarks (Trace.view_listener _ n)⟩
    | serve =>
      refine ⟨(congrArg (·[n]?) l.serve_connections).trans hn, hmarks ?_⟩
      simp only [step, act, serve]
      split
      · rfl
      · exact Trace.view_listener _ n
    | close =>
      obtain ⟨hnone, hview⟩ := dropSessions_unknown l.openSessions (l := l.shut.state) hn
      have hboth : l.close.1.connections[n]? = none ∧ l.close.2.1.view (.connection n) = [] := by
        rw [close]
        cases l.shut.error with
        | some f => exact ⟨hn, Trace.view_listener _ n⟩
        | none => exact ⟨hnone, by rw [Trace.view_append, Trace.view_listener, hview]; rfl⟩
      exact ⟨hboth.1, hmarks hboth.2⟩
    | connect peer faults => exact absurd rfl (hs peer faults)
    | setCloseFault f => exact ⟨hn, hmarks rfl⟩
    | receive | endInbound | reset | wake | setFault => cases ht

/-- A connection that is accepted takes the next number and begins its history. -/
theorem step_connect_unknown (hn : l.connections[n]? = none) (peer : Option (List Value))
    (faults : FaultPlan) :
    let s : Step := .connect peer faults
    ((l.step s).1.connections[n]? = none ∧ s.marks n (l.step s).2 = []) ∨
      ∃ address, (l.step s).1.connections[n]?
          = some (Connection.accept address faults l.directive l.gate).connection
        ∧ s.marks n (l.step s).2
          = Mark.all (Connection.accept address faults l.directive l.gate).events := by
  intro s
  have hmarks : s.marks n (l.step s).2 = Mark.all ((l.step s).2.trace.view (.connection n)) := by
    rw [Step.marks, if_neg (fun h => nomatch h.1), List.nil_append]
  rw [hmarks]
  simp only [step, act, s]
  cases hl : l.isListening with
  | false =>
    rw [connect_of_not_listening hl]
    exact .inl ⟨hn, rfl⟩
  | true =>
    rw [connect_of_listening hl]
    have hlen : l.connections.length ≤ n := List.getElem?_eq_none_iff.1 hn
    by_cases he : n = l.connections.length
    · right
      subst he
      exact ⟨peer.getD (standInPeer l.connections.length), List.getElem?_concat_length,
        by rw [Trace.view_of_self]⟩
    · left
      refine ⟨?_, ?_⟩
      · rw [notice_connections, List.getElem?_eq_none_iff, List.length_append, List.length_singleton]
        omega
      · rw [Trace.view_of_ne (by simpa using Ne.symm he)]
        rfl

end Listener

/-- So a step passes every connection that is at rest, and leaves it at rest. -/
theorem Step.Moves.passes {directive : Option Directive} {c c' : Connection} {marks : List Mark}
    {s : Step} {n : Nat} (h : s.Moves n directive c marks c') (hc : c.AtRest) :
    c.Passes marks c' ∧ c'.AtRest := by
  induction h with
  | still => exact ⟨.refl _, hc⟩
  | turn _ hr => exact ⟨Connection.reaction_passes hr hc, Connection.reaction_atRest hr hc⟩
  | drop g _ _ ih => exact ⟨(ih hc).1.trans (Connection.drop_passes _ g), Connection.drop_atRest _ g⟩

/-! ### What holds of every connection -/

/-- A property of a connection and its history that is there when the connection is accepted, and that
turns and drops keep. Of the steps of the run only those are met that `allowed` holds of. -/
structure Invariant (directive : Option Directive) (allowed : Step → Prop)
    (P : Connection → List Mark → Prop) : Prop where
  accept : ∀ {peer faults} (address : List Value) (g : Gate), allowed (.connect peer faults) →
    P (Connection.accept address faults directive g).connection
      (Mark.all (Connection.accept address faults directive g).events)
  turn : ∀ {s : Step} {g : Gate} {c : Connection} {t : Turn} {h : List Mark}, allowed s →
    s.reaction directive g c = some t → P c h → P t.connection (h ++ (s.brings ++ Mark.all t.events))
  drop : ∀ {c : Connection} {h : List Mark} (g : Gate), c.session.faults.abort = none →
    P c h → P (c.drop g).connection (h ++ Mark.all (c.drop g).events)

namespace Invariant

variable {directive : Option Directive} {allowed : Step → Prop} {P : Connection → List Mark → Prop}
  {l : Listener} {steps : List Step}

/-- So a step keeps it. -/
theorem moves (hP : Invariant directive allowed P) {s : Step} (hs : allowed s) {n : Nat}
    {c c' : Connection} {marks h : List Mark} (hm : s.Moves n directive c marks c')
    (hc : P c h) : P c' (h ++ marks) := by
  induction hm with
  | still => rwa [List.append_nil]
  | turn _ hr => exact hP.turn hs hr hc
  | drop g _ ha ih =>
    rw [← List.append_assoc]
    exact hP.drop g ha (ih hc)

/-- Each connection has the property with its history `h`, and what is not accepted has none. -/
def Tracks (P : Connection → List Mark → Prop) (h : Nat → List Mark) (l : Listener) : Prop :=
  ∀ n, (l.connections[n]? = none ∧ h n = []) ∨ ∃ c, l.connections[n]? = some c ∧ P c (h n)

theorem step (hP : Invariant directive allowed P) (hl : l.directive = directive) {s : Step}
    (hs : allowed s) {h : Nat → List Mark} (ht : Tracks P h l) :
    Tracks P (fun n => h n ++ s.marks n (l.step s).2) (l.step s).1 := by
  subst hl
  intro n
  rcases ht n with ⟨hn, hnil⟩ | ⟨c, hc, hp⟩
  · simp only [hnil, List.nil_append]
    by_cases hcon : ∃ peer faults, s = .connect peer faults
    · obtain ⟨peer, faults, rfl⟩ := hcon
      rcases Listener.step_connect_unknown hn peer faults with h | ⟨address, hc, hmarks⟩
      · exact .inl h
      · rw [hmarks]
        exact .inr ⟨_, hc, hP.accept address l.gate hs⟩
    · exact .inl (Listener.step_unknown hn fun peer faults he => hcon ⟨peer, faults, he⟩)
  · obtain ⟨c', hc', hm⟩ := Listener.step_moves s hc
    exact .inr ⟨c', hc', hP.moves hs hm hp⟩

/-- So it holds all through a run. -/
theorem run (hP : Invariant directive allowed P) (hl : l.directive = directive)
    (hs : ∀ s ∈ steps, allowed s) {h : Nat → List Mark} (ht : Tracks P h l) :
    Tracks P (fun n => h n ++ l.history n steps) (l.after steps) := by
  induction steps generalizing l h with
  | nil => simpa [Listener.history] using ht
  | cons s rest ih =>
    have hstep := hP.step hl (hs s List.mem_cons_self) ht
    have hrest := ih ((l.step_directive s).trans hl)
      (fun s hm => hs s (List.mem_cons_of_mem _ hm)) hstep
    simpa [Listener.history] using hrest

/-- Every connection of a run has the property with its history. -/
theorem tracks (hP : Invariant directive allowed P) (hs : ∀ s ∈ steps, allowed s)
    (host : Option Text) (port : Option Int) (binding : Binding) (order : SetOrder) :
    let l := Listener.new host port directive binding order
    Tracks P (l.history · steps) (l.after steps) := by
  intro l
  have hnew : Tracks P (fun _ => []) l := fun n => .inl ⟨rfl, rfl⟩
  simpa using hP.run rfl hs hnew

theorem holds (hP : Invariant directive allowed P) (hs : ∀ s ∈ steps, allowed s)
    {host : Option Text} {port : Option Int} {binding : Binding} {order : SetOrder} {n : Nat}
    {c : Connection}
    (hc : ((Listener.new host port directive binding order).after steps).connections[n]? = some c) :
    P c ((Listener.new host port directive binding order).history n steps) := by
  rcases hP.tracks hs host port binding order n with ⟨hn, -⟩ | ⟨c', hc', hp⟩
  · rw [hc] at hn
    cases hn
  · obtain rfl := Option.some.inj (hc.symm.trans hc')
    exact hp

end Invariant
end ScriptedServer
