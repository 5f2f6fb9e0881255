import Mathlib.Data.List.Induction
import ScriptedServer.Proofs.Stride

/-!
The history of a connection, each mark with the step that it comes from (`Listener.chronicle`). A listener
between two steps drops a session only while it is handled, and each once, so a step of it is a sequence
of strides for every connection that is there. A property that is there when a connection is accepted and
that every stride keeps therefore holds of every connection of a run (`StrideInvariant.holds`).
-/

namespace ScriptedServer

/-- All that befalls connection `n` in a run, with the steps that it comes from. -/
def Listener.chronicle (n : Nat) : Listener → List Step → List (Step × Mark)
  | _, [] => []
  | l, s :: rest => (s.marks n (l.step s).2).map (s, ·) ++ chronicle n (l.step s).1 rest

/-- What is seen, if anything is. -/
def Mark.seen? : Mark → Option Event
  | seen e => some e
  | _ => none

/-- What is seen of a connection. -/
def shown (h : List (Step × Mark)) : List Event := h.filterMap (·.2.seen?)

theorem shown_append (h more : List (Step × Mark)) : shown (h ++ more) = shown h ++ shown more :=
  List.filterMap_append

theorem shown_all (s : Step) (events : List Event) : shown ((Mark.all events).map (s, ·)) = events := by
  simp [shown, Mark.all, Mark.seen?, List.filterMap_map, Function.comp_def]

theorem shown_brings (s s' : Step) : shown (s'.brings.map (s, ·)) = [] := by
  cases s' with
  | receive n data eof => cases eof <;> rfl
  | _ => rfl

namespace Listener

variable {l : Listener} {n : Nat} {c : Connection} {s : Step}

theorem chronicle_append (n : Nat) (l : Listener) (steps more : List Step) :
    l.chronicle n (steps ++ more) = l.chronicle n steps ++ (l.after steps).chronicle n more := by
  induction steps generalizing l with
  | nil => rfl
  | cons s rest ih => rw [List.cons_append, chronicle, ih, chronicle, after_cons, List.append_assoc]

/-- What is seen of a connection is its part of the transcript. -/
theorem shown_chronicle (n : Nat) (l : Listener) (steps : List Step) :
    shown (l.chronicle n steps) = (l.transcript steps).view (.connection n) := by
  induction steps generalizing l with
  | nil => rfl
  | cons s rest ih =>
    have hbrought : shown ((if s.target = some n ∧ (l.step s).2.ignored = false then s.brings
        else []).map (s, ·)) = [] := by
      split
      · exact shown_brings s s
      · rfl
    rw [chronicle, shown_append, ih, Step.marks, List.map_append, shown_append, hbrought, shown_all,
      List.nil_append, transcript_cons, Trace.view_append]

/-! ### One step -/

/-- Sessions that are dropped while they are handled, each once. -/
theorem dropSessions_strides {xs : List Nat} (hx : xs.Nodup) (hc : l.connections[n]? = some c)
    (hr : n ∈ xs → c.task = .running ∧ c.AtRest) :
    ∃ c', (dropSessions xs l).1.connections[n]? = some c'
      ∧ c.Strides .close (Mark.all ((dropSessions xs l).2.1.view (.connection n))) c' := by
  induction hx generalizing l c with
  | nil => exact ⟨c, hc, .refl c⟩
  | @cons m rest hm _ ih =>
    cases hb : l.connections[m]? with
    | none =>
      rw [dropSessions_of_none hb]
      exact ih hc fun h => hr (.tail m h)
    | some b =>
      cases ha : b.session.faults.abort with
      | some f =>
        rw [dropSessions_of_fault hb ha]
        exact ⟨c, hc, .refl c⟩
      | none =>
        rw [dropSessions_of_some hb ha]
        simp only [Trace.view_append, Mark.all_append]
        by_cases hnm : n = m
        · subst hnm
          obtain rfl : c = b := Option.some.inj (hc.symm.trans hb)
          obtain ⟨hlt, -⟩ := List.getElem?_eq_some_iff.1 hc
          obtain ⟨hrun, hrest⟩ := hr (.head rest)
          -- it is not among the sessions left
          obtain ⟨c', hc', h'⟩ := ih (get_put_self hlt _) fun h => absurd rfl (hm n h)
          refine ⟨c', hc', ?_⟩
          rw [Trace.view_of_self]
          exact (Connection.drop_strides rfl hrun hrest ha l.gate).trans h'
        · have hview : Trace.view (Trace.of (.connection m) (b.drop l.gate).events)
              (.connection n) = [] := Trace.view_of_ne (by simpa using Ne.symm hnm) _
          rw [hview]
          exact ih ((get_put_of_ne hnm l _).trans hc) fun h => hr (.tail m h)

/-- A step of a listener between two steps. -/
theorem step_strides (hl : l.Steady) (hc : l.connections[n]? = some c) (hb : c.Begun l.directive)
    (s : Step) : ∃ c', (l.step s).1.connections[n]? = some c'
      ∧ c.Strides s (s.marks n (l.step s).2) c' := by
  obtain ⟨hlt, -⟩ := List.getElem?_eq_some_iff.1 hc
  have hrest := hl.atRest c (List.mem_of_getElem? hc)
  by_cases ht : s.target = some n
  · cases hr : s.reaction l.directive l.gate c with
    | none =>
      rw [step, act_of_target ht, onConnection_of_none (by rw [hc, Option.bind_some, hr]),
        Step.marks_of_silent (fun _ => rfl) rfl]
      exact ⟨c, hc, .refl c⟩
    | some t =>
      rw [step_of_reaction ht hc hr, Step.marks, if_pos ⟨ht, rfl⟩, Trace.view_of_self]
      exact ⟨t.connection, get_put_self hlt t, Connection.reaction_strides hr hrest hb⟩
  · by_cases hclose : s = .close
    · subst hclose
      have hview : Step.marks n .close (l.step .close).2
          = Mark.all ((l.step .close).2.trace.view (.connection n)) := by
        rw [Step.marks, if_neg fun h => ht h.1, List.nil_append]
      rw [hview]
      simp only [step, act, close, notice_connections]
      cases l.shut.error with
      | some f =>
        rw [Trace.view_listener]
        exact ⟨c, hc, .refl c⟩
      | none =>
        simp only [Trace.view_append, Trace.view_listener, List.nil_append]
        exact dropSessions_strides (l := l.shut.state) hl.openSessions_nodup hc fun hn =>
          ⟨(hl.running_iff hc).2 (mem_openSessions.1 hn), hrest⟩
    · obtain ⟨hsame, hview⟩ := step_other hlt ht hclose
      rw [hsame, Step.marks_of_silent (fun h => absurd h ht) hview]
      exact ⟨c, hc, .refl c⟩

end Listener

/-! ### What strides keep -/

/-- A property of a connection and its chronicle that is there when the connection is accepted, and that
every stride keeps. Of the steps of the run only those are met that `allowed` holds of. -/
structure StrideInvariant (allowed : Step → Prop) (P : Connection → List (Step × Mark) → Prop) :
    Prop where
  welcomed : ∀ {s : Step} {address : List Value} {label : Text} (faults : FaultPlan), allowed s →
    (∃ peer, s = .connect peer faults) → peerLabel address = .ok label →
    P { session := { peer := label, faults } } [(s, .seen (.log (.connected label)))]
  unlabelled : ∀ {s : Step} {address : List Value} {f : Fault} (faults : FaultPlan), allowed s →
    (∃ peer, s = .connect peer faults) → peerLabel address = .error f →
    P { session := { peer := [], faults }, task := .failed f } []
  stride : ∀ {s : Step} {c c' : Connection} {marks : List Mark} {h : List (Step × Mark)}, allowed s →
    c.Stride s marks c' → P c h → P c' (h ++ marks.map (s, ·))

namespace StrideInvariant

variable {allowed : Step → Prop} {P : Connection → List (Step × Mark) → Prop}

theorem strides (hP : StrideInvariant allowed P) {s : Step} (hs : allowed s) {c c' : Connection}
    {marks : List Mark} {h : List (Step × Mark)} (hc : c.Strides s marks c') (hp : P c h) :
    P c' (h ++ marks.map (s, ·)) := by
  induction hc generalizing h with
  | refl => rwa [List.map_nil, List.append_nil]
  | cons hstride _ ih =>
    rw [List.map_append, ← List.append_assoc]
    exact ih (hP.stride hs hstride hp)

/-- Every connection of a run has the property with its chronicle, and what is not accepted has none. -/
theorem tracks (hP : StrideInvariant allowed P) {steps : List Step} (hs : ∀ s ∈ steps, allowed s)
    (host : Option Text) (port : Option Int) (directive : Option Directive) (binding : Binding)
    (order : SetOrder) (n : Nat) :
    let l := Listener.new host port directive binding order
    ((l.after steps).connections[n]? = none ∧ l.chronicle n steps = [])
      ∨ ∃ c, (l.after steps).connections[n]? = some c ∧ P c (l.chronicle n steps) := by
  intro l
  induction steps using List.reverseRecOn with
  | nil => exact .inl ⟨rfl, rfl⟩
  | append_singleton steps s ih =>
    obtain ⟨hsteps, hlast⟩ := List.forall_mem_append.1 hs
    have hallowed := hlast s (.head _)
    have hdirective : (l.after steps).directive = directive := Listener.after_directive l steps
    have hone : (l.after steps).chronicle n [s]
        = (s.marks n ((l.after steps).step s).2).map (s, ·) := List.append_nil _
    rw [Listener.after_append, Listener.after_cons, Listener.after_nil, Listener.chronicle_append, hone]
    rcases ih hsteps with ⟨hn, hnil⟩ | ⟨c, hc, hp⟩
    · rw [hnil, List.nil_append]
      by_cases hcon : ∃ peer faults, s = .connect peer faults
      · obtain ⟨peer, faults, rfl⟩ := hcon
        rcases Listener.step_connect_unknown hn peer faults with ⟨hn', hm⟩ | ⟨address, hc, hm⟩
        · exact .inl ⟨hn', by rw [hm]; rfl⟩
        · refine .inr ⟨_, hc, ?_⟩
          rw [hm]
          rcases Connection.accept_strides (.connect peer faults) address faults
              (l.after steps).directive (l.after steps).gate with
            ⟨f, hlabel, hcon, hevents⟩ | ⟨label, marks, hlabel, hevents, hstrides⟩
          · rw [hcon, hevents]
            exact hP.unlabelled faults hallowed ⟨peer, rfl⟩ hlabel
          · rw [hevents]
            exact hP.strides hallowed hstrides (hP.welcomed faults hallowed ⟨peer, rfl⟩ hlabel)
      · have hnew := Listener.step_unknown hn fun peer faults he => hcon ⟨peer, faults, he⟩
        exact .inl ⟨hnew.1, by rw [hnew.2]; rfl⟩
    · have hbegun : c.Begun directive := ((Invariant.begun directive).holds (fun _ _ => trivial) hc).2
      have hsteady := (Listener.new_steady host port directive binding order).after steps
      obtain ⟨c', hc', hstrides⟩ := Listener.step_strides hsteady hc (by rwa [hdirective]) s
      exact .inr ⟨c', hc', hP.strides hallowed hstrides hp⟩

theorem holds (hP : StrideInvariant allowed P) {steps : List Step} (hs : ∀ s ∈ steps, allowed s)
    {host : Option Text} {port : Option Int} {directive : Option Directive} {binding : Binding}
    {order : SetOrder} {n : Nat} {c : Connection}
    (hc : ((Listener.new host port directive binding order).after steps).connections[n]? = some c) :
    P c ((Listener.new host port directive binding order).chronicle n steps) := by
  rcases hP.tracks hs host port directive binding order n with ⟨hn, -⟩ | ⟨c', hc', hp⟩
  · rw [hc] at hn
    cases hn
  · obtain rfl := Option.some.inj (hc.symm.trans hc')
    exact hp

end StrideInvariant
end ScriptedServer
