import ScriptedServer.Proofs.Steady

/-!
Bytes that come in make no difference once the directive is fixed, by one for all sessions or by the
first payload of a connection, but to the lines that show them. Two runs are compared step by step
(`Pair`): bytes of a connection may differ in both, or come in but in one of them, as soon as nobody
looks at them. Both runs go through the same listeners. For a single turn this is `receive_match`, and a
connection that is deaf to bytes stays so, because what it takes to be deaf is never taken back.
-/

namespace ScriptedServer

/-- Whether a line of the log shows bytes that came in. -/
def Event.isReceived : Event → Bool
  | .log (.received _) => true
  | _ => false

/-- A trace without the lines that show bytes. -/
def Trace.unreceived (t : Trace) : Trace := t.filter (!·.2.isReceived)

namespace Trace

@[simp] theorem unreceived_append (t u : Trace) :
    (t ++ u).unreceived = t.unreceived ++ u.unreceived :=
  List.filter_append ..

theorem unreceived_of (o : Origin) (events : List Event) :
    (of o events).unreceived = of o (events.filter (!·.isReceived)) := by
  simp only [of, unreceived, List.filter_map]
  rfl

end Trace

/-- Two turns that differ at most in the lines that show bytes. -/
structure Turn.Match (t t' : Turn) : Prop where
  connection : t.connection = t'.connection
  gate : t.gate = t'.gate
  events : t.events.filter (!·.isReceived) = t'.events.filter (!·.isReceived)

namespace Connection

variable {c : Connection} {g : Gate} {directive : Option Directive} {data data' : List UInt8}

/-! ### One turn -/

theorem filter_received (ps : List (List UInt8)) :
    (ps.map receivedLine).filter (!·.isReceived) = [] := by
  exact List.filter_eq_nil_iff.2 (List.forall_mem_map.2 fun piece _ => by
    simp [receivedLine, Event.isReceived])

theorem rest_match {t t' : Turn} (h : t.Match t') : (rest t).Match (rest t') := by
  refine ⟨?_, h.gate, ?_⟩
  · simp only [rest, h.connection]
  · simp only [rest, List.filter_append, h.connection, h.events]

theorem refuse_match (c : Connection) (g : Gate) (ps ps' : List (List UInt8)) :
    (c.refuse g (ps.map receivedLine)).Match (c.refuse g (ps'.map receivedLine)) := by
  rw [refuse, refuse]
  cases c.session.hangUp.error with
  | none => exact ⟨rfl, rfl, by simp only [List.filter_append, filter_received]⟩
  | some f => exact ⟨rfl, rfl, rfl⟩

theorem after_match {t t' : Turn} {events events' : List Event} (h : t.Match t')
    (he : events.filter (!·.isReceived) = events'.filter (!·.isReceived)) :
    (t.after events).Match (t'.after events') :=
  ⟨h.connection, h.gate, by simp only [Turn.after, List.filter_append, he, h.events]⟩

/-- Of the bytes that are read in one turn only the first piece matters. -/
theorem read_match (h : data.take readSize = data'.take readSize) (c : Connection) (g : Gate) :
    (c.read g data).Match (c.read g data') := by
  have hnil : ∀ {bs : List UInt8}, bs.take readSize = [] ↔ bs = [] := by
    intro bs
    rw [List.take_eq_nil_iff]
    simp [readSize]
  by_cases hdata : data = []
  · have hdata' : data' = [] := hnil.1 (h ▸ hnil.2 hdata)
    rw [hdata, hdata']
    exact ⟨rfl, rfl, rfl⟩
  · have hdata' : data' ≠ [] := fun he => hdata (hnil.1 (h ▸ hnil.2 he))
    obtain ⟨others, hp⟩ := pieces_of_ne_nil hdata
    obtain ⟨others', hp'⟩ := pieces_of_ne_nil hdata'
    rw [← h] at hp'
    cases hk : c.session.consumed with
    | true =>
      rw [read_consumed hp hk, read_consumed hp' hk]
      refine ⟨rfl, rfl, ?_⟩
      exact (filter_received (_ :: others)).trans (filter_received (_ :: others')).symm
    | false =>
      cases hd : Directive.ofBytes? (data.take readSize) with
      | none =>
        rw [read_refused hp hk hd, read_refused hp' hk hd]
        exact after_match (refuse_match _ g others others') rfl
      | some d =>
        rw [read_begun hp hk hd, read_begun hp' hk hd]
        refine after_match ⟨rfl, rfl, rfl⟩ ?_
        exact (filter_received (_ :: others)).trans (filter_received (_ :: others')).symm

/-- Of the bytes that come in only the first piece matters, and not even that once the connection is
deaf. -/
theorem receive_match (h : c.Deaf directive ∨ data.take readSize = data'.take readSize) (g : Gate)
    (eof : Bool) : (c.receive directive g data eof).Match (c.receive directive g data' eof) := by
  rcases h with hd | h
  · obtain ⟨ps, hps⟩ := receive_deaf hd g data eof
    obtain ⟨ps', hps'⟩ := receive_deaf hd g data' eof
    rw [hps, hps']
    exact rest_match ⟨rfl, rfl, (filter_received ps).trans (filter_received ps').symm⟩
  · have hr := read_match h c g
    rw [receive, receive]
    split
    · exact rest_match ⟨rfl, rfl, rfl⟩
    · exact rest_match ⟨by simp only [hr.connection], hr.gate, hr.events⟩

/-- Bytes that a connection is deaf to leave it as it is. -/
theorem receive_unheeded (hd : c.Deaf directive) (hc : c.AtRest) (g : Gate) (data : List UInt8) :
    ∃ ps : List (List UInt8), c.receive directive g data false =
      { connection := c, gate := g, events := ps.map receivedLine } := by
  obtain ⟨ps, hps⟩ := receive_deaf hd g data false
  refine ⟨ps, hps.trans ?_⟩
  have hsame : { c with inboundOpen := c.inboundOpen && !false } = c := by
    rw [Bool.not_false, Bool.and_true]
  rw [hsame, rest, hc.settle, List.append_nil]

/-- A connection that has become deaf stays so. -/
theorem Passes.deaf {c' : Connection} {marks : List Mark} (h : Passes c marks c')
    (hd : c.Deaf directive) : c'.Deaf directive :=
  hd.imp_right fun hd => hd.imp (mt h.running) h.consumed

/-- Once bytes came in, the connection is deaf to those that follow. -/
theorem receive_deafens (directive : Option Directive) (g : Gate) (hdata : data ≠ []) (eof : Bool) :
    (c.receive directive g data eof).connection.Deaf directive := by
  rw [receive]
  split
  · rename_i h
    exact (settle_passes _).deaf (h.imp_right .inl)
  · exact .inr (.inr ((settle_passes _).consumed (c.read_consumes g hdata)))

end Connection

/-! ### One step -/

/-- The result of a step without the lines that show bytes. -/
def unreceived (r : Listener × Outcome) : Listener × Outcome :=
  (r.1, { r.2 with trace := r.2.trace.unreceived })

namespace Listener

/-- Whether bytes for connection `n` make no difference. -/
def IsDeaf (l : Listener) (n : Nat) : Prop :=
  ∀ c, l.connections[n]? = some c → c.inboundOpen = true → c.Deaf l.directive

variable {l : Listener} {n : Nat} {data data' : List UInt8}

/-- A connection that stands as it stood is put in place without a change. -/
theorem Settled.put_self (h : l.Settled) {c : Connection} (hc : l.connections[n]? = some c)
    (events : List Event) : l.put n { connection := c, gate := l.gate, events } = l := by
  have hset : l.connections.set n c = l.connections := by
    obtain ⟨hlt, rfl⟩ := List.getElem?_eq_some_iff.1 hc
    exact List.set_getElem_self hlt
  have hsessions : (if c.task = .running then l.sessions else l.sessions.erase n) = l.sessions := by
    split
    · rfl
    · rename_i ht
      refine List.erase_of_not_mem fun hm => ht ?_
      obtain ⟨c', hc', ht'⟩ := (h.mem_sessions n).1 hm
      rwa [Option.some.inj (hc.symm.trans hc')]
  simp only [Listener.put, hset, hsessions]

/-- Bytes that differ where nobody looks at them lead to the same. -/
theorem step_receive_match (eof : Bool)
    (h : l.IsDeaf n ∨ data.take readSize = data'.take readSize) :
    unreceived (l.step (.receive n data eof)) = unreceived (l.step (.receive n data' eof)) := by
  have ht : ∀ bs : List UInt8, (Step.receive n bs eof).target = some n := fun _ => rfl
  cases hc : l.connections[n]? with
  | none =>
    rw [step, step, act_of_target (ht data), act_of_target (ht data'), onConnection, onConnection, hc]
    rfl
  | some c =>
    cases hi : c.inboundOpen with
    | false =>
      have hr : ∀ bs : List UInt8,
          (Step.receive n bs eof).reaction l.directive l.gate c = none := by
        intro bs
        simp only [Step.reaction, hi, Bool.false_eq_true, if_false]
      rw [step, step, act_of_target (ht data), act_of_target (ht data'),
        onConnection_of_none (by rw [hc, Option.bind_some, hr]),
        onConnection_of_none (by rw [hc, Option.bind_some, hr])]
    | true =>
      have hr : ∀ bs : List UInt8, (Step.receive n bs eof).reaction l.directive l.gate c
          = some (c.receive l.directive l.gate bs eof) := by
        intro bs
        simp only [Step.reaction, hi, if_true]
      have hm := Connection.receive_match (h.imp_left fun hd => hd c hc hi) l.gate eof
      rw [step_of_reaction (ht data) hc (hr data), step_of_reaction (ht data') hc (hr data')]
      simp only [unreceived, Trace.unreceived_of, hm.events, put, hm.connection, hm.gate]

/-- Bytes for a connection that is deaf to them change nothing. -/
theorem step_receive_unheeded (hl : l.Steady) (h : l.IsDeaf n) (data : List UInt8) :
    (l.step (.receive n data false)).1 = l
      ∧ (l.step (.receive n data false)).2.trace.unreceived = [] := by
  have ht : (Step.receive n data false).target = some n := rfl
  cases hb : l.connections[n]?.bind ((Step.receive n data false).reaction l.directive l.gate) with
  | none =>
    rw [step, act_of_target ht, onConnection_of_none hb]
    exact ⟨hl.noticed, rfl⟩
  | some t =>
    obtain ⟨c, hc, hr⟩ := Option.bind_eq_some_iff.1 hb
    obtain ⟨hi, ⟨⟩⟩ := Option.ite_none_right_eq_some.1 hr
    obtain ⟨ps, hps⟩ := Connection.receive_unheeded (h c hc hi) (hl.atRest c (List.mem_of_getElem? hc))
      l.gate data
    rw [step_of_reaction ht hc hr, hps, hl.put_self hc, Trace.unreceived_of,
      Connection.filter_received]
    exact ⟨hl.noticed, rfl⟩

/-- A connection that is deaf to bytes stays so. -/
theorem step_isDeaf (hl : l.Steady) (hn : n < l.connections.length) (h : l.IsDeaf n) (s : Step) :
    n < (l.step s).1.connections.length ∧ (l.step s).1.IsDeaf n := by
  have hc : l.connections[n]? = some l.connections[n] := List.getElem?_eq_getElem hn
  obtain ⟨c', hc', hm⟩ := step_moves s hc
  have hp := (hm.passes (hl.atRest _ (List.getElem_mem hn))).1
  obtain ⟨hlt, -⟩ := List.getElem?_eq_some_iff.1 hc'
  refine ⟨hlt, fun b hb hi => ?_⟩
  obtain rfl := Option.some.inj (hc'.symm.trans hb)
  rw [l.step_directive s]
  exact hp.deaf (h _ hc (hp.inboundOpen hi))

/-- A connection that bytes came in on is deaf from then on. -/
theorem step_receive_deafens (hdata : data ≠ []) (eof : Bool) :
    (l.step (.receive n data eof)).1.IsDeaf n := by
  intro c' hc' hi'
  have ht : (Step.receive n data eof).target = some n := rfl
  rw [l.step_directive]
  cases hb : l.connections[n]?.bind ((Step.receive n data eof).reaction l.directive l.gate) with
  | none =>
    rw [step, act_of_target ht, onConnection_of_none hb] at hc'
    replace hc' : l.connections[n]? = some c' := hc'
    rw [hc', Option.bind_some, Step.reaction, if_pos hi'] at hb
    cases hb
  | some t =>
    obtain ⟨c, hc, hr⟩ := Option.bind_eq_some_iff.1 hb
    obtain ⟨hlt, -⟩ := List.getElem?_eq_some_iff.1 hc
    obtain ⟨hi, ⟨⟩⟩ := Option.ite_none_right_eq_some.1 hr
    rw [step_of_reaction ht hc hr] at hc'
    obtain rfl := Option.some.inj ((get_put_self hlt _).symm.trans hc')
    exact Connection.receive_deafens l.directive l.gate hdata eof

end Listener

/-! ### A directive for all sessions -/

namespace Connection

/-- A change of a connection that shows no bytes and leaves the directive of the session alone. -/
structure Unread (c : Connection) (r : Connection × List Event) : Prop where
  consumed : r.1.session.consumed = c.session.consumed
  events : ∀ e ∈ r.2, e.isReceived = false

variable {c : Connection} {g : Gate} {directive : Option Directive}

theorem Unread.refl (c : Connection) : Unread c (c, []) := ⟨rfl, by simp⟩

theorem Unread.trans {r r' : Connection × List Event} (h : Unread c r) (h' : Unread r.1 r') :
    Unread c (r'.1, r.2 ++ r'.2) := by
  refine ⟨h'.consumed.trans h.consumed, fun e he => ?_⟩
  rcases List.mem_append.1 he with he | he
  · exact h.events e he
  · exact h'.events e he

theorem finish_unread (c : Connection) : Unread c c.finish := by
  have hev : ∀ e ∈ c.session.release.events, e.isReceived = false := by
    rw [Session.release]
    cases c.session.closing with
    | true => simp [Event.isReceived]
    | false =>
      rw [Session.hangUp]
      cases c.session.faults.close <;> simp [Event.isReceived]
  obtain ⟨torn, hs⟩ := c.session.release_session
  rw [finish]
  cases c.session.release.error with
  | some f => exact ⟨by simp only [hs], hev⟩
  | none =>
    refine ⟨by simp only [hs], fun e he => ?_⟩
    rcases List.mem_append.1 he with he | he
    · exact hev e he
    · rw [List.mem_singleton.1 he]
      rfl

theorem leave_unread (c : Connection) : Unread c c.leave := by
  rw [leave]
  split
  · exact c.finish_unread
  · exact .refl c

theorem breakOff_unread (c : Connection) (f : Fault) : Unread c (c.breakOff f) := by
  rw [breakOff]
  split
  · exact .refl c
  · split
    · obtain ⟨hk, he⟩ := c.leave_unread
      exact ⟨hk, List.forall_mem_cons.2 ⟨rfl, he⟩⟩
    · exact ⟨rfl, by simp⟩

theorem settle_unread (c : Connection) : Unread c c.settle := by
  rw [settle]
  split
  · exact ⟨rfl, by simp⟩
  · obtain ⟨hk, he⟩ := leave_unread { c with inboundOpen := c.inboundOpen && !c.session.closing }
    exact ⟨hk, he⟩

theorem rest_unread {t : Turn} (h : Unread c (t.connection, t.events)) :
    Unread c ((rest t).connection, (rest t).events) := h.trans t.connection.settle_unread

theorem not_received_of_ofDirective {events : List Event} (h : ∀ e ∈ events, e.ofDirective = true) :
    ∀ e ∈ events, e.isReceived = false := by
  intro e he
  have hd := h e he
  cases e with
  | log line =>
    cases line with
    | received text => cases hd
    | _ => rfl
  | _ => rfl

/-- With a directive for all sessions a turn shows no bytes and takes no directive. -/
theorem reaction_unread {s : Step} {t : Turn} (hd : directive.isSome = true)
    (hr : s.reaction directive g c = some t) : Unread c (t.connection, t.events) := by
  cases s with
  | receive n data eof =>
    obtain ⟨-, ⟨⟩⟩ := Option.ite_none_right_eq_some.1 hr
    rw [receive, if_pos (.inl hd)]
    exact rest_unread ⟨rfl, by simp⟩
  | endInbound n =>
    obtain ⟨-, ⟨⟩⟩ := Option.ite_none_right_eq_some.1 hr
    exact rest_unread ⟨rfl, by simp⟩
  | reset n f =>
    obtain ⟨-, ⟨⟩⟩ := Option.ite_none_right_eq_some.1 hr
    obtain ⟨hk, he⟩ := breakOff_unread { c with session := c.session.lose, inboundOpen := false } f
    exact rest_unread ⟨hk, he⟩
  | wake n =>
    rw [Step.reaction] at hr
    split at hr
    · rename_i left hj
      cases hr
      obtain ⟨ended, torn, hs⟩ := Directive.advance_session left ⟨c.session, some g⟩
      refine rest_unread ⟨by rw [work, hs], ?_⟩
      exact not_received_of_ofDirective (Directive.advance_ofDirective left ⟨c.session, some g⟩)
    · cases hr
  | setFault n point f =>
    cases hr
    exact ⟨rfl, by simp⟩
  | start | shutdown | serve | close | connect | setCloseFault => cases hr

theorem drop_unread (c : Connection) (g : Gate) :
    Unread c ((c.drop g).connection, (c.drop g).events) := by
  refine rest_unread ?_
  rw [Session.abort]
  cases c.session.faults.abort <;> exact ⟨rfl, by simp [Event.isReceived]⟩

theorem accept_unread (peer : List Value) (faults : FaultPlan) (directive : Option Directive)
    (g : Gate) : Unread { session := { peer := [], faults } }
      ((accept peer faults directive g).connection, (accept peer faults directive g).events) := by
  rw [accept]
  cases peerLabel peer with
  | error f => exact ⟨rfl, by simp⟩
  | ok label =>
    simp only [welcome]
    cases directive with
    | none => exact rest_unread ⟨rfl, by simp [Turn.after, Event.isReceived]⟩
    | some d =>
      obtain ⟨ended, torn, hs⟩ := Directive.begin_session d ⟨{ peer := label, faults }, some g⟩
      have hev := not_received_of_ofDirective
        (Directive.begin_ofDirective d ⟨{ peer := label, faults }, some g⟩)
      exact rest_unread ⟨by simp only [Turn.after, work, hs], List.forall_mem_cons.2 ⟨rfl, hev⟩⟩

end Connection

/-- So no session takes a directive in any run. -/
theorem Invariant.untaken {directive : Option Directive} (hd : directive.isSome = true) :
    Invariant directive (fun _ => True) fun c _ => c.session.consumed = false where
  accept peer g _ := (Connection.accept_unread peer _ directive g).consumed
  turn _ hr hc := (Connection.reaction_unread hd hr).consumed.trans hc
  drop g _ hc := (Connection.drop_unread _ g).consumed.trans hc

namespace Listener

variable {l : Listener}

theorem forall_mem_of {o : Origin} {events : List Event} (h : ∀ e ∈ events, e.isReceived = false) :
    ∀ x ∈ Trace.of o events, x.2.isReceived = false := List.forall_mem_map.2 h

theorem dropSessions_unread (xs : List Nat) (l : Listener) :
    ∀ x ∈ (dropSessions xs l).2.1, x.2.isReceived = false := by
  induction xs generalizing l with
  | nil => simp [dropSessions]
  | cons n rest ih =>
    cases hc : l.connections[n]? with
    | none =>
      rw [dropSessions_of_none hc]
      exact ih l
    | some c =>
      cases ha : c.session.faults.abort with
      | some f => simp [dropSessions_of_fault hc ha]
      | none =>
        rw [dropSessions_of_some hc ha]
        exact List.forall_mem_append.2 ⟨forall_mem_of (c.drop_unread l.gate).events, ih _⟩

theorem start_unread (l : Listener) : ∀ e ∈ l.start.events, e.isReceived = false := by
  rw [start]
  cases l.binding.bind l.port <;> simp [Event.isReceived]

theorem shut_unread (l : Listener) : ∀ e ∈ l.shut.events, e.isReceived = false := by
  rcases l.gate.shut_events with he | he <;> simp [shut, he, Event.isReceived]

/-- With a directive for all sessions no step shows bytes. -/
theorem step_unread (hd : l.directive.isSome = true) (s : Step) :
    ∀ x ∈ (l.step s).2.trace, x.2.isReceived = false := by
  cases ht : s.target with
  | some m =>
    rw [step, act_of_target ht]
    cases hb : l.connections[m]?.bind (s.reaction l.directive l.gate) with
    | none => simp [onConnection_of_none hb]
    | some t =>
      obtain ⟨c, hc, hr⟩ := Option.bind_eq_some_iff.1 hb
      rw [onConnection_of_some hc hr]
      exact forall_mem_of (Connection.reaction_unread hd hr).events
  | none =>
    rw [step]
    cases s with
    | start => exact forall_mem_of l.start_unread
    | shutdown => exact forall_mem_of l.shut_unread
    | serve =>
      simp only [act, serve]
      split
      · simp
      · exact forall_mem_of l.start_unread
    | close =>
      have hshut := forall_mem_of (o := .listener) l.shut_unread
      simp only [act, close]
      cases l.shut.error with
      | some f => exact hshut
      | none => exact List.forall_mem_append.2 ⟨hshut, dropSessions_unread l.openSessions l.shut.state⟩
    | connect peer faults =>
      simp only [act]
      cases hl : l.isListening with
      | false => simp [connect_of_not_listening hl]
      | true =>
        rw [connect_of_listening hl]
        exact forall_mem_of (Connection.accept_unread _ faults l.directive l.gate).events
    | setCloseFault f => simp [act]
    | receive | endInbound | reset | wake | setFault => cases ht

/-- So no run does. -/
theorem transcript_unread (hd : l.directive.isSome = true) (steps : List Step) :
    ∀ x ∈ l.transcript steps, x.2.isReceived = false := by
  induction steps generalizing l with
  | nil => simp
  | cons s rest ih =>
    rw [transcript_cons]
    exact List.forall_mem_append.2 ⟨step_unread hd s, ih (by rwa [l.step_directive s])⟩

end Listener

/-! ### Runs -/

/-- A step of two runs that are compared: the same in both, bytes that may differ, or bytes without
an end of file that come in but in one of the runs. -/
inductive Pair where
  | same (s : Step)
  | bytes (n : Nat) (data data' : List UInt8) (eof : Bool)
  | onlyFirst (n : Nat) (data : List UInt8)
  | onlySecond (n : Nat) (data : List UInt8)

namespace Pair

/-- The step of the first run. -/
def first? : Pair → Option Step
  | same s => some s
  | bytes n data _ eof => some (.receive n data eof)
  | onlyFirst n data => some (.receive n data false)
  | onlySecond _ _ => none

/-- The step of the second run. -/
def second? : Pair → Option Step
  | same s => some s
  | bytes n _ data' eof => some (.receive n data' eof)
  | onlyFirst _ _ => none
  | onlySecond n data => some (.receive n data false)

/-- Whether the runs may differ in a step. With a directive for all sessions any bytes may differ, and
without one those for a connection that was heard before, or behind the first piece. -/
def isAllowed (directive : Option Directive) (heard : List Nat) : Pair → Bool
  | same _ => true
  | bytes n data data' _ =>
    directive.isSome ∨ n ∈ heard ∨ data.take readSize = data'.take readSize
  | onlyFirst n _ | onlySecond n _ => directive.isSome ∨ n ∈ heard

end Pair

namespace Listener

/-- The connections that were heard, behind one more step: one is heard when bytes come in on it. -/
def hear (l : Listener) (heard : List Nat) : Step → List Nat
  | .receive n data _ => if data ≠ [] ∧ n < l.connections.length then n :: heard else heard
  | _ => heard

/-- Whether two runs differ only where they may. -/
def admits : Listener → List Nat → List Pair → Bool
  | _, _, [] => true
  | l, heard, p :: rest =>
    p.isAllowed l.directive heard &&
      match p.first? with
      | some s => admits (l.step s).1 (l.hear heard s) rest
      | none => admits l heard rest

/-- The results, in the one of two runs, of the steps that the other has as well. -/
def common (own other : Pair → Option Step) : Listener → List Pair → List (Listener × Outcome)
  | _, [] => []
  | l, p :: rest =>
    match own p with
    | none => common own other l rest
    | some s =>
      if (other p).isSome then l.step s :: common own other (l.step s).1 rest
      else common own other (l.step s).1 rest

/-- The connections that were heard are there, and deaf. -/
def Heard (l : Listener) (heard : List Nat) : Prop :=
  ∀ n ∈ heard, n < l.connections.length ∧ l.IsDeaf n

variable {l : Listener} {heard : List Nat}

theorem step_heard (hl : l.Steady) (h : l.Heard heard) (s : Step) :
    (l.step s).1.Heard (l.hear heard s) := by
  have hold : (l.step s).1.Heard heard := fun n hn => step_isDeaf hl (h n hn).1 (h n hn).2 s
  cases s with
  | receive n data eof =>
    simp only [hear]
    split
    · rename_i hnew
      intro m hm
      rcases List.mem_cons.1 hm with rfl | hm
      · obtain ⟨c', hc', -⟩ := step_moves (.receive m data eof) (List.getElem?_eq_getElem hnew.2)
        exact ⟨(List.getElem?_eq_some_iff.1 hc').1, step_receive_deafens hnew.1 eof⟩
      · exact hold m hm
    · exact hold
  | _ => exact hold

theorem Heard.isDeaf (h : l.Heard heard) {n : Nat}
    (ha : l.directive.isSome = true ∨ n ∈ heard) : l.IsDeaf n := by
  rcases ha with hd | hn
  · exact fun _ _ _ => .inl hd
  · exact (h n hn).2

/-- Two runs that differ only where they may go through the same listeners, and show the same but for
the lines that show bytes. -/
theorem runs_match (ps : List Pair) (hl : l.Steady) (hh : l.Heard heard)
    (h : l.admits heard ps = true) :
    (l.common Pair.first? Pair.second? ps).map unreceived
        = (l.common Pair.second? Pair.first? ps).map unreceived
      ∧ (l.transcript (ps.filterMap Pair.first?)).unreceived
          = (l.transcript (ps.filterMap Pair.second?)).unreceived
      ∧ l.after (ps.filterMap Pair.first?) = l.after (ps.filterMap Pair.second?) := by
  induction ps generalizing l heard with
  | nil => exact ⟨rfl, rfl, rfl⟩
  | cons p rest ih =>
    rw [admits, Bool.and_eq_true] at h
    obtain ⟨hallowed, hrest⟩ := h
    cases p with
    | same s =>
      obtain ⟨hc, ht, ha⟩ := ih (hl.step s) (step_heard hl hh s) hrest
      refine ⟨?_, ?_, ha⟩
      · simpa [common, Pair.first?, Pair.second?] using hc
      · simpa [Pair.first?, Pair.second?] using ht
    | bytes n data data' eof =>
      have hdeaf : l.IsDeaf n ∨ data.take readSize = data'.take readSize := by
        rcases of_decide_eq_true hallowed with hd | hn | htake
        · exact .inl (hh.isDeaf (.inl hd))
        · exact .inl (hh.isDeaf (.inr hn))
        · exact .inr htake
      have hm := step_receive_match eof hdeaf
      have hstate : (l.step (.receive n data eof)).1 = (l.step (.receive n data' eof)).1 :=
        congrArg (·.1) hm
      have htrace : (l.step (.receive n data eof)).2.trace.unreceived
          = (l.step (.receive n data' eof)).2.trace.unreceived := congrArg (·.2.trace) hm
      obtain ⟨hc, ht, ha⟩ := ih (hl.step _) (step_heard hl hh _) hrest
      refine ⟨?_, ?_, ?_⟩
      · simpa [common, Pair.first?, Pair.second?, hm, ← hstate] using hc
      · simpa [Pair.first?, Pair.second?, htrace, ← hstate] using ht
      · simpa [Pair.first?, Pair.second?, ← hstate] using ha
    | onlyFirst n data =>
      have hdeaf : l.IsDeaf n := hh.isDeaf (of_decide_eq_true hallowed)
      obtain ⟨hsame, hquiet⟩ := step_receive_unheeded hl hdeaf data
      obtain ⟨hc, ht, ha⟩ := ih (hl.step _) (step_heard hl hh _) hrest
      rw [hsame] at hc ht ha
      refine ⟨?_, ?_, ?_⟩
      · simpa [common, Pair.first?, Pair.second?, hsame] using hc
      · simpa [List.filterMap_cons, Pair.first?, Pair.second?, hsame, hquiet] using ht
      · simpa [List.filterMap_cons, Pair.first?, Pair.second?, hsame] using ha
    | onlySecond n data =>
      have hdeaf : l.IsDeaf n := hh.isDeaf (of_decide_eq_true hallowed)
      obtain ⟨hsame, hquiet⟩ := step_receive_unheeded hl hdeaf data
      obtain ⟨hc, ht, ha⟩ := ih hl hh hrest
      refine ⟨?_, ?_, ?_⟩
      · simpa [common, Pair.first?, Pair.second?, hsame] using hc
      · simpa [List.filterMap_cons, Pair.first?, Pair.second?, hsame, hquiet] using ht
      · simpa [List.filterMap_cons, Pair.first?, Pair.second?, hsame] using ha

/-- Two runs of a listener whose steps are the same but for bytes, which differ only behind the first
piece that a connection receives or under a directive for all sessions, show the same at each common
step but for the lines that show bytes, and stand the same; and so they do as a whole. With a directive
for all sessions no run shows bytes, and no session of it takes a directive. -/
theorem bytes_unheeded (host : Option Text) (port : Option Int) (directive : Option Directive)
    (binding : Binding) (order : SetOrder) :
    let l := new host port directive binding order
    (∀ ps : List Pair, l.admits [] ps = true →
        (l.common Pair.first? Pair.second? ps).map unreceived
            = (l.common Pair.second? Pair.first? ps).map unreceived
          ∧ (l.transcript (ps.filterMap Pair.first?)).unreceived
              = (l.transcript (ps.filterMap Pair.second?)).unreceived
          ∧ l.after (ps.filterMap Pair.first?) = l.after (ps.filterMap Pair.second?))
      ∧ (directive.isSome = true → ∀ steps : List Step,
          (∀ x ∈ l.transcript steps, x.2.isReceived = false)
            ∧ ∀ c ∈ (l.after steps).connections, c.session.consumed = false) := by
  intro l
  refine ⟨fun ps h => ?_, fun hd steps => ⟨?_, fun c hc => ?_⟩⟩
  · exact runs_match ps (new_steady host port directive binding order) (by intro n hn; cases hn) h
  · exact transcript_unread hd steps
  · obtain ⟨n, hn⟩ := List.mem_iff_getElem?.1 hc
    exact (Invariant.untaken hd).holds (fun _ _ => trivial) hn

/-- Two runs on one connection that differ in what comes in behind its directive, while that sleeps
and when it is done. -/
def chattyRuns : List Pair :=
  [.same .start, .same (.connect none {}),
    .same (.receive 0 (Utf8.encode "ACT[WAIT=5,SEND=b]".toList) false), .onlySecond 0 [65],
    .bytes 0 [] [66, 67] false, .same (.wake 0), .onlyFirst 0 (Utf8.encode "ACT[SHUT]".toList),
    .bytes 0 [68] [] true]

theorem bytes_unheeded_chatty :
    let l := new none (some 0) none .asked .ofAcceptance
    let l' := new none (some 0) (some [⟨"SEND".toList, some "a".toList⟩]) .asked .ofAcceptance
    l.admits [] chattyRuns = true
      ∧ l.transcript (chattyRuns.filterMap Pair.first?)
          ≠ l.transcript (chattyRuns.filterMap Pair.second?)
      ∧ (l.transcript (chattyRuns.filterMap Pair.first?)).unreceived
          = (l.transcript (chattyRuns.filterMap Pair.second?)).unreceived
      ∧ ∀ c ∈ (l'.after (chattyRuns.filterMap Pair.first?)).connections,
          c.session.consumed = false := by
  intro l l'
  have h : l.admits [] chattyRuns = true := by decide
  obtain ⟨hruns, -⟩ := bytes_unheeded none (some 0) none .asked .ofAcceptance
  obtain ⟨-, hglobal⟩ :=
    bytes_unheeded none (some 0) (some [⟨"SEND".toList, some "a".toList⟩]) .asked .ofAcceptance
  exact ⟨h, by decide, (hruns chattyRuns h).2.1, (hglobal rfl _).2⟩

end Listener
end ScriptedServer
