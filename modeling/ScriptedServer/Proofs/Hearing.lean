import ScriptedServer.Proofs.Closing
import ScriptedServer.Proofs.Framing
import ScriptedServer.Proofs.Inbound

/-!
What bytes do that come in where there is no directive for all sessions. They are cut into pieces of
which none is lost (`IsCut`), and each piece is logged. A connection with an open inbound side reads on,
and its directive was taken exactly if bytes came in before (`Connection.Attentive`, kept by every step
that sets no fault for hanging up). So bytes are only logged if they are not the first; and of the first
bytes only the first piece is looked at, which decides how the turn goes on (`Listener.Hears`).
-/

namespace ScriptedServer

/-! ### Pieces -/

/-- Whether a list is cut into pieces of a size: nothing is lost, all pieces but the last are full, and none
is empty or longer. -/
structure IsCut {α : Type} (size : Nat) (xs : List α) (ps : List (List α)) : Prop where
  whole : ps.flatten = xs
  full : ∀ p ∈ ps.dropLast, p.length = size
  nonempty : ∀ p ∈ ps, p ≠ []
  bounded : ∀ p ∈ ps, p.length ≤ size

section Cut

variable {α : Type} {size : Nat} {xs : List α}

theorem IsCut.nil : IsCut size ([] : List α) [] := ⟨rfl, nofun, nofun, nofun⟩

/-- Of what is longer than a piece, a full piece can be cut off. -/
theorem IsCut.cons {ps : List (List α)} (hs : 0 < size) (hx : xs ≠ [])
    (h : IsCut size (xs.drop size) ps) : IsCut size xs (xs.take size :: ps) where
  whole := by rw [List.flatten_cons, h.whole, List.take_append_drop]
  full p hp := by
    cases ps with
    | nil => cases hp
    | cons q qs =>
      rw [List.dropLast_cons_cons] at hp
      rcases List.mem_cons.1 hp with rfl | hp
      · -- something is left behind the piece, so it is full
        have hleft : xs.drop size ≠ [] := by
          rw [← h.whole, List.flatten_cons]
          exact List.append_ne_nil_of_left_ne_nil (h.nonempty q (.head _)) _
        rw [List.length_take]
        have hlong := List.drop_eq_nil_iff.not.1 hleft
        omega
      · exact h.full p hp
  nonempty := by
    refine List.forall_mem_cons.2 ⟨fun hp => ?_, h.nonempty⟩
    rcases List.take_eq_nil_iff.1 hp with rfl | rfl
    · exact Nat.lt_irrefl 0 hs
    · exact hx rfl
  bounded := List.forall_mem_cons.2 ⟨List.length_take_le .., h.bounded⟩

theorem cut_isCut (hs : 0 < size) {fuel : Nat} (hf : xs.length ≤ fuel) :
    IsCut size xs (cut size fuel xs) := by
  induction fuel generalizing xs with
  | zero =>
    rw [List.eq_nil_of_length_eq_zero (Nat.le_zero.1 hf)]
    exact .nil
  | succ fuel ih =>
    cases xs with
    | nil => exact .nil
    | cons x xs =>
      refine IsCut.cons hs (List.cons_ne_nil x xs) (ih ?_)
      rw [List.length_drop]
      omega

theorem pieces_isCut (data : List UInt8) : IsCut readSize data (pieces data) :=
  cut_isCut (by decide) (Nat.le_refl _)

end Cut

/-! ### One connection -/

/-- The bytes that a step brings to connection `n`. -/
def Step.bytesFor (n : Nat) : Step → List UInt8
  | .receive m data _ => if m = n then data else []
  | _ => []

theorem Step.bytesFor_of_ne {n : Nat} {s : Step} (h : ∀ data eof, s ≠ .receive n data eof) :
    s.bytesFor n = [] := by
  cases s with
  | receive m data eof => exact if_neg fun hm => h data eof (by rw [hm])
  | _ => rfl

namespace Connection

/-- A connection that was brought certain bytes so far, and on which hanging up does not fail. As long as
its inbound side is open it reads on, and its directive was taken exactly if some bytes came in. -/
structure Attentive (heard : List UInt8) (c : Connection) : Prop where
  unhindered : c.session.faults.close = none
  running : c.inboundOpen = true → c.task = .running
  taken : c.inboundOpen = true → (c.session.consumed = true ↔ heard ≠ [])

variable {c : Connection} {g : Gate} {heard data : List UInt8}

/-- What nothing can come in on any more is as attentive as it may be. -/
theorem attentive_of_ended (hf : c.session.faults.close = none) (hi : c.inboundOpen = false)
    (heard : List UInt8) : c.Attentive heard :=
  ⟨hf, fun h => Bool.noConfusion (hi.symm.trans h), fun h => Bool.noConfusion (hi.symm.trans h)⟩

/-- Coming to rest does not touch a connection whose inbound side stays open. -/
theorem settle_open (h : c.settle.1.inboundOpen = true) : c.settle = (c, []) := by
  rw [settle_inboundOpen] at h
  have hopen := (Bool.and_eq_true_iff.1 h).1
  rw [settle, h, if_pos rfl, ← hopen]

theorem Attentive.rest {t : Turn} (h : t.connection.Attentive heard) :
    (rest t).connection.Attentive heard := by
  have hrest : (Connection.rest t).connection = t.connection.settle.1 := rfl
  rw [hrest]
  cases hi : t.connection.settle.1.inboundOpen with
  | false =>
    refine attentive_of_ended ?_ hi heard
    rw [(settle_closes _).faults]
    exact h.unhindered
  | true =>
    rw [settle_open hi]
    exact h

/-- Who reads has taken the directive, if there was anything to read. -/
theorem Attentive.read (h : c.Attentive heard) (g : Gate) (data : List UInt8) :
    (c.read g data).connection.Attentive (heard ++ data) := by
  refine ⟨?_, fun hi => ?_, fun hi => ?_⟩
  · rw [(c.read_keeps g data).faults]
    exact h.unhindered
  · rw [read_inboundOpen] at hi
    exact (read_task h.unhindered g data).trans (h.running hi)
  · rw [read_inboundOpen] at hi
    cases data with
    | nil =>
      rw [read_nothing rfl, List.append_nil]
      exact h.taken hi
    | cons b rest =>
      refine iff_of_true (c.read_consumes g (List.cons_ne_nil b rest)) ?_
      exact List.append_ne_nil_of_right_ne_nil heard (List.cons_ne_nil b rest)

theorem receive_reads (ht : c.task = .running) (g : Gate) (data : List UInt8) (eof : Bool) :
    c.receive none g data eof
      = rest (read { c with inboundOpen := c.inboundOpen && !eof } g data) := by
  rw [receive_eq, if_neg]
  simp [ht]

/-- A turn leaves a connection attentive, unless it sets a fault for hanging up. -/
theorem Attentive.turn {s : Step} {n : Nat} {t : Turn} (h : c.Attentive heard) (ht : s.target = some n)
    (hs : ∀ f, s ≠ .setFault n .close (some f)) (hr : s.reaction none g c = some t) :
    t.connection.Attentive (heard ++ s.bytesFor n) := by
  cases s with
  | receive m data eof =>
    obtain rfl : m = n := Option.some.inj ht
    obtain ⟨hopen, ⟨⟩⟩ := Option.ite_none_right_eq_some.1 hr
    have hin : Attentive heard { c with inboundOpen := c.inboundOpen && !eof } :=
      ⟨h.unhindered, fun _ => h.running hopen, fun _ => h.taken hopen⟩
    rw [Step.bytesFor, if_pos rfl, receive_reads (h.running hopen)]
    exact (hin.read g data).rest
  | endInbound m =>
    obtain ⟨-, ⟨⟩⟩ := Option.ite_none_right_eq_some.1 hr
    refine Attentive.rest (attentive_of_ended ?_ rfl _)
    exact h.unhindered
  | reset m f =>
    obtain ⟨-, ⟨⟩⟩ := Option.ite_none_right_eq_some.1 hr
    refine Attentive.rest (attentive_of_ended ?_ (breakOff_inboundOpen _ f) _)
    rw [(breakOff_closes _ f).faults]
    exact h.unhindered
  | wake m =>
    rw [Step.bytesFor_of_ne (fun _ _ he => by cases he), List.append_nil]
    rw [Step.reaction] at hr
    split at hr
    · rename_i left hj
      cases hr
      obtain ⟨ended, torn, hsession⟩ := Directive.advance_session left ⟨c.session, some g⟩
      refine Attentive.rest ⟨?_, h.running, ?_⟩
      · rw [work, hsession]
        exact h.unhindered
      · rw [work, hsession]
        exact h.taken
    · cases hr
  | setFault m point f =>
    obtain rfl : m = n := Option.some.inj ht
    cases hr
    rw [Step.bytesFor_of_ne (fun _ _ he => by cases he), List.append_nil]
    refine ⟨?_, h.running, h.taken⟩
    cases point with
    | close =>
      cases f with
      | none => rfl
      | some f => exact absurd rfl (hs f)
    | write | drain | writeEof | abort | waitClosed => exact h.unhindered
  | start | shutdown | serve | close | connect | setCloseFault => cases hr

theorem Attentive.drop (h : c.Attentive heard) (g : Gate) : (c.drop g).connection.Attentive heard := by
  refine Attentive.rest ?_
  rw [Session.abort]
  cases c.session.faults.abort <;> exact ⟨h.unhindered, h.running, h.taken⟩

/-- A connection is accepted attentively, unless its peer cannot be labelled. -/
theorem accept_attentive {peer : List Value} {label : Text} (hp : peerLabel peer = .ok label)
    {faults : FaultPlan} (hf : faults.close = none) (g : Gate) :
    (accept peer faults none g).connection.Attentive [] := by
  rw [accept, hp]
  exact Attentive.rest ⟨hf, fun _ => rfl, fun _ => iff_of_false Bool.false_ne_true fun hne => hne rfl⟩

/-! ### What bytes do -/

section Receive

variable {first : List UInt8} {others : List (List UInt8)}

/-- Bytes without an end of file are read, and then the connection is brought to rest. -/
theorem receive_on (ht : c.task = .running) (g : Gate) (data : List UInt8) :
    c.receive none g data false = rest (c.read g data) := by
  rw [receive_reads ht, Bool.not_false, Bool.and_true]

/-- Behind the first payload bytes are logged, and the connection stays as it is. -/
theorem receive_later (hc : c.AtRest) (ht : c.task = .running) (hp : pieces data = first :: others)
    (hk : c.session.consumed = true) (g : Gate) : c.receive none g data false =
      { connection := c, gate := g, events := (first :: others).map receivedLine } := by
  rw [receive_on ht, read_consumed hp hk, rest, hc.settle, List.append_nil, List.map_cons]

/-- A connection that is hung up comes to its end if there is no directive. -/
theorem settle_hungUp (hc : c.session.closing = true) (ht : c.task = .running) (hj : c.job = .none) :
    c.settle = ({ c with inboundOpen := false, task := .done },
      [.waitClosed, .log (.closed c.session.peer)]) := by
  have hover : outcome { c with inboundOpen := false } = .done := by
    rw [outcome, hj]
    rfl
  rw [settle_of_closing hc, leave, if_pos ⟨ht, by rw [hj]; rfl⟩,
    finish_of_closing (c := { c with inboundOpen := false }) hc, hover]

/-- At a first payload without a directive the connection is hung up behind the first piece, and it is
released and closed behind the others. -/
theorem receive_refused (hf : c.session.faults.close = none) (ht : c.task = .running) (hj : c.job = .none)
    (hp : pieces data = first :: others) (hk : c.session.consumed = false)
    (hd : Directive.ofBytes? first = none) (g : Gate) :
    (c.receive none g data false).events =
        [receivedLine first, .log .requestIncorrect, .close]
          ++ others.map receivedLine ++ [.waitClosed, .log (.closed c.session.peer)]
      ∧ (c.receive none g data false).connection.task = .done := by
  have hread : c.read g data =
      { connection := { c with session.consumed := true, session.closing := true }, gate := g
        events := [receivedLine first, .log .requestIncorrect, .close] ++ others.map receivedLine } := by
    simp only [read_refused hp hk hd, refuse, Session.hangUp, hf, Turn.after, List.cons_append,
      List.nil_append]
  have hsettle := settle_hungUp
    (c := { c with session.consumed := true, session.closing := true }) rfl ht hj
  rw [receive_on ht, hread, rest, hsettle]
  exact ⟨rfl, rfl⟩

/-- At a first payload with a directive all pieces are logged before that begins; behind it only the end of
the connection can be seen, if the directive has torn it down. -/
theorem receive_begun (hi : c.inboundOpen = true) (ht : c.task = .running)
    (hp : pieces data = first :: others) (hk : c.session.consumed = false) {d : Directive}
    (hd : Directive.ofBytes? first = some d) (g : Gate) : ∃ ending, (c.receive none g data false).events =
        (first :: others).map receivedLine
          ++ (d.begin ⟨{ c.session with consumed := true }, some g⟩).events ++ ending
      ∧ (ending = [] ∨ ending = [.waitClosed, .log (.closed c.session.peer)]) := by
  let c' := (Connection.work { c with session.consumed := true } g d.begin).connection
  have hevents : (c.receive none g data false).events = (first :: others).map receivedLine
      ++ (d.begin ⟨{ c.session with consumed := true }, some g⟩).events ++ c'.settle.2 := by
    rw [receive_on ht, read_begun hp hk hd]
    rfl
  refine ⟨c'.settle.2, hevents, ?_⟩
  cases hc : c'.session.closing with
  | true =>
    have hpeer : c'.session.peer = c.session.peer :=
      (begin_passes { c with session.consumed := true } g d).session.peer
    rw [(settle_torn hc ht).1, farewell, hpeer]
    split
    · exact .inl rfl
    · exact .inr rfl
  | false =>
    have hopen : c'.settle.1.inboundOpen = true := by
      rw [settle_inboundOpen, hc, Bool.not_false, Bool.and_true]
      exact hi
    exact .inl (congrArg (·.2) (settle_open hopen))

end Receive

end Connection

/-! ### Whole runs -/

/-- Nobody ever reads from a connection whose peer cannot be labelled. -/
theorem Invariant.unread (directive : Option Directive) :
    Invariant directive (fun _ => True) fun c _ =>
      c.AtRest ∧ (¬ c.IsLabelled → c.task ≠ .running) where
  accept {peer faults} address g _ := by
    refine ⟨Connection.accept_atRest address _ directive g, fun hlab => ?_⟩
    cases hp : peerLabel address with
    | ok label =>
      rw [Connection.IsLabelled, Connection.accept_label hp] at hlab
      exact absurd (Connection.peerLabel_eq_ok hp).1 hlab
    | error f =>
      rw [Connection.accept, hp]
      exact Task.noConfusion
  turn _ hr h := by
    have hp := Connection.reaction_passes hr h.1
    refine ⟨Connection.reaction_atRest hr h.1, fun hlab ht => ?_⟩
    rw [Connection.IsLabelled, hp.session.peer] at hlab
    exact h.2 hlab (hp.running ht)
  drop {c hist} g _ h := by
    have hp := c.drop_passes g
    refine ⟨c.drop_atRest g, fun hlab ht => ?_⟩
    rw [Connection.IsLabelled, hp.session.peer] at hlab
    exact h.2 hlab (hp.running ht)

/-- A step that is not addressed to a connection leaves it attentive, also where it drops sessions. -/
theorem Step.Moves.attentive {n : Nat} {s : Step} {directive : Option Directive} {c c' : Connection}
    {marks : List Mark} {heard : List UInt8} (hm : s.Moves n directive c marks c')
    (ht : s.target ≠ some n) (h : c.Attentive heard) : c'.Attentive heard := by
  induction hm with
  | still => exact h
  | turn htarget _ => exact absurd htarget ht
  | drop g _ _ ih => exact (ih h).drop g

namespace Listener

variable {l : Listener} {n : Nat} {c : Connection} {heard : List UInt8}

/-- A step leaves a connection attentive, with the bytes that it brings, unless it sets a fault for hanging
up. -/
theorem step_attentive (hd : l.directive = none) (hc : l.connections[n]? = some c)
    (h : c.Attentive heard) {s : Step} (hs : ∀ f, s ≠ .setFault n .close (some f)) :
    ∃ c', (l.step s).1.connections[n]? = some c' ∧ c'.Attentive (heard ++ s.bytesFor n) := by
  by_cases ht : s.target = some n
  · rcases step_target ht hc with ⟨hnone, hstep⟩ | ⟨t, hr, hc', -⟩
    · refine ⟨c, by rw [hstep]; exact hc, ?_⟩
      cases s with
      | receive m data eof =>
        -- bytes are ignored only where nothing can come in
        have hi : ¬ c.inboundOpen = true := fun hi => by
          rw [Step.reaction, if_pos hi] at hnone
          cases hnone
        exact Connection.attentive_of_ended h.unhindered (by simpa using hi) _
      | start | shutdown | serve | close | connect | endInbound | reset | wake | setFault | setCloseFault =>
        rw [Step.bytesFor_of_ne (fun _ _ he => by cases he), List.append_nil]
        exact h
    · rw [hd] at hr
      exact ⟨t.connection, hc', h.turn ht hs hr⟩
  · obtain ⟨c', hc', hm⟩ := step_moves s hc
    refine ⟨c', hc', ?_⟩
    rw [Step.bytesFor_of_ne fun data eof he => ht (by rw [he]; rfl), List.append_nil]
    exact hm.attentive ht h

theorem after_attentive (hd : l.directive = none) (hc : l.connections[n]? = some c)
    (h : c.Attentive heard) {steps : List Step} (hs : ∀ f, .setFault n .close (some f) ∉ steps) :
    ∃ c', (l.after steps).connections[n]? = some c'
      ∧ c'.Attentive (heard ++ steps.flatMap (Step.bytesFor n)) := by
  induction steps generalizing l c heard with
  | nil => exact ⟨c, hc, by rwa [List.flatMap_nil, List.append_nil]⟩
  | cons s rest ih =>
    obtain ⟨c', hc', h'⟩ := step_attentive hd hc h fun f he => hs f (he ▸ .head _)
    have hrest := ih ((l.step_directive s).trans hd) hc' h' fun f hm => hs f (.tail _ hm)
    rwa [List.append_assoc] at hrest

/-- What becomes of bytes that come in on connection `n` and are cut into a first piece and others, behind
other bytes: what the step shows, and where the listener stands behind it. -/
structure Hears (l : Listener) (n : Nat) (c : Connection) (earlier first : List UInt8)
    (others : List (List UInt8)) (r : Listener × Outcome) : Prop where
  /-- Every piece is logged, in order, and no other bytes are. -/
  lines : r.2.trace.filter (·.2.isReceived)
    = Trace.of (.connection n) ((first :: others).map receivedLine)
  taken : c.session.consumed = true ↔ earlier ≠ []
  /-- Behind other bytes that is all. -/
  later : earlier ≠ [] →
    r = (l, { trace := Trace.of (.connection n) ((first :: others).map receivedLine) })
  /-- The first piece of the first bytes has no directive. -/
  refused : earlier = [] → Directive.ofBytes? first = none →
    r.2.trace = Trace.of (.connection n) ([receivedLine first, .log .requestIncorrect, .close]
        ++ others.map receivedLine ++ [.waitClosed, .log (.closed c.session.peer)])
      ∧ (∃ c', r.1.connections[n]? = some c' ∧ c'.task = .done) ∧ n ∉ r.1.sessions
  /-- The first piece of the first bytes has a directive, which is run behind all pieces. -/
  begun : ∀ d, earlier = [] → Directive.ofBytes? first = some d → ∃ ending,
    r.2.trace = Trace.of (.connection n) ((first :: others).map receivedLine
        ++ (d.begin ⟨{ c.session with consumed := true }, some l.gate⟩).events ++ ending)
      ∧ (ending = [] ∨ ending = [.waitClosed, .log (.closed c.session.peer)])

theorem filter_received_of (o : Origin) (events : List Event) :
    (Trace.of o events).filter (·.2.isReceived) = Trace.of o (events.filter (·.isReceived)) := by
  simp only [Trace.of, List.filter_map]
  rfl

theorem filter_lines (ps : List (List UInt8)) :
    (ps.map receivedLine).filter (·.isReceived) = ps.map receivedLine :=
  List.filter_eq_self.2 (List.forall_mem_map.2 fun _ _ => rfl)

/-- Bytes for a connection with an open inbound side are a turn of it. -/
theorem step_receive (hd : l.directive = none) (hc : l.connections[n]? = some c)
    (hi : c.inboundOpen = true) (data : List UInt8) :
    let t := c.receive none l.gate data false
    l.step (.receive n data false)
      = ((l.put n t).notice, { trace := Trace.of (.connection n) t.events }) := by
  have hr : (Step.receive n data false).reaction l.directive l.gate c
      = some (c.receive none l.gate data false) := by
    rw [Step.reaction, if_pos hi, hd]
  exact step_of_reaction rfl hc hr

/-- Bytes for a connection that nobody reads from come to nothing. -/
theorem Steady.unheard (hl : l.Steady) (hd : l.directive = none) (hc : l.connections[n]? = some c)
    (hi : c.inboundOpen = true) (ht : c.task ≠ .running) (data : List UInt8) :
    l.step (.receive n data false) = (l, {}) := by
  have hturn : c.receive none l.gate data false = { connection := c, gate := l.gate } := by
    rw [Connection.receive, if_pos (.inr ht), Connection.rest]
    simp only [Bool.not_false, Bool.and_true, (hl.atRest c (List.mem_of_getElem? hc)).settle,
      List.append_nil]
  rw [step_receive hd hc hi, hturn, hl.put_self hc, hl.noticed]
  rfl

section Hears

variable {data first : List UInt8} {others : List (List UInt8)}

/-- Bytes behind other bytes are logged, and the listener stays as it is. -/
theorem Steady.hears_later (hl : l.Steady) (hd : l.directive = none) (hc : l.connections[n]? = some c)
    (h : c.Attentive heard) (hi : c.inboundOpen = true) (hp : pieces data = first :: others)
    (hk : c.session.consumed = true) :
    l.Hears n c heard first others (l.step (.receive n data false)) := by
  have hsame : l.step (.receive n data false)
      = (l, { trace := Trace.of (.connection n) ((first :: others).map receivedLine) }) := by
    rw [step_receive hd hc hi, Connection.receive_later (hl.atRest c (List.mem_of_getElem? hc))
      (h.running hi) hp hk, hl.put_self hc, hl.noticed]
  have hheard := (h.taken hi).1 hk
  rw [hsame]
  refine ⟨?_, h.taken hi, fun _ => rfl, fun he => absurd he hheard, fun _ he => absurd he hheard⟩
  rw [filter_received_of, filter_lines]

/-- The first bytes without a directive end the session. -/
theorem Steady.hears_refused (hl : l.Steady) (hd : l.directive = none)
    (hc : l.connections[n]? = some c) (h : c.Attentive []) (hj : c.job = .none)
    (hi : c.inboundOpen = true) (hp : pieces data = first :: others)
    (hnone : Directive.ofBytes? first = none) :
    l.Hears n c [] first others (l.step (.receive n data false)) := by
  have hk : c.session.consumed = false := by simpa using h.taken hi
  obtain ⟨hevents, htask⟩ :=
    Connection.receive_refused h.unhindered (h.running hi) hj hp hk hnone l.gate
  have hstep := step_receive hd hc hi data
  have hput : (l.step (.receive n data false)).1.connections[n]?
      = some (c.receive none l.gate data false).connection := by
    rw [hstep]
    exact get_put_self (List.getElem?_eq_some_iff.1 hc).1 _
  refine ⟨?_, h.taken hi, fun hne => absurd rfl hne, fun _ _ => ⟨?_, ⟨_, hput, htask⟩, ?_⟩,
    fun _ _ he => ?_⟩
  · rw [hstep, hevents, filter_received_of, List.filter_append, List.filter_append, filter_lines]
    simp [Event.isReceived, receivedLine]
  · rw [hstep, hevents]
  · rw [← (hl.step _).running_iff hput, htask]
    exact Task.noConfusion
  · cases hnone.symm.trans he

/-- The first bytes with a directive are logged in full before that is run. -/
theorem hears_begun (hd : l.directive = none) (hc : l.connections[n]? = some c) (h : c.Attentive [])
    (hi : c.inboundOpen = true) (hp : pieces data = first :: others) {d : Directive}
    (hsome : Directive.ofBytes? first = some d) :
    l.Hears n c [] first others (l.step (.receive n data false)) := by
  have hk : c.session.consumed = false := by simpa using h.taken hi
  obtain ⟨ending, hevents, hending⟩ :=
    Connection.receive_begun hi (h.running hi) hp hk hsome l.gate
  have hstep := step_receive hd hc hi data
  refine ⟨?_, h.taken hi, fun hne => absurd rfl hne, fun _ he => ?_, fun d' _ he => ?_⟩
  · have hrun : ((d.begin ⟨{ c.session with consumed := true }, some l.gate⟩).events).filter
        (·.isReceived) = [] := by
      refine List.filter_eq_nil_iff.2 fun e he => ?_
      rw [Connection.not_received_of_ofDirective (Directive.begin_ofDirective _ _) e he]
      exact Bool.false_ne_true
    have hend : ending.filter (·.isReceived) = [] := by
      rcases hending with rfl | rfl <;> rfl
    rw [hstep, hevents, filter_received_of, List.filter_append, List.filter_append, filter_lines, hrun,
      hend, List.append_nil, List.append_nil]
  · cases hsome.symm.trans he
  · obtain rfl := Option.some.inj (hsome.symm.trans he)
    exact ⟨ending, by rw [hstep, hevents], hending⟩

/-- An attentive connection hears all that comes in on it. -/
theorem Steady.hears (hl : l.Steady) (hd : l.directive = none) (hc : l.connections[n]? = some c)
    (h : c.Attentive heard) (hb : c.Begun none) (hi : c.inboundOpen = true)
    (hp : pieces data = first :: others) :
    l.Hears n c heard first others (l.step (.receive n data false)) := by
  rcases hb with hj | hnone | hk
  · by_cases hheard : heard = []
    · subst hheard
      cases hdirective : Directive.ofBytes? first with
      | none => exact hl.hears_refused hd hc h hj hi hp hdirective
      | some d => exact hears_begun hd hc h hi hp hdirective
    · exact hl.hears_later hd hc h hi hp ((h.taken hi).2 hheard)
  · cases hnone
  · exact hl.hears_later hd hc h hi hp hk

end Hears

/-- There is a label for the peer of a connection unless its address is of a single part. -/
theorem exists_label {peer : Option (List Value)} (h : ∀ part, peer ≠ some [part]) (n : Nat) :
    ∃ label, peerLabel (peer.getD (standInPeer n)) = .ok label := by
  cases hp : peerLabel (peer.getD (standInPeer n)) with
  | ok label => exact ⟨label, rfl⟩
  | error f =>
    obtain ⟨-, hlen⟩ := Connection.peerLabel_eq_error hp
    cases peer with
    | none => simp [standInPeer] at hlen
    | some parts =>
      obtain ⟨part, hpart⟩ := List.length_eq_one_iff.1 hlen
      exact absurd (congrArg some hpart) (h part)

/-- Bytes that come in on a connection on which no fault for hanging up was ever set, without a directive
for all sessions, are cut into pieces of which none is lost, and all that they do is what `Hears` says. On a
connection from an address of a single part they do nothing. -/
theorem heard_in_full {before after : List Step} {peer : Option (List Value)} {faults : FaultPlan}
    (hf : faults.close = none) {host : Option Text} {port : Option Int} {binding : Binding}
    {order : SetOrder}
    (hl : ((new host port none binding order).after before).isListening = true)
    (hs : ∀ f,
      .setFault ((new host port none binding order).after before).connections.length .close (some f)
        ∉ after) {data : List UInt8} (hdata : data ≠ [])
    (hopen : (((new host port none binding order).after (before ++ .connect peer faults :: after)).step
      (.receive ((new host port none binding order).after before).connections.length data
        false)).2.ignored = false) :
    let n := ((new host port none binding order).after before).connections.length
    let l := (new host port none binding order).after (before ++ .connect peer faults :: after)
    let r := l.step (.receive n data false)
    ((∀ part, peer ≠ some [part]) → ∃ c first others, l.connections[n]? = some c
        ∧ peerLabel (peer.getD (standInPeer n)) = .ok c.session.peer
        ∧ IsCut readSize data (first :: others)
        ∧ l.Hears n c (after.flatMap (Step.bytesFor n)) first others r)
      ∧ ((∃ part, peer = some [part]) → r = (l, {})) := by
  intro n l r
  let l₀ := (new host port none binding order).after before
  have hnew := new_steady host port none binding order
  have hsteady : l.Steady := hnew.after _
  have hdirective : l.directive = none := after_directive _ _
  have hdirective₀ : l₀.directive = none := after_directive _ _
  obtain ⟨c, hc, hpeer⟩ := connect_peer (hnew.after before) hl peer faults after
  obtain ⟨c', hc', hlabelled⟩ := connect_isLabelled (hnew.after before) hl peer faults after
  obtain rfl := Option.some.inj (hc.symm.trans hc')
  have hget : l.connections[n]? = some c := by rwa [← after_append] at hc
  have hi : c.inboundOpen = true := by
    by_contra hshut
    have hnone : l.connections[n]?.bind ((Step.receive n data false).reaction l.directive l.gate)
        = none := by
      rw [hget, Option.bind_some, Step.reaction, if_neg hshut]
    rw [step, act_of_target rfl, onConnection_of_none hnone] at hopen
    cases hopen
  constructor
  · intro hparts
    obtain ⟨label, hlabel⟩ := exists_label hparts n
    rw [Connection.accept_label hlabel] at hpeer
    have hfirst := get_connect hl peer faults
    rw [hdirective₀] at hfirst
    obtain ⟨c', hc', hattentive⟩ := after_attentive ((l₀.step_directive _).trans hdirective₀) hfirst
      (Connection.accept_attentive hlabel hf l₀.gate) hs
    obtain rfl := Option.some.inj (hc.symm.trans hc')
    obtain ⟨others, hp⟩ := Connection.pieces_of_ne_nil hdata
    have hbegun : c.AtRest ∧ c.Begun none := (Invariant.begun none).holds (fun _ _ => trivial) hget
    have hcut := pieces_isCut data
    rw [hp] at hcut
    exact ⟨c, data.take readSize, others, hget, by rw [hpeer]; exact hlabel, hcut,
      hsteady.hears hdirective hget hattentive hbegun.2 hi hp⟩
  · rintro ⟨part, hpart⟩
    have hunread := (Invariant.unread none).holds (fun _ _ => trivial) hget
    exact hsteady.unheard hdirective hget hi (hunread.2 fun hlab => hlabelled.1 hlab part hpart) data

/-- More bytes than a piece holds come in while the directive sleeps, and are logged in several pieces. -/
theorem heard_in_full_sleeper :
    let after : List Step := [.receive 0 (Utf8.encode "ACT[WAIT=5]".toList) false]
    let l := (new none (some 0) none .asked .ofAcceptance).after ([.start] ++ .connect none {} :: after)
    let data : List UInt8 := List.replicate 70000 65
    ((new none (some 0) none .asked .ofAcceptance).after [.start]).isListening = true
      ∧ (∀ f, .setFault 0 .close (some f) ∉ after) ∧ data ≠ []
      ∧ (l.step (.receive 0 data false)).2.ignored = false
      ∧ ∃ first second others, IsCut readSize data (first :: second :: others)
        ∧ l.step (.receive 0 data false)
          = (l, { trace := Trace.of (.connection 0) ((first :: second :: others).map receivedLine) }) := by
  intro after l data
  have hl : ((new none (some 0) none .asked .ofAcceptance).after [.start]).isListening = true := rfl
  have hs : ∀ f, .setFault 0 .close (some f) ∉ after := by simp [after]
  have hdata : data ≠ [] := by
    rw [Ne, List.replicate_eq_nil_iff]
    decide
  have hopen : (l.step (.receive 0 data false)).2.ignored = false := rfl
  obtain ⟨c, first, others, -, -, hcut, hhears⟩ :=
    (@heard_in_full [.start] after none {} rfl none (some 0) .asked .ofAcceptance hl hs data hdata
      hopen).1 nofun
  have hlater := hhears.later (by decide)
  cases others with
  | nil =>
    -- a single piece would be all of the data, and too long
    have hwhole : first = data := by simpa using hcut.whole
    have hlength := hcut.bounded first (.head _)
    rw [hwhole, List.length_replicate] at hlength
    exact absurd hlength (by decide)
  | cons second others => exact ⟨hl, hs, hdata, hopen, first, second, others, hcut, hlater⟩

/-- What comes in from a peer with an address of a single part is not ignored, but neither is it logged nor
is its directive taken. -/
theorem unlabelled_never_heard :
    let l := (new none (some 0) none .asked .ofAcceptance).after
      [.start, .connect (some [.text "/run/sock".toList]) {}]
    let r := l.step (.receive 0 (Utf8.encode "ACT[]".toList) false)
    r.2.ignored = false ∧ r.2.trace = []
      ∧ ∃ c, r.1.connections[0]? = some c ∧ c.session.consumed = false :=
  ⟨by decide, by decide, _, rfl, by decide⟩

end Listener
end ScriptedServer
