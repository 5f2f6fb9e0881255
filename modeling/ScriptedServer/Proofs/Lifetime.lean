import ScriptedServer.Proofs.Steady

/-!
How long a session lives: exactly as long as something is left to do on it. That is so as long as its
inbound side has not ended, whatever its directive came to, and as long as a sleep of the directive is
pending, whatever happened to the connection. `Connection.Lives` says it of one connection and its
history, every turn keeps it (`lives_invariant`), and a connection whose peer could not be labelled is
the one exception: its handling is over before it begins.
-/

namespace ScriptedServer

/-- Whether a step sets no fault for hanging up, and resets with a fault of input and output only. -/
def Step.isOrderly : Step → Bool
  | .connect _ faults => faults.close.isNone
  | .setFault _ .close f => f.isNone
  | .reset _ f => f.isExternal
  | _ => true

namespace Connection

/-- Whether there is a label for the peer of a connection. -/
def IsLabelled (c : Connection) : Prop := c.session.peer ≠ []

/-- Whether a connection is handled as long as something is left to do on it. -/
def Lively (c : Connection) : Prop :=
  c.inboundOpen = true ∨ c.job.isAsleep = true → c.task = .running

variable {c : Connection} {g : Gate} {hist : List Mark}

/-! ### Peers -/

theorem peerLabel_eq_error {peer : List Value} {f : Fault} (h : peerLabel peer = .error f) :
    f = .missingPart ∧ peer.length = 1 := by
  rcases peer with _ | ⟨a, _ | ⟨b, rest⟩⟩
  · cases h
  · cases h
    exact ⟨rfl, rfl⟩
  · cases h

theorem peerLabel_eq_ok {peer : List Value} {label : Text} (h : peerLabel peer = .ok label) :
    label ≠ [] ∧ peer.length ≠ 1 := by
  rcases peer with _ | ⟨a, _ | ⟨b, rest⟩⟩
  · cases h
    exact ⟨by decide, by simp⟩
  · cases h
  · cases h
    exact ⟨by simp, by simp⟩

/-- A peer has a label unless its address consists of a single part. -/
theorem accept_isLabelled_iff (peer : List Value) (faults : FaultPlan)
    (directive : Option Directive) (g : Gate) :
    (accept peer faults directive g).connection.IsLabelled ↔ peer.length ≠ 1 := by
  rw [accept]
  cases hp : peerLabel peer with
  | error f => simp [IsLabelled, (peerLabel_eq_error hp).2]
  | ok label =>
    have hpeer := (welcome_passes { session := { peer := label, faults } } directive g).session.peer
    simp only [IsLabelled, hpeer]
    exact iff_of_true (peerLabel_eq_ok hp).1 (peerLabel_eq_ok hp).2

/-! ### The end of the handling -/

theorem leave_over (h : c.task ≠ .running) : c.leave = (c, []) := by
  rw [leave, if_neg fun hl => h hl.1]

/-- What is over stays as it ended. -/
theorem settle_over (h : c.task ≠ .running) : c.settle.1.task = c.task := by
  have hover : ∀ isOpen : Bool, leave { c with inboundOpen := isOpen }
      = ({ c with inboundOpen := isOpen }, []) := fun _ => leave_over h
  rw [settle]
  split
  · rfl
  · rw [hover]

theorem breakOff_over (h : c.task ≠ .running) (f : Fault) : c.breakOff f = (c, []) := by
  rw [breakOff, if_pos h]

/-- A connection without an inbound side is not left while it is asleep. -/
theorem leave_lively (hi : c.inboundOpen = false) (h : c.Lively) : c.leave.1.Lively := by
  rw [leave]
  split
  · rename_i hl
    have hj : c.job.isAsleep = false := by simpa using hl.2
    rintro (hopen | hasleep)
    · rw [finish_inboundOpen, hi] at hopen
      cases hopen
    · rw [(finish_closes hj).job, hj] at hasleep
      cases hasleep
  · exact h

theorem settle_lively (h : c.Lively) : c.settle.1.Lively := by
  have hin : Lively { c with inboundOpen := c.inboundOpen && !c.session.closing } :=
    fun hor => h (hor.imp_left fun hi => (Bool.and_eq_true_iff.1 hi).1)
  rw [settle]
  split
  · exact hin
  · rename_i hi
    exact leave_lively (by simpa using hi) hin

theorem breakOff_lively (hi : c.inboundOpen = false) (h : c.Lively) {f : Fault}
    (hf : f.isExternal = true) : (c.breakOff f).1.Lively := by
  by_cases ht : c.task = .running
  · rw [breakOff, if_neg (by simpa using ht), if_pos hf]
    exact leave_lively hi h
  · rw [breakOff_over ht]
    exact h

theorem breakOff_inboundOpen (c : Connection) (f : Fault) :
    (c.breakOff f).1.inboundOpen = c.inboundOpen := by
  rw [breakOff]
  split
  · rfl
  · split
    · exact c.leave_inboundOpen
    · rfl

/-! ### Reading -/

theorem refuse_inboundOpen (c : Connection) (g : Gate) (others : List Event) :
    (c.refuse g others).connection.inboundOpen = c.inboundOpen := by
  rw [refuse]
  cases c.session.hangUp.error with
  | none => rfl
  | some f => exact breakOff_inboundOpen c f

theorem read_inboundOpen (c : Connection) (g : Gate) (data : List UInt8) :
    (c.read g data).connection.inboundOpen = c.inboundOpen := by
  cases hp : pieces data with
  | nil => rw [read_nothing hp]
  | cons first others =>
    cases hk : c.session.consumed with
    | true => rw [read_consumed hp hk]
    | false =>
      cases hd : Directive.ofBytes? first with
      | none =>
        rw [read_refused hp hk hd]
        exact refuse_inboundOpen _ g _
      | some d => rw [read_begun hp hk hd]; rfl

/-- Where hanging up does not fail, reading does not end the handling. -/
theorem read_task (hf : c.session.faults.close = none) (g : Gate) (data : List UInt8) :
    (c.read g data).connection.task = c.task := by
  cases hp : pieces data with
  | nil => rw [read_nothing hp]
  | cons first others =>
    cases hk : c.session.consumed with
    | true => rw [read_consumed hp hk]
    | false =>
      cases hd : Directive.ofBytes? first with
      | none =>
        rw [read_refused hp hk hd]
        simp only [Turn.after, refuse, Session.hangUp, hf]
      | some d => rw [read_begun hp hk hd]; rfl

/-- Bytes that come in are read, and then the connection is brought to rest. -/
theorem receive_rest (hf : c.session.faults.close = none) (directive : Option Directive) (g : Gate)
    (data : List UInt8) (eof : Bool) : ∃ t : Turn, c.receive directive g data eof = rest t
      ∧ t.connection.inboundOpen = (c.inboundOpen && !eof) ∧ t.connection.task = c.task := by
  rw [receive]
  split
  · exact ⟨_, rfl, rfl, rfl⟩
  · exact ⟨_, rfl, by rw [read_inboundOpen], read_task hf g data⟩

theorem reset_job (c : Connection) (g : Gate) (f : Fault) : (c.reset g f).connection.job = c.job :=
  (settle_closes _).job.trans (breakOff_closes _ f).job

theorem drop_job (c : Connection) (g : Gate) : (c.drop g).connection.job = c.job :=
  (settle_closes _).job

/-! ### One connection and its history -/

/-- A connection whose handling goes with what is left to do, as its history tells. -/
structure Lives (c : Connection) (hist : List Mark) : Prop where
  atRest : c.AtRest
  unhindered : c.session.faults.close = none
  lively : c.IsLabelled → c.Lively
  unread : ¬ c.IsLabelled → c.task = .failed .missingPart
  inboundOpen : c.inboundOpen = true ↔ ∀ m ∈ hist, m.endsInbound = false

/-- What a turn brings and shows ends the inbound side, or it is open behind the turn as in front of
it. -/
theorem rest_inboundOpen {t : Turn} {b : List Mark} (hc : c.AtRest)
    (hp : Passes c (b ++ Mark.all (rest t).events) (rest t).connection)
    (hi : t.connection.inboundOpen = true ↔
      c.inboundOpen = true ∧ ∀ m ∈ b, m.endsInbound = false) :
    (rest t).connection.inboundOpen = true ↔ c.inboundOpen = true
      ∧ ∀ m ∈ b ++ Mark.all (rest t).events, m.endsInbound = false := by
  have hin : (rest t).connection.inboundOpen = true ↔
      t.connection.inboundOpen = true ∧ t.connection.session.closing = false := by
    rw [show (rest t).connection = t.connection.settle.1 from rfl, settle_inboundOpen]
    simp
  constructor
  · intro h
    obtain ⟨hcopen, hbrought⟩ := hi.1 (hin.1 h).1
    refine ⟨hcopen, fun m hm => ?_⟩
    rcases List.mem_append.1 hm with hb | he
    · exact hbrought m hb
    · -- what is torn down has no inbound side, and the end of file is never shown
      have hclosing := (rest_atRest t).open_of_inboundOpen h
      cases htd : m.tearsDown with
      | true =>
        rw [hp.session.closing.2 (.inr ⟨m, hm, htd⟩)] at hclosing
        cases hclosing
      | false =>
        obtain ⟨e, -, rfl⟩ := List.mem_map.1 he
        rw [Mark.endsInbound, htd]
        rfl
  · rintro ⟨hcopen, hquiet⟩
    refine hin.2 ⟨hi.2 ⟨hcopen, fun m hm => hquiet m (List.mem_append_left _ hm)⟩, ?_⟩
    cases htorn : t.connection.session.closing with
    | false => rfl
    | true =>
      rcases hp.session.closing.1 (t.connection.settle_passes.session.closing.2 (.inl htorn)) with
        hclosing | ⟨m, hm, htd⟩
      · rw [hc.open_of_inboundOpen hcopen] at hclosing
        cases hclosing
      · have hend := hquiet m hm
        rw [Mark.endsInbound, htd, Bool.or_true] at hend
        cases hend

/-- A turn that brings a connection to rest keeps it living as it should. -/
theorem Lives.rest (h : Lives c hist) {t : Turn} {b : List Mark}
    (hp : Passes c (b ++ Mark.all (rest t).events) (rest t).connection)
    (hf : (rest t).connection.session.faults = c.session.faults)
    (hi : t.connection.inboundOpen = true ↔
      c.inboundOpen = true ∧ ∀ m ∈ b, m.endsInbound = false)
    (hl : c.IsLabelled → t.connection.Lively) (hu : ¬ c.IsLabelled → t.connection.task = c.task) :
    Lives (Connection.rest t).connection (hist ++ (b ++ Mark.all (Connection.rest t).events)) := by
  have hpeer := hp.session.peer
  refine ⟨rest_atRest t, by rw [hf]; exact h.unhindered, fun hlab => ?_, fun hlab => ?_, ?_⟩
  · rw [IsLabelled, hpeer] at hlab
    exact settle_lively (hl hlab)
  · rw [IsLabelled, hpeer] at hlab
    have ht : t.connection.task = .failed .missingPart := (hu hlab).trans (h.unread hlab)
    exact (settle_over (by rw [ht]; nofun)).trans ht
  · rw [rest_inboundOpen h.atRest hp hi, h.inboundOpen]
    simp only [List.forall_mem_append]

/-- So does every turn that an orderly step brings about. -/
theorem Lives.turn {s : Step} {directive : Option Directive} {t : Turn} (h : Lives c hist)
    (hs : s.isOrderly = true) (hr : s.reaction directive g c = some t) :
    Lives t.connection (hist ++ (s.brings ++ Mark.all t.events)) := by
  have hp := reaction_passes hr h.atRest
  cases s with
  | receive n data eof =>
    obtain ⟨hopen, ⟨⟩⟩ := Option.ite_none_right_eq_some.1 hr
    have hkeeps := (c.receive_keeps directive g data eof).faults
    obtain ⟨t, heq, hin, htask⟩ := receive_rest h.unhindered directive g data eof
    rw [heq] at hp hkeeps ⊢
    refine h.rest hp hkeeps ?_ (fun hlab _ => ?_) fun _ => htask
    · rw [hin]
      cases eof <;> simp [Step.brings, Mark.endsInbound]
    · exact htask.trans (h.lively hlab (.inl hopen))
  | endInbound n =>
    obtain ⟨hopen, ⟨⟩⟩ := Option.ite_none_right_eq_some.1 hr
    refine h.rest hp (c.endInbound_keeps g).faults ?_ (fun hlab _ => ?_) fun _ => rfl
    · simp [Step.brings, Mark.endsInbound]
    · exact h.lively hlab (.inl hopen)
  | reset n f =>
    obtain ⟨hopen, ⟨⟩⟩ := Option.ite_none_right_eq_some.1 hr
    have hlost : c.IsLabelled → Lively { c with session := c.session.lose, inboundOpen := false } :=
      fun hlab _ => h.lively hlab (.inl hopen)
    refine h.rest hp (c.reset_keeps g f).faults ?_ (fun hlab => ?_) fun hlab => ?_
    · simp [breakOff_inboundOpen, Step.brings, Mark.endsInbound, Mark.tearsDown]
    · exact breakOff_lively rfl (hlost hlab) hs
    · rw [breakOff_over]
      simp [h.unread hlab]
  | wake n =>
    rw [Step.reaction] at hr
    split at hr
    · rename_i left hj
      cases hr
      refine h.rest hp (c.wake_keeps g left).faults ?_ (fun hlab _ => ?_) fun _ => rfl
      · simp [work, Step.brings]
      · exact h.lively hlab (.inr (by rw [hj]; rfl))
    · cases hr
  | setFault n point f =>
    cases hr
    refine ⟨⟨h.atRest.open_of_inboundOpen, h.atRest.asleep_of_running⟩, ?_, h.lively, h.unread, ?_⟩
    · cases point with
      | close => simpa [Step.isOrderly, FaultPlan.set] using hs
      | _ => exact h.unhindered
    · simpa [Step.brings] using h.inboundOpen
  | start | shutdown | serve | close | connect | setCloseFault => cases hr

theorem Lives.drop (h : Lives c hist) (g : Gate) :
    Lives (c.drop g).connection (hist ++ Mark.all (c.drop g).events) := by
  have hp : Passes c ([] ++ Mark.all (c.drop g).events) (c.drop g).connection := c.drop_passes g
  exact h.rest hp (c.drop_faults g) (by simp) h.lively fun _ => rfl

/-- A connection is accepted with something left to do on it, unless its peer has no label. -/
theorem accept_lives (peer : List Value) {faults : FaultPlan} (hf : faults.close = none)
    (directive : Option Directive) (g : Gate) :
    Lives (accept peer faults directive g).connection
      (Mark.all (accept peer faults directive g).events) := by
  have hkeeps := (accept_keeps peer faults directive g).faults
  rw [accept] at hkeeps ⊢
  cases hp : peerLabel peer with
  | error f =>
    obtain ⟨rfl, -⟩ := peerLabel_eq_error hp
    exact ⟨⟨fun _ => rfl, Bool.noConfusion⟩, hf, fun hlab => absurd rfl hlab, fun _ => rfl, by simp⟩
  | ok label =>
    have hnew : Lives { session := { peer := label, faults } } [] :=
      ⟨⟨fun _ => rfl, Bool.noConfusion⟩, hf, fun _ _ => rfl, fun hlab => absurd (peerLabel_eq_ok hp).1 hlab,
        by simp⟩
    simp only [hp] at hkeeps ⊢
    have hpass := welcome_passes { session := { peer := label, faults } } directive g
    refine hnew.rest (b := []) hpass hkeeps ?_ (fun _ _ => ?_) fun _ => ?_
    · cases directive <;> simp [Turn.after, work]
    · cases directive <;> rfl
    · cases directive <;> rfl

/-! ### Pending sleeps -/

/-- A directive is begun on a connection only if there is one for all sessions, or once the first
payload came in. -/
def Begun (directive : Option Directive) (c : Connection) : Prop :=
  c.job = .none ∨ directive.isSome = true ∨ c.session.consumed = true

variable {directive : Option Directive}

/-- What a turn begins, it begins with the first payload. -/
theorem Begun.turn {s : Step} {t : Turn} (h : c.Begun directive) (hc : c.AtRest)
    (hr : s.reaction directive g c = some t) : t.connection.Begun directive := by
  rcases h with hj | hd | hk
  · cases s with
    | receive n data eof =>
      obtain ⟨-, ⟨⟩⟩ := Option.ite_none_right_eq_some.1 hr
      rw [receive]
      split
      · exact .inl ((settle_closes _).job.trans hj)
      · cases data with
        | nil => exact .inl ((settle_closes _).job.trans hj)
        | cons b rest =>
          exact .inr (.inr ((settle_passes _).consumed (c.read_consumes g (List.cons_ne_nil b rest))))
    | endInbound n =>
      obtain ⟨-, ⟨⟩⟩ := Option.ite_none_right_eq_some.1 hr
      exact .inl ((c.endInbound_closes g).job.trans hj)
    | reset n f =>
      obtain ⟨-, ⟨⟩⟩ := Option.ite_none_right_eq_some.1 hr
      exact .inl ((c.reset_job g f).trans hj)
    | wake n =>
      rw [Step.reaction, hj] at hr
      cases hr
    | setFault n point f =>
      cases hr
      exact .inl hj
    | start | shutdown | serve | close | connect | setCloseFault => cases hr
  · exact .inr (.inl hd)
  · exact .inr (.inr ((reaction_passes hr hc).consumed hk))

theorem Begun.drop (h : c.Begun directive) (g : Gate) : (c.drop g).connection.Begun directive := by
  rcases h with hj | hd | hk
  · exact .inl ((c.drop_job g).trans hj)
  · exact .inr (.inl hd)
  · exact .inr (.inr ((c.drop_passes g).consumed hk))

theorem accept_begun (peer : List Value) (faults : FaultPlan) (directive : Option Directive)
    (g : Gate) : (accept peer faults directive g).connection.Begun directive := by
  rw [accept]
  cases peerLabel peer with
  | error f => exact .inl rfl
  | ok label =>
    cases directive with
    | none => exact .inl ((settle_closes _).job)
    | some d => exact .inr (.inl rfl)

/-- A turn that is not the end of the sleep lets a directive sleep on. -/
theorem reaction_asleep {s : Step} {t : Turn} {left : List Action}
    (hr : s.reaction directive g c = some t) (hs : ∀ n, s ≠ .wake n) (hb : c.Begun directive)
    (hj : c.job = .asleep left) : t.connection.job = .asleep left := by
  cases s with
  | receive n data eof =>
    obtain ⟨-, ⟨⟩⟩ := Option.ite_none_right_eq_some.1 hr
    have htaken := hb.resolve_left (by rw [hj]; nofun)
    exact (receive_closes htaken g data eof).1.job.trans hj
  | endInbound n =>
    obtain ⟨-, ⟨⟩⟩ := Option.ite_none_right_eq_some.1 hr
    exact (c.endInbound_closes g).job.trans hj
  | reset n f =>
    obtain ⟨-, ⟨⟩⟩ := Option.ite_none_right_eq_some.1 hr
    exact (c.reset_job g f).trans hj
  | wake n => exact absurd rfl (hs n)
  | setFault n point f =>
    cases hr
    exact hj
  | start | shutdown | serve | close | connect | setCloseFault => cases hr

end Connection

/-- A step that does not end the sleep lets a directive sleep on, also where it drops sessions. -/
theorem Step.Moves.asleep {n : Nat} {s : Step} {directive : Option Directive} {c c' : Connection}
    {marks : List Mark} {left : List Action} (hm : s.Moves n directive c marks c')
    (hs : s ≠ .wake n) (hb : c.Begun directive) (hj : c.job = .asleep left) :
    c'.job = .asleep left := by
  induction hm with
  | still => exact hj
  | turn ht hr =>
    refine Connection.reaction_asleep hr (fun m he => hs ?_) hb hj
    subst he
    cases ht
    rfl
  | drop g _ _ ih => exact (Connection.drop_job _ g).trans (ih hb hj)

/-! ### Whole runs -/

/-- Orderly steps keep every connection living as it should. -/
theorem Invariant.lives (directive : Option Directive) :
    Invariant directive (·.isOrderly = true) Connection.Lives where
  accept peer g hs := Connection.accept_lives peer (by simpa [Step.isOrderly] using hs) directive g
  turn hs hr h := h.turn hs hr
  drop g _ h := h.drop g

/-- Whatever the steps are, nothing is begun on a connection but what may be. -/
theorem Invariant.begun (directive : Option Directive) :
    Invariant directive (fun _ => True) fun c _ => c.AtRest ∧ c.Begun directive where
  accept peer g _ :=
    ⟨Connection.accept_atRest peer _ directive g, Connection.accept_begun peer _ directive g⟩
  turn _ hr h := ⟨Connection.reaction_atRest hr h.1, h.2.turn h.1 hr⟩
  drop g _ h := ⟨Connection.drop_atRest _ g, h.2.drop g⟩

namespace Listener

/-- A connection that was accepted is there ever after, with the peer that it had. -/
theorem after_peer {l : Listener} {n : Nat} {c : Connection} (hl : l.Steady)
    (hc : l.connections[n]? = some c) (steps : List Step) :
    ∃ c', (l.after steps).connections[n]? = some c' ∧ c'.session.peer = c.session.peer := by
  induction steps generalizing l c with
  | nil => exact ⟨c, hc, rfl⟩
  | cons s rest ih =>
    obtain ⟨c', hc', hm⟩ := step_moves s hc
    obtain ⟨c'', hc'', hpeer⟩ := ih (hl.step s) hc'
    have hpass := (hm.passes (hl.atRest c (List.mem_of_getElem? hc))).1
    exact ⟨c'', hc'', hpeer.trans hpass.session.peer⟩

theorem get_connect {l : Listener} (hlistening : l.isListening = true) (peer : Option (List Value))
    (faults : FaultPlan) : (l.step (.connect peer faults)).1.connections[l.connections.length]?
      = some (Connection.accept (peer.getD (standInPeer l.connections.length)) faults l.directive
          l.gate).connection := by
  simp only [step, act, connect_of_listening hlistening]
  exact List.getElem?_concat_length

/-- An accepted connection is there ever after, with the peer that it was accepted with. -/
theorem connect_peer {l : Listener} (hl : l.Steady) (hlistening : l.isListening = true)
    (peer : Option (List Value)) (faults : FaultPlan) (steps : List Step) :
    ∃ c, (l.after (.connect peer faults :: steps)).connections[l.connections.length]? = some c
      ∧ c.session.peer = (Connection.accept (peer.getD (standInPeer l.connections.length)) faults
          l.directive l.gate).connection.session.peer := by
  exact after_peer (hl.step _) (get_connect hlistening peer faults) steps

/-- A connection has a label for its peer unless it was accepted from an address of a single part. -/
theorem connect_isLabelled {l : Listener} (hl : l.Steady) (hlistening : l.isListening = true)
    (peer : Option (List Value)) (faults : FaultPlan) (steps : List Step) :
    ∃ c, (l.after (.connect peer faults :: steps)).connections[l.connections.length]? = some c
      ∧ (c.IsLabelled ↔ ∀ part, peer ≠ some [part]) := by
  obtain ⟨c, hc, hpeer⟩ := connect_peer hl hlistening peer faults steps
  refine ⟨c, hc, ?_⟩
  rw [Connection.IsLabelled, hpeer]
  refine (Connection.accept_isLabelled_iff _ faults l.directive l.gate).trans ?_
  cases peer with
  | none => simp [standInPeer]
  | some parts =>
    rw [Option.getD_some, Ne, List.length_eq_one_iff, not_exists]
    simp

/-- Each connection that is accepted in a run of orderly steps is handled exactly as long as its session
is open and, if its peer's address is not of a single part, exactly as long as its inbound side has not
ended or a sleep is pending; from an address of a single part it is never handled. A pending sleep is
ended by nothing but its own end. -/
theorem lives_exactly {before after : List Step} {peer : Option (List Value)} {faults : FaultPlan}
    (hs : ∀ s ∈ before ++ .connect peer faults :: after, s.isOrderly = true)
    {host : Option Text} {port : Option Int} {directive : Option Directive} {binding : Binding}
    {order : SetOrder}
    (hl : ((new host port directive binding order).after before).isListening = true) :
    let n := ((new host port directive binding order).after before).connections.length
    let l := (new host port directive binding order).after (before ++ .connect peer faults :: after)
    let hist := (new host port directive binding order).history n (before ++ .connect peer faults :: after)
    ∃ c, l.connections[n]? = some c
      ∧ (c.task = .running ↔ n ∈ l.sessions)
      ∧ ((∀ part, peer ≠ some [part]) → (c.task = .running ↔
          (∀ m ∈ hist, m.endsInbound = false) ∨ c.job.isAsleep = true))
      ∧ ((∃ part, peer = some [part]) → c.task = .failed .missingPart)
      ∧ ∀ left s, c.job = .asleep left → s ≠ .wake n →
          ∃ c', (l.step s).1.connections[n]? = some c' ∧ c'.job = .asleep left := by
  intro n l hist
  have hnew := new_steady host port directive binding order
  obtain ⟨c, hc, hlabelled⟩ := connect_isLabelled (hnew.after before) hl peer faults after
  rw [← after_append] at hc
  have hlives : c.Lives hist := (Invariant.lives directive).holds hs hc
  have hbegun : c.AtRest ∧ c.Begun directive :=
    (Invariant.begun directive).holds (fun _ _ => trivial) hc
  have hsteady : l.Steady := hnew.after (before ++ .connect peer faults :: after)
  have hdirective : l.directive = directive := after_directive _ _
  refine ⟨c, hc, ?_, fun hparts => ?_, fun ⟨part, hpart⟩ => ?_, fun left s hj hsleep => ?_⟩
  · rw [hsteady.mem_sessions n]
    constructor
    · exact fun ht => ⟨c, hc, ht⟩
    · rintro ⟨c', hc', ht⟩
      obtain rfl := Option.some.inj (hc.symm.trans hc')
      exact ht
  · rw [← hlives.inboundOpen]
    constructor
    · intro ht
      cases hi : c.inboundOpen with
      | true => exact .inl rfl
      | false => exact .inr (hbegun.1.asleep_of_running hi ht)
    · exact hlives.lively (hlabelled.2 hparts)
  · exact hlives.unread fun hlab => hlabelled.1 hlab part hpart
  · obtain ⟨c', hc', hm⟩ := step_moves s hc
    rw [hdirective] at hm
    exact ⟨c', hc', hm.asleep hsleep hbegun.2 hj⟩

/-- What befalls a connection that sends a directive and is reset while that sleeps. -/
def sleeperSteps : List Step :=
  [.receive 0 (Utf8.encode "ACT[WAIT=5,SEND=b]".toList) false,
    .reset 0 { kind := .connectionReset, message := [] }]

theorem lives_exactly_sleeper :
    let l := (new none (some 0) none .asked .ofAcceptance).after
      ([.start] ++ .connect none {} :: sleeperSteps)
    (∀ s ∈ [.start] ++ .connect none {} :: sleeperSteps, s.isOrderly = true)
      ∧ ((new none (some 0) none .asked .ofAcceptance).after [.start]).isListening = true
      ∧ ∃ c, l.connections[0]? = some c ∧ c.job.isAsleep = true ∧ c.task = .running
          ∧ 0 ∈ l.sessions := by
  intro l
  have hs : ∀ s ∈ [.start] ++ .connect none {} :: sleeperSteps, s.isOrderly = true := by decide
  have hl : ((new none (some 0) none .asked .ofAcceptance).after [.start]).isListening = true := by decide
  obtain ⟨c, hc, hsession, hlives, -⟩ := lives_exactly hs hl
  have hj : ∃ c, l.connections[0]? = some c ∧ c.job.isAsleep = true := ⟨_, rfl, by decide⟩
  obtain ⟨c', hc', hj⟩ := hj
  obtain rfl := Option.some.inj (hc.symm.trans hc')
  have ht := (hlives (by simp)).2 (.inr hj)
  exact ⟨hs, hl, c, hc, hj, ht, hsession.1 ht⟩

/-- A peer with an address of a single part is not waited for, although it has not hung up. -/
theorem unlabelled_never_lives :
    let steps : List Step := [.start, .connect (some [.text "/run/sock".toList]) {}]
    let l := (new none (some 0) none .asked .ofAcceptance).after steps
    (∀ s ∈ steps, s.isOrderly = true) ∧ ∃ c, l.connections[0]? = some c
      ∧ (∀ m ∈ (new none (some 0) none .asked .ofAcceptance).history 0 steps, m.endsInbound = false)
      ∧ c.task ≠ .running ∧ 0 ∉ l.sessions :=
  ⟨by decide, _, rfl, by decide, by decide, by decide⟩

end Listener
end ScriptedServer
