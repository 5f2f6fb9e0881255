import ScriptedServer.Proofs.Isolation
import ScriptedServer.Proofs.Overtaking

/-!
What a close of the listener leaves. It drops every open session, and the session of a connection that is
dropped ends at once unless a sleep is pending on it. From then on nothing is sent on any of these
connections, and until a start succeeds the sessions that are open are some of those with a pending
sleep (`Dropped`), for which the close goes on to wait. When the last sleep of one of them ends, the
actions that are left are gone through in silence, and the session ends behind them.
-/

namespace ScriptedServer

/-! ### Sleeps that are the last -/

/-- A stretch of actions of which none is a sleep does not fall asleep. -/
theorem Directive.advance_awake {acts : List Action} (h : ∀ a ∈ acts, a.kind ≠ some .wait) {st : Stage}
    (rest : List Action) : (advance acts st).result ≠ .asleep rest := by
  induction acts generalizing st with
  | nil => exact Progress.noConfusion
  | cons a acts ih =>
    obtain ⟨hk, hacts⟩ := List.forall_mem_cons.1 h
    cases he : (a.attempt st).error with
    | some t =>
      rw [advance_trouble acts he]
      exact Progress.noConfusion
    | none =>
      rw [advance_go acts he hk]
      exact ih hacts

theorem Job.ofProgress_isAsleep {p : Progress} :
    (Job.ofProgress p).isAsleep = true ↔ ∃ rest, p = .asleep rest := by
  cases p with
  | asleep rest => exact ⟨fun _ => ⟨rest, rfl⟩, fun _ => rfl⟩
  | ended e =>
    refine ⟨fun h => ?_, nofun⟩
    cases e <;> cases h

/-! ### Connections that are torn down -/

theorem Session.isClosing_of_closing {s : Session} (h : s.closing = true) : s.isClosing = true := by
  rw [isClosing, h, Bool.or_true]

namespace Connection

variable {c : Connection}

/-- What is seen of a connection that is torn down when it comes to rest. -/
def farewell (c : Connection) : List Event :=
  if c.job.isAsleep then [] else [.waitClosed, .log (.closed c.session.peer)]

/-- A connection that is torn down is left, with its inbound side shut. -/
theorem settle_of_closing (hc : c.session.closing = true) :
    c.settle = leave { c with inboundOpen := false } := by
  rw [settle, hc, Bool.not_true, Bool.and_false]
  exact if_neg Bool.false_ne_true

/-- A connection that is torn down comes to its end unless a sleep is pending. -/
theorem settle_torn (hc : c.session.closing = true) (ht : c.task = .running) :
    c.settle.2 = c.farewell ∧ (c.settle.1.task = .running ↔ c.job.isAsleep = true) := by
  rw [settle_of_closing hc, leave, farewell]
  cases hj : c.job.isAsleep with
  | true => simp [ht]
  | false =>
    have hover := finish_not_running { c with inboundOpen := false }
    have hfinish : (finish { c with inboundOpen := false }).2
        = [.waitClosed, .log (.closed c.session.peer)] := by
      simp only [finish, Session.release, hc, if_true]
      rfl
    simpa [ht] using ⟨hfinish, hover⟩

theorem drop_torn (ha : c.session.faults.abort = none) (ht : c.task = .running) (g : Gate) :
    (c.drop g).events = .abort :: c.farewell ∧ (c.drop g).connection.session.closing = true
      ∧ ((c.drop g).connection.task = .running ↔ c.job.isAsleep = true) := by
  have habort : c.session.abort
      = { state := { c.session with closing := true }, events := [.abort] } := by
    rw [Session.abort, ha]
  obtain ⟨hevents, hrunning⟩ := settle_torn (c := { c with session.closing := true }) rfl ht
  have hclosing := (settle_passes { c with session.closing := true }).session.closing.2 (.inl rfl)
  rw [drop, rest, habort]
  exact ⟨congrArg (Event.abort :: ·) hevents, hclosing, hrunning⟩

/-- When a sleep ends on a connection that is torn down, its directive is gone on with, and the
connection comes to its end unless it falls asleep again. -/
theorem wake_torn (hc : c.session.closing = true) (ht : c.task = .running) (g : Gate)
    (left : List Action) :
    let r := Directive.advance left ⟨c.session, some g⟩
    (c.wake g left).events = r.events ++ (if (Job.ofProgress r.result).isAsleep then []
        else [.waitClosed, .log (.closed c.session.peer)])
      ∧ ((c.wake g left).connection.task = .running ↔ (Job.ofProgress r.result).isAsleep = true) := by
  intro r
  have hcourse : Session.Sealed c.session (Mark.all r.events) r.stage.session :=
    (Directive.stretch_sealed left ⟨c.session, some g⟩).1
  obtain ⟨hevents, hrunning⟩ := settle_torn (c := (c.work g (Directive.advance left)).connection)
    (hcourse.closing.2 (.inl hc)) ht
  have hpeer : (c.work g (Directive.advance left)).connection.session.peer = c.session.peer :=
    hcourse.peer
  rw [farewell, hpeer] at hevents
  exact ⟨congrArg (r.events ++ ·) hevents, hrunning⟩

end Connection

/-! ### Faults for closing -/

/-- The fault that a step sets for stops of the listener or for drops of a session. -/
def Step.closingFault? : Step → Option Fault
  | .connect _ faults => faults.abort
  | .setFault _ .abort f => f
  | .setCloseFault f => f
  | _ => none

/-- Whether a step sets no fault for stops of the listener and none for drops of a session. -/
def Step.isSparing : Step → Bool
  | .connect _ faults => faults.abort.isNone
  | .setFault _ .abort f => f.isNone
  | .setCloseFault f => f.isNone
  | _ => true

theorem Step.closingFault?_eq_none {s : Step} (h : s.isSparing = true) : s.closingFault? = none := by
  cases s with
  | connect | setCloseFault => exact Option.isNone_iff_eq_none.1 h
  | setFault n point f =>
    cases point with
    | abort => exact Option.isNone_iff_eq_none.1 h
    | _ => rfl
  | _ => rfl

/-- A session fails to drop only with a fault that was set for closing. -/
theorem Invariant.drops (directive : Option Directive) (P : Fault → Prop) :
    Invariant directive (fun s => ∀ f, s.closingFault? = some f → P f)
      fun c _ => ∀ f, c.session.faults.abort = some f → P f where
  accept address g hs := by
    rw [(Connection.accept_keeps address _ directive g).faults]
    exact hs
  turn {s g c t h} hs hr hc := by
    rcases Step.reaction_faults hr with hf | ⟨n, point, f, rfl, hf⟩
    · rw [hf]
      exact hc
    · rw [hf]
      cases point with
      | abort => exact hs
      | _ => exact hc
  drop g _ hc := by
    rw [Connection.drop_faults]
    exact hc

namespace Listener

variable {l : Listener} {n : Nat} {c : Connection} {s : Step} {r : Round}

section

variable {host : Option Text} {port : Option Int} {directive : Option Directive} {binding : Binding}
  {order : SetOrder} {steps : List Step} {P : Fault → Prop} {f : Fault}

/-- In a run a stop fails only with a fault that was set for closing. -/
theorem after_shut_error (hs : ∀ s ∈ steps, ∀ f, s.closingFault? = some f → P f)
    (h : ((new host port directive binding order).after steps).shut.error = some f) : P f := by
  have hshifts : Gate.Shifts (fun s => ∀ f, s.closingFault? = some f → P f) {} _ _ :=
    after_shifts (l := new host port directive binding order) hs
  obtain ⟨a, ha, hf⟩ := Gate.shut_error h
  exact hshifts.closeFault P (fun f hset => hset f rfl) (fun _ _ hnone => by cases hnone) ha hf

/-- And so does a close. -/
theorem after_close_error (hs : ∀ s ∈ steps, ∀ f, s.closingFault? = some f → P f)
    (h : ((new host port directive binding order).after steps).close.2.2 = some f) : P f := by
  rcases close_error h with he | ⟨n, -, c, hc, he⟩
  · exact after_shut_error hs he
  · rw [abort_error] at he
    exact (Invariant.drops directive P).holds hs hc f he

end

/-! ### Dropping sessions -/

/-- Where no session fails to drop, those that are not dropped are left alone. -/
theorem dropSessions_others {xs : List Nat} (hf : l.AbortFree) (hn : n ∉ xs) :
    (dropSessions xs l).1.connections[n]? = l.connections[n]?
      ∧ (dropSessions xs l).2.1.view (.connection n) = [] := by
  induction xs generalizing l with
  | nil => exact ⟨rfl, rfl⟩
  | cons m rest ih =>
    rw [List.mem_cons, not_or] at hn
    cases hb : l.connections[m]? with
    | none =>
      rw [dropSessions_of_none hb]
      exact ih hf hn.2
    | some b =>
      obtain ⟨hsame, hview⟩ := ih (hf.putDrop hb l.gate) hn.2
      have hmn : Origin.connection m ≠ .connection n := by simpa using Ne.symm hn.1
      rw [dropSessions_of_some hb (hf b (List.mem_of_getElem? hb))]
      refine ⟨hsame.trans (get_put_of_ne hn.1 l _), ?_⟩
      rw [Trace.view_append, Trace.view_of_ne hmn, hview]
      rfl

/-- Each session is dropped once. -/
theorem dropSessions_once {xs : List Nat} (hf : l.AbortFree) (hx : xs.Nodup) (hn : n ∈ xs)
    (hc : l.connections[n]? = some c) :
    (dropSessions xs l).1.connections[n]? = some (c.drop l.gate).connection
      ∧ (dropSessions xs l).2.1.view (.connection n) = (c.drop l.gate).events := by
  induction hx generalizing l with
  | nil => cases hn
  | @cons m rest hm _ ih =>
    cases hb : l.connections[m]? with
    | none =>
      have hnm : n ≠ m := by
        rintro rfl
        cases hc.symm.trans hb
      rw [dropSessions_of_none hb]
      exact ih hf (List.mem_of_ne_of_mem hnm hn) hc
    | some b =>
      have hput := hf.putDrop hb l.gate
      rw [dropSessions_of_some hb (hf b (List.mem_of_getElem? hb))]
      by_cases hnm : n = m
      · subst hnm
        obtain rfl : c = b := Option.some.inj (hc.symm.trans hb)
        obtain ⟨hlt, -⟩ := List.getElem?_eq_some_iff.1 hc
        -- it is not among the sessions left
        obtain ⟨hsame, hview⟩ := dropSessions_others hput fun h => absurd rfl (hm n h)
        refine ⟨hsame.trans (get_put_self hlt _), ?_⟩
        rw [Trace.view_append, Trace.view_of_self, hview, List.append_nil]
      · have hmn : Origin.connection m ≠ .connection n := by simpa using Ne.symm hnm
        obtain ⟨hdropped, hview⟩ := ih hput (List.mem_of_ne_of_mem hnm hn)
          ((get_put_of_ne hnm l _).trans hc)
        refine ⟨hdropped, ?_⟩
        rw [Trace.view_append, Trace.view_of_ne hmn, hview]
        rfl

/-- A close that meets no fault drops each open session once. -/
theorem Steady.close_once (hl : l.Steady) (hf : l.AbortFree) (he : l.shut.error = none)
    (hn : n ∈ l.sessions) (hc : l.connections[n]? = some c) :
    (l.step .close).1.connections[n]? = some (c.drop l.shut.state.gate).connection
      ∧ (l.step .close).2.trace.view (.connection n) = (c.drop l.shut.state.gate).events := by
  have hshut : l.shut.state.AbortFree := hf
  have hopen : n ∈ l.openSessions := mem_openSessions.2 hn
  obtain ⟨hdropped, hview⟩ := dropSessions_once hshut hl.openSessions_nodup hopen hc
  simp only [Listener.step, act, close, he, notice_connections, Trace.view_append,
    Trace.view_listener, List.nil_append]
  exact ⟨hdropped, hview⟩

/-- A close does not fail where neither the stop nor a drop does. -/
theorem AbortFree.close_error (hf : l.AbortFree) (he : l.shut.error = none) :
    l.close.2.2 = none := by
  cases h : l.close.2.2 with
  | none => rfl
  | some f =>
    rcases Listener.close_error h with hs | ⟨n, -, c, hc, ha⟩
    · cases he.symm.trans hs
    · rw [abort_error, hf c (List.mem_of_getElem? hc)] at ha
      cases ha

/-! ### Sessions behind a close -/

/-- A session that is open behind a step that accepts no connection was open in front of it. -/
theorem Steady.session_kept (hl : l.Steady)
    (hs : l.isListening = false ∨ ∀ peer faults, s ≠ .connect peer faults)
    (hn : n ∈ (l.step s).1.sessions) : n ∈ l.sessions ∧ ∃ c c' marks, l.connections[n]? = some c
      ∧ (l.step s).1.connections[n]? = some c' ∧ c.Passes marks c' := by
  obtain ⟨c', hc', ht⟩ := ((hl.step s).mem_sessions n).1 hn
  cases hc : l.connections[n]? with
  | none =>
    have hnone : (l.step s).1.connections[n]? = none := by
      by_cases hcon : ∃ peer faults, s = .connect peer faults
      · obtain ⟨peer, faults, rfl⟩ := hcon
        have hshut := hs.resolve_right fun h => h peer faults rfl
        simpa only [Listener.step, act, connect_of_not_listening hshut, notice_connections] using hc
      · exact (step_unknown hc fun peer faults he => hcon ⟨peer, faults, he⟩).1
    cases hc'.symm.trans hnone
  | some c =>
    obtain ⟨c'', hc'', hm⟩ := step_moves s hc
    obtain rfl := Option.some.inj (hc'.symm.trans hc'')
    have hpass := (hm.passes (hl.atRest c (List.mem_of_getElem? hc))).1
    exact ⟨(hl.mem_sessions n).2 ⟨c, hc, hpass.running ht⟩, c, c', _, rfl, hc', hpass⟩

/-- A listener behind a close, as long as no start succeeds: it does not listen, and every session that
is open is torn down. -/
structure Dropped (l : Listener) : Prop where
  steady : l.Steady
  shut : l.isListening = false
  torn : ∀ n ∈ l.sessions, ∀ c, l.connections[n]? = some c → c.session.closing = true

/-- A session that is open although it is torn down waits for the end of a sleep. -/
theorem Dropped.asleep (h : l.Dropped) (hn : n ∈ l.sessions) :
    ∃ c, l.connections[n]? = some c ∧ c.job.isAsleep = true := by
  obtain ⟨c, hc, ht⟩ := (h.steady.mem_sessions n).1 hn
  have hrest := h.steady.atRest c (List.mem_of_getElem? hc)
  -- what is torn down has no inbound side, so a sleep is all that it can wait for
  have hin : c.inboundOpen = false := by
    by_contra hopen
    cases (h.torn n hn c hc).symm.trans (hrest.open_of_inboundOpen (eq_true_of_ne_false hopen))
  exact ⟨c, hc, hrest.asleep_of_running hin ht⟩

theorem Dropped.step (h : l.Dropped) (ho : (l.step s).2.trace.Unopened) :
    (l.step s).1.Dropped ∧ ∀ n ∈ (l.step s).1.sessions, n ∈ l.sessions := by
  have hshifts : Gate.Shifts (fun _ => True) l.gate (l.step s).2.trace (l.step s).1.gate :=
    step_shifts trivial
  refine ⟨⟨h.steady.step s, (hshifts.stays_shut h.shut ho).1, fun n hn c' hc' => ?_⟩, fun n hn => ?_⟩
  · obtain ⟨hold, c, c'', marks, hc, hc'', hpass⟩ := h.steady.session_kept (.inl h.shut) hn
    obtain rfl := Option.some.inj (hc'.symm.trans hc'')
    exact hpass.session.closing.2 (.inl (h.torn n hold c hc))
  · exact (h.steady.session_kept (.inl h.shut) hn).1

theorem Dropped.after (h : l.Dropped) {steps : List Step} (ho : (l.transcript steps).Unopened) :
    (l.after steps).Dropped ∧ ∀ n ∈ (l.after steps).sessions, n ∈ l.sessions := by
  induction steps generalizing l with
  | nil => exact ⟨h, fun _ hn => hn⟩
  | cons s rest ih =>
    rw [transcript_cons, Trace.unopened_append] at ho
    obtain ⟨hone, hshrunk⟩ := h.step ho.1
    obtain ⟨hrest, hfewer⟩ := ih hone ho.2
    exact ⟨hrest, fun n hn => hshrunk n (hfewer n hn)⟩

theorem Steady.close_dropped (hl : l.Steady) (hf : l.AbortFree) (he : l.shut.error = none) :
    (l.step .close).1.Dropped ∧ ∀ n ∈ (l.step .close).1.sessions, n ∈ l.sessions := by
  have hkept := fun {n} => hl.session_kept (n := n) (s := .close) (.inr fun _ _ => nofun)
  refine ⟨⟨hl.step .close, close_isListening (hf.close_error he), fun n hn c' hc' => ?_⟩, fun n hn => ?_⟩
  · obtain ⟨hold, c, -, -, hc, -, -⟩ := hkept hn
    obtain ⟨c₀, hc₀, ht⟩ := (hl.mem_sessions n).1 hold
    obtain rfl := Option.some.inj (hc.symm.trans hc₀)
    obtain rfl := Option.some.inj (hc'.symm.trans (hl.close_once hf he hold hc).1)
    exact (Connection.drop_torn (hf c (List.mem_of_getElem? hc)) ht _).2.1
  · exact (hkept hn).1

/-- Nothing is sent any more on a connection that is closing. -/
theorem Steady.transcript_silent (hl : l.Steady) (hc : l.connections[n]? = some c)
    (hclosing : c.session.isClosing = true) (steps : List Step) :
    ∀ e ∈ (l.transcript steps).view (.connection n), (Mark.seen e).isOutput = false := by
  induction steps generalizing l c with
  | nil => exact fun _ he => nomatch he
  | cons s rest ih =>
    obtain ⟨c', hc', hm⟩ := step_moves s hc
    have hpass := (hm.passes (hl.atRest c (List.mem_of_getElem? hc))).1
    intro e he
    rw [transcript_cons, Trace.view_append, List.mem_append] at he
    rcases he with he | he
    · exact hpass.session.silent hclosing _ (List.mem_append_right _ (Mark.seen_mem_all.2 he))
    · exact ih (hl.step s) hc' (hpass.session.isClosing (.inl hclosing)) e he

/-- An open session is dropped by a close exactly once. -/
theorem Steady.close_aborts (hl : l.Steady) (hf : l.AbortFree) (he : l.shut.error = none)
    (hn : n ∈ l.sessions) : ((l.step .close).2.trace.view (.connection n)).count .abort = 1 := by
  obtain ⟨c, hc, ht⟩ := (hl.mem_sessions n).1 hn
  have hdrop := Connection.drop_torn (hf c (List.mem_of_getElem? hc)) ht l.shut.state.gate
  rw [(hl.close_once hf he hn hc).2, hdrop.1, Connection.farewell]
  split <;> rfl

/-- Nothing is sent on a connection from a close on. -/
theorem Steady.close_silent (hl : l.Steady) (hf : l.AbortFree) (he : l.shut.error = none)
    (hn : n ∈ l.sessions) (later : List Step) :
    ∀ e ∈ (l.transcript (.close :: later)).view (.connection n), (Mark.seen e).isOutput = false := by
  obtain ⟨c, hc, ht⟩ := (hl.mem_sessions n).1 hn
  obtain ⟨hevents, hclosing, -⟩ :=
    Connection.drop_torn (hf c (List.mem_of_getElem? hc)) ht l.shut.state.gate
  obtain ⟨hc', hview⟩ := hl.close_once hf he hn hc
  have hbehind := (hl.step .close).transcript_silent hc'
    (Session.isClosing_of_closing hclosing) later
  intro e hm
  rw [transcript_cons, Trace.view_append, List.mem_append, hview, hevents] at hm
  rcases hm with hm | hm
  · revert e hm
    rw [Connection.farewell]
    split <;> simp [Mark.isOutput]
  · exact hbehind e hm

/-! ### Waiting for the sessions that are asleep -/

/-- What closes gets done only where no session is open, and none opens afterwards. -/
theorem Dropped.follow_done (h : l.Dropped) {steps : List Step} (ho : (l.transcript steps).Unopened)
    (hr : r = .done → l.sessions = []) (hd : l.follow r steps = .done) :
    (l.after steps).sessions = [] := by
  induction steps generalizing l r with
  | nil => exact hr hd
  | cons s rest ih =>
    rw [transcript_cons, Trace.unopened_append] at ho
    obtain ⟨hone, hshrunk⟩ := h.step ho.1
    refine ih hone ho.2 (fun hdone => ?_) hd
    rcases Round.settle_done hdone with hbefore | hnone
    · -- sessions only go
      refine List.eq_nil_iff_forall_not_mem.2 fun n hn => ?_
      have hm := hshrunk n hn
      rw [hr hbefore] at hm
      cases hm
    · exact hnone

/-- What closes gathers the sessions that are left until there are none. -/
theorem Dropped.gathers (h : l.Dropped) {steps : List Step} (ho : (l.transcript steps).Unopened)
    (hw : r.Woken) (hr : r.Rests l) (hd : r = .done → l.sessions = []) :
    if (l.after steps).sessions = [] then l.follow r steps = .done
      else ∃ batch, l.follow r steps = .gathering batch := by
  have hwoken := follow_woken hw l steps
  have hrests := follow_rests h.steady hr steps
  by_cases hnone : (l.after steps).sessions = []
  · rw [if_pos hnone]
    exact hwoken.eq_done hrests ((h.after ho).1.steady.toSettled.isIdle_iff.2 hnone)
  · rw [if_neg hnone]
    exact hwoken.resolve_left fun hdone => hnone (h.follow_done ho hd hdone)

/-- A close that meets no fault begins to gather sessions. -/
theorem Steady.close_begins (hl : l.Steady) (he : l.close.2.2 = none) :
    let l' := (l.step .close).1
    l'.closing = some ((Round.gathering l'.sessions).settle l').waiter := by
  intro l'
  have hclosing : l'.closing
      = some (Waiter.settle l'.gate l'.isIdle (l.close.2.2.elim .draining .failed)) := rfl
  rw [hclosing, he, Round.settle_waiter (hl.step .close).toSettled]
  rfl

/-- What is reported of a close that meets no fault gathers sessions, unless none is open. -/
theorem Steady.close_reported (hl : l.Steady) (he : l.close.2.2 = none)
    (hr : (l.step .close).1.closing = some r.waiter) : r.Woken ∧ r.Rests (l.step .close).1
      ∧ (r = .done → (l.step .close).1.sessions = []) := by
  let l' := (l.step .close).1
  let r₀ := (Round.gathering l'.sessions).settle l'
  have hw : r.waiter = r₀.waiter := Option.some.inj (hr.symm.trans (hl.close_begins he))
  have hrests : r₀.Rests l' := Round.settle_rests (hl.step .close).toSettled _
  have hwoken : r₀.Woken := Round.Woken.settle (.inr ⟨l'.sessions, rfl⟩) l'
  refine ⟨hwoken.of_waiter hw, hrests.of_waiter hw, ?_⟩
  rintro rfl
  exact (Round.settle_done (Round.waiter_eq_done hw.symm)).resolve_left nofun

/-! ### Whole runs -/

/-- What the end of a sleep is to connection `n` when its session is torn down: the actions that are left
are gone through, nothing is sent, and the session ends unless it falls asleep again. -/
structure ResumesInSilence (l : Listener) (n : Nat) (c : Connection) (left : List Action) : Prop where
  seen : (l.step (.wake n)).2.trace.view (.connection n)
    = (Directive.advance left ⟨c.session, some l.gate⟩).events
      ++ if (Job.ofProgress (Directive.advance left ⟨c.session, some l.gate⟩).result).isAsleep then []
        else [.waitClosed, .log (.closed c.session.peer)]
  silent : ∀ e ∈ (l.step (.wake n)).2.trace.view (.connection n), (Mark.seen e).isOutput = false
  stays : n ∈ (l.step (.wake n)).1.sessions
    ↔ ∃ rest, (Directive.advance left ⟨c.session, some l.gate⟩).result = .asleep rest
  last : (∀ a ∈ left, a.kind ≠ some .wait) → n ∉ (l.step (.wake n)).1.sessions

theorem Dropped.resumesInSilence (h : l.Dropped) (hn : n ∈ l.sessions)
    (hc : l.connections[n]? = some c) {left : List Action} (hj : c.job = .asleep left) :
    l.ResumesInSilence n c left := by
  have hclosing := h.torn n hn c hc
  have ht := (h.steady.toSettled.running_iff hc).2 hn
  have hr : (Step.wake n).reaction l.directive l.gate c = some (c.wake l.gate left) := by
    rw [Step.reaction, hj]
  have hstep := step_of_reaction rfl hc hr
  obtain ⟨hlt, -⟩ := List.getElem?_eq_some_iff.1 hc
  have hc' : (l.step (.wake n)).1.connections[n]? = some (c.wake l.gate left).connection := by
    rw [hstep]
    exact get_put_self hlt _
  obtain ⟨hevents, hrunning⟩ := Connection.wake_torn hclosing ht l.gate left
  have hview : (l.step (.wake n)).2.trace.view (.connection n) = (c.wake l.gate left).events := by
    rw [hstep]
    exact Trace.view_of_self _ _
  have hsilent := h.steady.transcript_silent hc (Session.isClosing_of_closing hclosing) [.wake n]
  have hstays : n ∈ (l.step (.wake n)).1.sessions
      ↔ ∃ rest, (Directive.advance left ⟨c.session, some l.gate⟩).result = .asleep rest := by
    rw [← (h.steady.step _).toSettled.running_iff hc', hrunning, Job.ofProgress_isAsleep]
  refine ⟨hview.trans hevents, fun e he => hsilent e (by simpa using he), hstays, fun hlast hm => ?_⟩
  obtain ⟨rest, hasleep⟩ := hstays.1 hm
  exact Directive.advance_awake hlast rest hasleep

/-- What a close does and what is left of it behind further steps. -/
structure Drops (l : Listener) (later : List Step) : Prop where
  aborts : ∀ n ∈ l.sessions, ((l.step .close).2.trace.view (.connection n)).count .abort = 1
  silent : ∀ n ∈ l.sessions, ∀ e ∈ (l.transcript (.close :: later)).view (.connection n),
    (Mark.seen e).isOutput = false
  asleep : ∀ n ∈ (l.after (.close :: later)).sessions, n ∈ l.sessions
    ∧ ∃ c, (l.after (.close :: later)).connections[n]? = some c ∧ c.job.isAsleep = true
  begun : ∃ r : Round, (l.step .close).1.closing = some r.waiter
  gathers : ∀ r : Round, (l.step .close).1.closing = some r.waiter →
    if (l.after (.close :: later)).sessions = [] then (l.step .close).1.follow r later = .done
      else ∃ batch, (l.step .close).1.follow r later = .gathering batch
  reported : .close ∉ later → (l.after (.close :: later)).closing
    = some (if (l.after (.close :: later)).sessions = [] then .done else .draining)
  woken : ∀ n c left, n ∈ (l.after (.close :: later)).sessions →
    (l.after (.close :: later)).connections[n]? = some c → c.job = .asleep left →
    (l.after (.close :: later)).ResumesInSilence n c left

theorem Steady.drops (hl : l.Steady) (hf : l.AbortFree) (he : l.shut.error = none)
    {later : List Step} (ho : ((l.step .close).1.transcript later).Unopened) : l.Drops later := by
  have herror := hf.close_error he
  obtain ⟨hdropped, hkept⟩ := hl.close_dropped hf he
  obtain ⟨hafter, hfewer⟩ := hdropped.after ho
  have hgathers : ∀ r : Round, (l.step .close).1.closing = some r.waiter →
      if (l.after (.close :: later)).sessions = [] then (l.step .close).1.follow r later = .done
        else ∃ batch, (l.step .close).1.follow r later = .gathering batch := by
    intro r hr
    obtain ⟨hwoken, hrests, hdone⟩ := hl.close_reported herror hr
    exact hdropped.gathers ho hwoken hrests hdone
  refine ⟨fun n hn => hl.close_aborts hf he hn, fun n hn => hl.close_silent hf he hn later,
    fun n hn => ⟨hkept n (hfewer n hn), hafter.asleep hn⟩, ⟨_, hl.close_begins herror⟩, hgathers,
    fun hclose => ?_, fun n c left hn hc hj => hafter.resumesInSilence hn hc hj⟩
  have hreported : (l.after (.close :: later)).closing = _ :=
    follow_reported step_closing (hl.step .close) (hl.close_begins herror) hclose
  have hround := hgathers _ (hl.close_begins herror)
  rw [hreported]
  split at hround
  · rw [hround, if_pos ‹_›]
    rfl
  · obtain ⟨batch, hbatch⟩ := hround
    rw [hbatch, if_neg ‹_›]
    rfl

/-- A close ends all sessions but those with a pending sleep. In a run in which no fault is set for stops
or for drops, each session that is open at a close is dropped once and nothing is sent on it any more;
and until a start succeeds, behind each later step only such of these sessions are open as a sleep is
pending on, and the close waits exactly as long as there are any. When a sleep ends, the actions that are
left are gone through in silence, and the session ends in the same step unless it falls asleep again. -/
theorem close_drops {host : Option Text} {port : Option Int} {directive : Option Directive}
    {binding : Binding} {order : SetOrder} {before later : List Step}
    (hs : ∀ s ∈ before, s.isSparing = true)
    (ho : ((((Listener.new host port directive binding order).after before).step .close).1.transcript
      later).Unopened) :
    ((Listener.new host port directive binding order).after before).Drops later := by
  let l := (Listener.new host port directive binding order).after before
  have hsteady : l.Steady := (new_steady host port directive binding order).after before
  have hnone : ∀ s ∈ before, ∀ f, s.closingFault? = some f → False := by
    intro s hm f hf
    cases (Step.closingFault?_eq_none (hs s hm)).symm.trans hf
  have hfree : l.AbortFree := by
    intro c hc
    obtain ⟨n, hn⟩ := List.mem_iff_getElem?.1 hc
    exact Option.eq_none_iff_forall_not_mem.2
      ((Invariant.drops directive fun _ => False).holds hnone hn)
  have hstop : l.shut.error = none :=
    Option.eq_none_iff_forall_not_mem.2 fun _ hf => after_shut_error hnone hf
  exact hsteady.drops hfree hstop ho

/-- A close that finds one session reading and another asleep in front of bytes to send. -/
theorem close_drops_sleeper :
    let new := Listener.new none (some 0) none .asked .ofAcceptance
    let before : List Step := [.start, .connect none {}, .connect none {},
      .receive 0 (Utf8.encode "ACT[WAIT=5,SEND=a,SHUT]".toList) false]
    let later : List Step := [.connect none {}]
    let l := (new.after before).after (.close :: later)
    (∀ s ∈ before, s.isSparing = true)
      ∧ (((new.after before).step .close).1.transcript later).Unopened
      ∧ (new.after before).sessions = [0, 1] ∧ l.sessions = [0] ∧ l.closing = some .draining
      ∧ (l.step (.wake 0)).2.trace.view (.connection 0) ≠ [] ∧ 0 ∉ (l.step (.wake 0)).1.sessions := by
  intro new before later l
  have hs : ∀ s ∈ before, s.isSparing = true := by decide
  have hquiet : ((new.after before).step .close).1.transcript later = [] := by decide
  have ho : (((new.after before).step .close).1.transcript later).Unopened := by
    rw [hquiet]
    exact fun _ => nofun
  have hdrops : (new.after before).Drops later := close_drops hs ho
  have hopen : l.sessions ≠ [] := by decide
  have hclosing : l.closing = some .draining :=
    (hdrops.reported (by simp [later])).trans (congrArg some (if_neg hopen))
  have hjob : l.connections[0]?.map (·.job)
      = some (.asleep (Directive.ofBody "SEND=a,SHUT".toList)) := by decide
  have hlast : ∀ a ∈ Directive.ofBody "SEND=a,SHUT".toList, a.kind ≠ some .wait := by decide
  obtain ⟨c, hc, hj⟩ := Option.map_eq_some_iff.1 hjob
  have hresumes : l.ResumesInSilence 0 c _ := hdrops.woken 0 c _ (by decide) hc hj
  exact ⟨hs, ho, by decide, by decide, hclosing, by decide, hresumes.last hlast⟩

end Listener
end ScriptedServer
