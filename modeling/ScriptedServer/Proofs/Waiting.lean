import Mathlib.Data.List.Induction
import ScriptedServer.Proofs.Stopping

/-!
What waits for the listener waits to the end. An activity that serves or closes waits by rounds: in each it
gathers the sessions that are open at its beginning, and when all of them have ended it looks again
(`Round`). Sessions come and go in the meantime, and how they end does not matter. The waiter that a
listener keeps is such an activity without its batch (`Round.settle_waiter`), and an activity can be
followed through further steps also when another has taken its place (`Listener.follow`).
-/

namespace ScriptedServer

/-! ### Starts in what is seen -/

namespace Trace

/-- Whether an entry is of a start, be it one that succeeds or one that fails. -/
def isStart : Origin × Event → Bool
  | (.listener, .bind _ _) => true
  | _ => false

/-- How many starts are seen. -/
def starts (t : Trace) : Nat := t.countP isStart

/-- Whether a stop is seen between start number `k` and the next. -/
def Signalled (k : Nat) (t : Trace) : Prop :=
  ∃ (pre : Trace) (host : Option Text) (port : Option Int) (since rest : Trace),
    t = pre ++ (.listener, .bind host port) :: (since ++ rest) ∧ pre.starts + 1 = k
      ∧ since.starts = 0 ∧ ∃ o, (o, .serverClose) ∈ since

variable {t : Trace} {k : Nat}

theorem starts_append (t u : Trace) : (t ++ u).starts = t.starts + u.starts := List.countP_append

theorem Signalled.append (h : t.Signalled k) (u : Trace) : (t ++ u).Signalled k := by
  obtain ⟨pre, host, port, since, rest, rfl, hrest⟩ := h
  exact ⟨pre, host, port, since, rest ++ u, by simp, hrest⟩

/-- The last of all starts. -/
theorem exists_last_start (h : 0 < t.starts) : ∃ (pre : Trace) (host : Option Text)
    (port : Option Int) (since : Trace), t = pre ++ (.listener, .bind host port) :: since
      ∧ pre.starts + 1 = t.starts ∧ since.starts = 0 := by
  induction t using List.reverseRecOn with
  | nil => cases h
  | append_singleton t x ih =>
    rw [starts_append] at h ⊢
    cases hx : isStart x with
    | true =>
      have hone : starts [x] = 1 := by simp [starts, hx]
      obtain ⟨host, port, rfl⟩ : ∃ host port, x = (.listener, .bind host port) := by
        rcases x with ⟨_ | n, e⟩ <;> cases e <;> simp [isStart] at hx ⊢
      exact ⟨t, host, port, [], rfl, by rw [hone], rfl⟩
    | false =>
      have hnone : starts [x] = 0 := by simp [starts, hx]
      rw [hnone] at h ⊢
      obtain ⟨pre, host, port, since, rfl, hpre, hsince⟩ := ih h
      refine ⟨pre, host, port, since ++ [x], by simp, hpre, ?_⟩
      rw [starts_append, hsince, hnone]

end Trace

namespace Gate

variable {allowed : Step → Prop} {g : Gate} {t : Trace}

/-- The gate counts the starts, and its signal is set where a stop has followed the last one. -/
theorem Shifts.signalled (h : Shifts allowed {} t g) : t.starts = g.starts
    ∧ (g.acceptor.isSome = true → 0 < g.starts) ∧ (g.stopped = true → t.Signalled g.starts) := by
  induction h with
  | refl => exact ⟨rfl, nofun, nofun⟩
  | @snoc t u g g' _ hs ih =>
    obtain ⟨hstarts, hacceptor, hstopped⟩ := ih
    rw [Trace.starts_append, hstarts]
    cases hs with
    | aside n he => exact ⟨rfl, hacceptor, fun h => (hstopped h).append _⟩
    | stop o ha hs hf =>
      have hpos : 0 < g.starts := hacceptor (by rw [ha]; rfl)
      refine ⟨by cases o <;> rfl, fun _ => hpos, fun _ => ?_⟩
      obtain ⟨pre, host, port, since, rfl, hpre, hsince⟩ :=
        Trace.exists_last_start (hstarts ▸ hpos)
      refine ⟨pre, host, port, since ++ [(o, .serverClose), (o, .log .stoppedListening)], [],
        by simp, hpre.trans hstarts, ?_, o, by simp⟩
      rw [Trace.starts_append, hsince]
      cases o <;> rfl
    | start host port bound => exact ⟨rfl, fun _ => Nat.succ_pos _, nofun⟩
    | startFailed host port => exact ⟨rfl, fun _ => Nat.succ_pos _, nofun⟩
    | @setCloseFault f hf =>
      refine ⟨rfl, fun h => hacceptor ?_, fun h => (hstopped h).append _⟩
      simpa [setCloseFault] using h

/-- Behind a stop that does not fail connections are not accepted. -/
theorem shut_isListening (h : g.shut.error = none) : g.shut.state.isListening = false := by
  cases hl : g.isListening with
  | false => rwa [shut_of_not_listening hl]
  | true =>
    obtain ⟨a, ha, hs⟩ := (Option.any_eq_true _ _).1 hl
    cases hf : a.closeFault with
    | some f =>
      rw [shut_of_fault ha hs hf] at h
      cases h
    | none =>
      rw [shut_of_listening ha hs hf]
      rfl

end Gate

/-! ### Waiting by rounds -/

/-- An activity that waits: for the signal of a start, or for all the sessions of a batch to end. -/
inductive Round where
  | awaiting (start : Nat)
  | gathering (batch : List Nat)
  | done
  | failed (f : Fault)
  deriving DecidableEq

namespace Round

/-- The activity without its batch. -/
def waiter : Round → Waiter
  | awaiting start => .awaiting start
  | gathering _ => .draining
  | done => .done
  | failed f => .failed f

/-- The next round: all sessions that are open are gathered, and if there are none it is done. -/
def next (l : Listener) : Round := if l.sessions = [] then done else gathering l.sessions

/-- How an activity goes on at a listener that is at rest. -/
def settle (l : Listener) : Round → Round
  | awaiting start =>
    if start = l.gate.starts ∧ l.gate.stopped then next l else awaiting start
  | gathering batch => if ∀ n ∈ batch, n ∉ l.sessions then next l else gathering batch
  | r => r

end Round

namespace Listener

variable {l : Listener}

/-- No connection is handled exactly if no session is open. -/
theorem Settled.isIdle_iff (h : l.Settled) : l.isIdle = true ↔ l.sessions = [] := by
  simp only [isIdle, List.all_eq_true, decide_eq_true_eq]
  constructor
  · intro hidle
    refine List.eq_nil_iff_forall_not_mem.2 fun n hn => ?_
    obtain ⟨c, hc, hr⟩ := (h.mem_sessions n).1 hn
    exact hidle c (List.mem_of_getElem? hc) hr
  · intro hnone c hm hr
    obtain ⟨n, hc⟩ := List.mem_iff_getElem?.1 hm
    have hn := (h.mem_sessions n).2 ⟨c, hc, hr⟩
    rw [hnone] at hn
    cases hn

end Listener

namespace Round

variable {l : Listener} {r : Round}

theorem waiter_eq_awaiting {start : Nat} (h : r.waiter = .awaiting start) : r = .awaiting start := by
  cases r <;> cases h
  rfl

theorem waiter_eq_done (h : r.waiter = .done) : r = .done := by
  cases r <;> cases h
  rfl

theorem waiter_eq_failed {f : Fault} (h : r.waiter = .failed f) : r = .failed f := by
  cases r <;> cases h
  rfl

theorem next_waiter (h : l.Settled) :
    (next l).waiter = if l.isIdle then .done else .draining := by
  rw [next]
  by_cases hs : l.sessions = []
  · rw [if_pos hs, if_pos (h.isIdle_iff.2 hs)]
    rfl
  · rw [if_neg hs, if_neg (mt h.isIdle_iff.1 hs)]
    rfl

/-- What the waiter of a listener takes notice of is what the rounds come to. -/
theorem settle_waiter (h : l.Settled) (r : Round) :
    (r.settle l).waiter = Waiter.settle l.gate l.isIdle r.waiter := by
  cases r with
  | awaiting start =>
    by_cases hs : start = l.gate.starts ∧ l.gate.stopped
    · rw [settle, if_pos hs, next_waiter h, waiter, Waiter.settle, if_pos hs]
    · rw [settle, if_neg hs, waiter, Waiter.settle, if_neg hs]
  | gathering batch =>
    by_cases hb : ∀ n ∈ batch, n ∉ l.sessions
    · rw [settle, if_pos hb, next_waiter h]
      rfl
    · have hopen : l.sessions ≠ [] := fun hs => hb (by simp [hs])
      rw [settle, if_neg hb, waiter, Waiter.settle, if_neg (mt h.isIdle_iff.1 hopen)]
  | done | failed => rfl

/-- An activity stays as it is, or begins its next round. -/
theorem settle_eq (l : Listener) (r : Round) : r.settle l = r ∨ r.settle l = next l := by
  cases r with
  | awaiting | gathering =>
    rw [settle]
    split
    · exact .inr rfl
    · exact .inl rfl
  | done | failed => exact .inl rfl

/-- An activity gets done only where no session is open. -/
theorem settle_done (h : r.settle l = .done) : r = .done ∨ l.sessions = [] := by
  rcases r.settle_eq l with he | he
  · exact .inl (he.symm.trans h)
  · rw [he, next] at h
    split at h
    · exact .inr ‹_›
    · cases h

/-- No activity fails by waiting. -/
theorem settle_failed {f : Fault} (h : r.settle l = .failed f) : r = .failed f := by
  rcases r.settle_eq l with he | he
  · exact he.symm.trans h
  · rw [he, next] at h
    split at h <;> cases h

/-- An activity that waits for the signal of a start goes on only when that is set. -/
theorem settle_awaiting {start : Nat} (h : (awaiting start).settle l ≠ awaiting start) :
    start = l.gate.starts ∧ l.gate.stopped = true := by
  by_contra hs
  exact h (if_neg hs)

end Round

/-! ### Following an activity -/

namespace Listener

variable {l : Listener} {r : Round}

/-- What an activity has become behind further steps, at the end of each of which it goes on. -/
def follow (l : Listener) (r : Round) : List Step → Round
  | [] => r
  | s :: rest => follow (l.step s).1 (r.settle (l.step s).1) rest

theorem follow_concat (l : Listener) (r : Round) (steps : List Step) (s : Step) :
    l.follow r (steps ++ [s]) = (l.follow r steps).settle (l.after (steps ++ [s])) := by
  induction steps generalizing l r with
  | nil => rfl
  | cons s' rest ih => exact ih (l.step s').1 (r.settle (l.step s').1)

/-- Whether an activity gets done at the end of these steps, and not before. -/
def Ends (l : Listener) (r : Round) (steps : List Step) : Prop :=
  l.follow r steps = .done ∧ ∀ n < steps.length, l.follow r (steps.take n) ≠ .done

/-- An activity that gets done finds no session open. -/
theorem Ends.isIdle {steps : List Step} (h : l.Ends r steps) (hl : l.Steady)
    (hr : r = .done → l.isIdle = true) : (l.after steps).isIdle = true := by
  obtain ⟨hdone, hbefore⟩ := h
  rcases List.eq_nil_or_concat steps with rfl | ⟨front, s, rfl⟩
  · exact hr hdone
  · rw [List.concat_eq_append] at hdone hbefore ⊢
    have hfront := hbefore front.length (by simp)
    rw [List.take_left] at hfront
    rw [follow_concat] at hdone
    exact (hl.after _).toSettled.isIdle_iff.2 ((Round.settle_done hdone).resolve_left hfront)

/-- An activity that has failed began so. -/
theorem follow_failed {steps : List Step} {f : Fault} (h : l.follow r steps = .failed f) :
    r = .failed f := by
  induction steps generalizing l r with
  | nil => exact h
  | cons s rest ih => exact Round.settle_failed (ih h)

theorem follow_of_failed (l : Listener) (f : Fault) (steps : List Step) :
    l.follow (.failed f) steps = .failed f := by
  induction steps generalizing l with
  | nil => rfl
  | cons s rest ih => exact ih (l.step s).1

/-- As long as no other activity takes its place, what a listener reports is the one that is followed. -/
theorem follow_reported {report : Listener → Option Waiter} {begins : Step}
    (hkept : ∀ l s, s ≠ begins → report (l.step s).1
      = (report l).map (Waiter.settle (l.step s).1.gate (l.step s).1.isIdle))
    (hl : l.Steady) (hr : report l = some r.waiter) {steps : List Step} (hs : begins ∉ steps) :
    report (l.after steps) = some (l.follow r steps).waiter := by
  induction steps generalizing l r with
  | nil => exact hr
  | cons s rest ih =>
    rw [List.mem_cons, not_or] at hs
    have hstep := hkept l s (Ne.symm hs.1)
    rw [hr, Option.map_some, ← Round.settle_waiter (hl.step s).toSettled] at hstep
    exact ih (hl.step s) hstep hs.2

/-- An activity that awaits the signal of a start gets beyond that only when a stop has followed it. -/
theorem follow_signalled {t : Trace} {k : Nat} (ht : Gate.Shifts (fun _ => True) {} t l.gate)
    (h : r = .awaiting k ∨ (∃ f, r = .failed f) ∨ t.Signalled k) (steps : List Step) :
    l.follow r steps = .awaiting k ∨ (∃ f, l.follow r steps = .failed f)
      ∨ (t ++ l.transcript steps).Signalled k := by
  induction steps generalizing l r t with
  | nil => simpa [follow] using h
  | cons s rest ih =>
    have ht' := ht.trans (step_shifts (l := l) (s := s) trivial)
    rw [transcript_cons, ← List.append_assoc]
    refine ih ht' ?_
    rcases h with rfl | ⟨f, rfl⟩ | h
    · by_cases hw : (Round.awaiting k).settle (l.step s).1 = .awaiting k
      · exact .inl hw
      · obtain ⟨rfl, hstopped⟩ := Round.settle_awaiting hw
        exact .inr (.inr (ht'.signalled.2.2 hstopped))
    · exact .inr (.inl ⟨f, rfl⟩)
    · exact .inr (.inr (h.append _))

/-! ### Who changes the waiters -/

theorem start_waiters (l : Listener) :
    l.start.state.serving = l.serving ∧ l.start.state.closing = l.closing := by
  rw [start]
  cases l.binding.bind l.port <;> exact ⟨rfl, rfl⟩

/-- Dropping sessions changes neither the gate nor who serves. -/
theorem dropSessions_gate (xs : List Nat) (l : Listener) :
    (dropSessions xs l).1.gate = l.gate ∧ (dropSessions xs l).1.serving = l.serving := by
  induction xs generalizing l with
  | nil => exact ⟨rfl, rfl⟩
  | cons n rest ih =>
    cases hc : l.connections[n]? with
    | none =>
      rw [dropSessions_of_none hc]
      exact ih l
    | some c =>
      cases hf : c.session.faults.abort with
      | some f =>
        rw [dropSessions_of_fault hc hf]
        exact ⟨rfl, rfl⟩
      | none =>
        rw [dropSessions_of_some hc hf]
        exact ih (l.put n (c.drop l.gate))

/-- The drop of a session fails with the fault that is set for it. -/
theorem abort_error (s : Session) : s.abort.error = s.faults.abort := by
  rw [Session.abort]
  cases s.faults.abort <;> rfl

/-- Dropping sessions fails only because a session does. -/
theorem dropSessions_error (xs : List Nat) {f : Fault} (h : (dropSessions xs l).2.2 = some f) :
    ∃ n ∈ xs, ∃ c, l.connections[n]? = some c ∧ c.session.abort.error = some f := by
  induction xs generalizing l with
  | nil => cases h
  | cons n rest ih =>
    cases hc : l.connections[n]? with
    | none =>
      rw [dropSessions_of_none hc] at h
      obtain ⟨m, hm, c', hc', hf⟩ := ih h
      exact ⟨m, .tail _ hm, c', hc', hf⟩
    | some c =>
      cases hf : c.session.faults.abort with
      | some f' =>
        rw [dropSessions_of_fault hc hf] at h
        exact ⟨n, .head _, c, hc, (abort_error c.session).trans (hf.trans h)⟩
      | none =>
        rw [dropSessions_of_some hc hf] at h
        obtain ⟨m, hm, c', hc', hf'⟩ := ih h
        obtain ⟨hlt, -⟩ := List.getElem?_eq_some_iff.1 hc
        have hmn : m ≠ n := by
          rintro rfl
          obtain rfl := Option.some.inj ((get_put_self hlt _).symm.trans hc')
          rw [abort_error, c.drop_faults, hf] at hf'
          cases hf'
        exact ⟨m, .tail _ hm, c', (get_put_of_ne hmn l _).symm.trans hc', hf'⟩

/-- Only a step that begins an activity changes which one is reported. -/
theorem act_waiters (l : Listener) (s : Step) :
    (s ≠ .serve → (l.act s).1.serving = l.serving)
      ∧ (s ≠ .close → (l.act s).1.closing = l.closing) := by
  cases ht : s.target with
  | some n =>
    rw [act_of_target ht, onConnection]
    cases l.connections[n]?.bind (s.reaction l.directive l.gate) with
    | none => exact ⟨fun _ => rfl, fun _ => rfl⟩
    | some t => exact ⟨fun _ => rfl, fun _ => rfl⟩
  | none =>
    cases s with
    | start => exact ⟨fun _ => l.start_waiters.1, fun _ => l.start_waiters.2⟩
    | serve =>
      refine ⟨fun h => absurd rfl h, fun _ => ?_⟩
      simp only [act, serve]
      split
      · rfl
      · exact l.start_waiters.2
    | close =>
      refine ⟨fun _ => ?_, fun h => absurd rfl h⟩
      simp only [act, close]
      cases l.shut.error with
      | some f => rfl
      | none => exact (dropSessions_gate l.openSessions l.shut.state).2
    | connect peer faults =>
      simp only [act, connect]
      split
      · exact ⟨fun _ => rfl, fun _ => rfl⟩
      · exact ⟨fun _ => rfl, fun _ => rfl⟩
    | shutdown | setCloseFault => exact ⟨fun _ => rfl, fun _ => rfl⟩
    | receive | endInbound | reset | wake | setFault => cases ht

theorem step_serving (l : Listener) (s : Step) (hs : s ≠ .serve) : (l.step s).1.serving
    = l.serving.map (Waiter.settle (l.step s).1.gate (l.step s).1.isIdle) :=
  congrArg (Option.map _) ((l.act_waiters s).1 hs)

theorem step_closing (l : Listener) (s : Step) (hs : s ≠ .close) : (l.step s).1.closing
    = l.closing.map (Waiter.settle (l.step s).1.gate (l.step s).1.isIdle) :=
  congrArg (Option.map _) ((l.act_waiters s).2 hs)

/-! ### How an activity begins -/

/-- An activity that serves awaits the signal of the last start, or fails as its own start does. -/
theorem serve_serving (l : Listener) :
    l.serve.1.serving = some (.awaiting l.serve.1.gate.starts)
      ∨ ∃ f, l.serve.1.serving = some (.failed f) ∧ l.gate.acceptor = none
          ∧ l.start.error = some f := by
  cases ha : l.gate.acceptor with
  | some a =>
    rw [serve, if_pos (by rw [ha]; rfl)]
    exact .inl rfl
  | none =>
    have hserve : l.serve.1 = { l.start.state with
        serving := some (l.start.error.elim (.awaiting l.start.state.gate.starts) .failed) } := by
      rw [serve, if_neg (by rw [ha]; decide)]
    rw [hserve]
    cases he : l.start.error with
    | some f => exact .inr ⟨f, rfl, rfl, rfl⟩
    | none => exact .inl rfl

/-- A close fails only because the stop does or the drop of a session. -/
theorem close_error {f : Fault} (h : l.close.2.2 = some f) :
    l.shut.error = some f ∨ ∃ n ∈ l.sessions, ∃ c,
      l.connections[n]? = some c ∧ c.session.abort.error = some f := by
  rw [close] at h
  cases he : l.shut.error with
  | some f' =>
    rw [he] at h
    exact .inl h
  | none =>
    rw [he] at h
    obtain ⟨n, hn, c, hc⟩ := dropSessions_error (l := l.shut.state) l.openSessions h
    exact .inr ⟨n, mem_openSessions.1 hn, c, hc⟩

/-- Behind a close that does not fail connections are not accepted. -/
theorem close_isListening (h : l.close.2.2 = none) : l.close.1.isListening = false := by
  rw [close] at h ⊢
  cases he : l.shut.error with
  | some f =>
    rw [he] at h
    cases h
  | none =>
    have hgate := (dropSessions_gate l.openSessions l.shut.state).1
    simp only [isListening, hgate]
    exact Gate.shut_isListening he

/-! ### Whole runs -/

/-- An activity that step `begins` begins, followed by rounds through later steps. It is the one that is
reported unless another has taken its place; where it gets done no connection is handled and `behind`
holds; and it fails only with a fault that `raised` holds of. -/
structure Waits (l : Listener) (begins : Step) (report : Listener → Option Waiter)
    (later : List Step) (behind : Prop) (raised : Fault → Prop) : Prop where
  begun : ∃ r : Round, report (l.step begins).1 = some r.waiter
  reported : ∀ r : Round, report (l.step begins).1 = some r.waiter → begins ∉ later →
    report ((l.step begins).1.after later) = some ((l.step begins).1.follow r later).waiter
  ends : ∀ r : Round, report (l.step begins).1 = some r.waiter → (l.step begins).1.Ends r later →
    ((l.step begins).1.after later).isIdle = true ∧ behind
  fails : ∀ (r : Round) (f : Fault), report (l.step begins).1 = some r.waiter →
    (l.step begins).1.follow r later = .failed f → raised f

theorem Steady.waits (h : l.Steady) {begins : Step} {report : Listener → Option Waiter}
    {later : List Step} {behind : Prop} {raised : Fault → Prop}
    (hkept : ∀ l s, s ≠ begins → report (l.step s).1
      = (report l).map (Waiter.settle (l.step s).1.gate (l.step s).1.isIdle))
    {r₀ : Round} (hr₀ : report (l.step begins).1 = some (r₀.settle (l.step begins).1).waiter)
    (hopen : r₀ ≠ .done) (hfailed : ∀ f, r₀ = .failed f → raised f)
    (hdone : ∀ r : Round, r.waiter = (r₀.settle (l.step begins).1).waiter →
      (l.step begins).1.follow r later = .done → behind) :
    l.Waits begins report later behind raised where
  begun := ⟨_, hr₀⟩
  reported r hr hs := follow_reported hkept (h.step begins) hr hs
  ends r hr he := by
    have hw : r.waiter = (r₀.settle (l.step begins).1).waiter := Option.some.inj (hr.symm.trans hr₀)
    refine ⟨he.isIdle (h.step begins) ?_, hdone r hw he.1⟩
    rintro rfl
    have hnone := (Round.settle_done (Round.waiter_eq_done hw.symm)).resolve_left hopen
    exact (h.step begins).toSettled.isIdle_iff.2 hnone
  fails r f hr hf := by
    have hw : r.waiter = (r₀.settle (l.step begins).1).waiter := Option.some.inj (hr.symm.trans hr₀)
    obtain rfl := follow_failed hf
    exact hfailed f (Round.settle_failed (Round.waiter_eq_failed hw.symm))

/-- What a serving activity is when it begins: it awaits the last start, or has failed with its own. -/
theorem Steady.waits_serving (h : l.Steady) {t : Trace} {later : List Step}
    (ht : Gate.Shifts (fun _ => True) {} t (l.step .serve).1.gate) :
    l.Waits .serve serving later ((t ++ (l.step .serve).1.transcript later).Signalled t.starts)
      fun f => l.gate.acceptor = none ∧ l.start.error = some f := by
  let l' := (l.step .serve).1
  have hnoticed : ∀ w, l.serve.1.serving = some w →
      l'.serving = some (Waiter.settle l'.gate l'.isIdle w) := fun w hw =>
    congrArg (Option.map (Waiter.settle l'.gate l'.isIdle)) hw
  have hsettled : l'.Settled := (h.step .serve).toSettled
  rcases l.serve_serving with hw | ⟨f, hw, ha, he⟩
  · let r₀ : Round := .awaiting l'.gate.starts
    have hr₀ : l'.serving = some (r₀.settle l').waiter := by
      rw [Round.settle_waiter hsettled]
      exact hnoticed _ hw
    refine h.waits step_serving hr₀ nofun nofun fun r hr hdone => ?_
    have hbegins : r = r₀ ∨ (∃ f, r = .failed f) ∨ t.Signalled l'.gate.starts := by
      by_cases hstill : r₀.settle l' = r₀
      · rw [hstill] at hr
        exact .inl (Round.waiter_eq_awaiting hr)
      · exact .inr (.inr (ht.signalled.2.2 (Round.settle_awaiting hstill).2))
    rw [ht.signalled.1]
    rcases follow_signalled ht hbegins later with hr | ⟨f, hr⟩ | hr
    · cases hdone.symm.trans hr
    · cases hdone.symm.trans hr
    · exact hr
  · have hfailed : l'.serving = some ((Round.failed f).settle l').waiter := hnoticed _ hw
    refine h.waits step_serving hfailed nofun ?_ fun r hr hdone => ?_
    · rintro f' ⟨⟩
      exact ⟨ha, he⟩
    · rw [Round.waiter_eq_failed hr, follow_of_failed] at hdone
      cases hdone

/-- What a closing activity is when it begins: it waits for the sessions of a listener that is stopped, or
has failed with the stop or a drop. -/
theorem Steady.waits_closing (h : l.Steady) (later : List Step) :
    l.Waits .close closing later
      (((l.step .close).1.transcript later).Unopened →
        ((l.step .close).1.after later).isListening = false)
      fun f => l.shut.error = some f ∨ ∃ n ∈ l.sessions, ∃ c,
        l.connections[n]? = some c ∧ c.session.abort.error = some f := by
  let l' := (l.step .close).1
  have hclosing : l'.closing
      = some (Waiter.settle l'.gate l'.isIdle (l.close.2.2.elim .draining .failed)) := rfl
  have hsettled : l'.Settled := (h.step .close).toSettled
  cases he : l.close.2.2 with
  | none =>
    rw [he] at hclosing
    have hr₀ : l'.closing = some ((Round.gathering l'.sessions).settle l').waiter := by
      rw [Round.settle_waiter hsettled]
      exact hclosing
    refine h.waits step_closing hr₀ nofun nofun fun r hr hdone hunopened => ?_
    have hl : l'.gate.isListening = false := close_isListening he
    have hshifts : Gate.Shifts (fun _ => True) l'.gate (l'.transcript later) (l'.after later).gate :=
      after_shifts fun _ _ => trivial
    exact (hshifts.stays_shut hl hunopened).1
  | some f =>
    rw [he] at hclosing
    have hfailed : l'.closing = some ((Round.failed f).settle l').waiter := hclosing
    refine h.waits step_closing hfailed nofun ?_ fun r hr hdone => ?_
    · rintro f' ⟨⟩
      exact close_error he
    · rw [Round.waiter_eq_failed hr, follow_of_failed] at hdone
      cases hdone

/-- Who waits for the listener waits to the end. When an activity that serves gets done, no connection is
handled and a stop has followed the last start in front of it; when one that closes does, no connection
is handled, nor are any accepted unless a start has succeeded since. The one fails only as its own start
did, the other only as its own stop or its own drop of a session did. -/
theorem waits_to_the_end (host : Option Text) (port : Option Int) (directive : Option Directive)
    (binding : Binding) (order : SetOrder) (before later : List Step) :
    let new := Listener.new host port directive binding order
    let l := new.after before
    l.Waits .serve serving later
        ((new.transcript (before ++ .serve :: later)).Signalled
          (new.transcript (before ++ [.serve])).starts)
        (fun f => l.gate.acceptor = none ∧ l.start.error = some f)
      ∧ l.Waits .close closing later
        (((l.step .close).1.transcript later).Unopened →
          ((l.step .close).1.after later).isListening = false)
        fun f => l.shut.error = some f ∨ ∃ n ∈ l.sessions, ∃ c,
          l.connections[n]? = some c ∧ c.session.abort.error = some f := by
  intro new l
  have hl : l.Steady := (new_steady host port directive binding order).after before
  have hshifts : Gate.Shifts (fun _ => True) {} (new.transcript (before ++ [.serve]))
      (new.after (before ++ [.serve])).gate := after_shifts (l := new) fun _ _ => trivial
  constructor
  · have hwhole : new.transcript (before ++ .serve :: later)
        = new.transcript (before ++ [.serve]) ++ (l.step .serve).1.transcript later := by
      simp [l]
    rw [after_append] at hshifts
    rw [hwhole]
    exact hl.waits_serving hshifts
  · exact hl.waits_closing later

/-- A session joins behind another start while an older one is gathered; and a close that fails with the
drop of its only session. -/
theorem waits_to_the_end_joined :
    let new := Listener.new none (some 0) none .asked .ofAcceptance
    let before : List Step := [.start, .connect none {}]
    let later : List Step :=
      [.shutdown, .start, .connect none {}, .reset 0 .missingPart, .shutdown, .endInbound 1]
    let serves := ((new.after before).step .serve).1
    let l := new.after [.start, .connect none { abort := some .alreadyClosed }]
    serves.serving = some (.awaiting 1) ∧ serves.Ends (.awaiting 1) later
      ∧ serves.follow (.awaiting 1) (later.take 4) = .gathering [1]
      ∧ (serves.after later).isIdle = true
      ∧ (new.transcript (before ++ .serve :: later)).Signalled 1
      ∧ (l.step .close).1.closing = some (.failed .alreadyClosed)
      ∧ (l.shut.error = some .alreadyClosed ∨ ∃ n ∈ l.sessions, ∃ c,
          l.connections[n]? = some c ∧ c.session.abort.error = some .alreadyClosed) := by
  intro new before later serves l
  have hserving : serves.serving = some (.awaiting 1) := by decide
  have hends : serves.Ends (.awaiting 1) later := ⟨by decide, by decide⟩
  have hclosing : (l.step .close).1.closing = some (.failed .alreadyClosed) := by decide
  obtain ⟨hidle, hsignalled⟩ :=
    (waits_to_the_end none (some 0) none .asked .ofAcceptance before later).1.ends (.awaiting 1)
      hserving hends
  have hraised := (waits_to_the_end none (some 0) none .asked .ofAcceptance
    [.start, .connect none { abort := some .alreadyClosed }] []).2.fails (.failed .alreadyClosed)
    .alreadyClosed hclosing rfl
  exact ⟨hserving, hends, by decide, hidle, hsignalled, hclosing, hraised⟩

end Listener
end ScriptedServer
