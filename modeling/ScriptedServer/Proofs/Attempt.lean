import ScriptedServer.Execution

/-!
What one attempt at an action can come to. `Action.Attempt` lists the outcomes, each with the
condition it arises under and the whole of what it does: the stage behind it, what is seen, and the
trouble. `attempt_spec` says that there are no others, so that what holds of every outcome holds of
every attempt. The laws behind it are the ones that whole directives inherit: faults are never
changed, the gate is moved only by a visible stop, and what is seen belongs to directives alone.
-/

namespace ScriptedServer

/-- A call with the announcement of its action in front. -/
def Action.announced (a : Action) (c : Call Stage Trouble) : Call Stage Trouble :=
  { c with events := .log (.executing a) :: c.events }

/-- The output that an action of a writing kind asks for, and that the supply delivers. -/
inductive Action.Writes (a : Action) (supply : Supply) : Output → Prop
  | send (hk : a.kind = some .send) (hs : a.param.bind supply.encoding = none) :
      Writes a supply (.bytes (Action.payload a.param))
  | data {n : Nat} (hk : a.kind = some .data) (hn : a.count = .ok n)
      (hs : supply.random n = none) : Writes a supply (.random n)

/-- The fault with which the supply fails the output that an action of a writing kind asks for. -/
inductive Action.Lacks (a : Action) (supply : Supply) : Fault → Prop
  | send {f : Fault} (hk : a.kind = some .send) (hs : a.param.bind supply.encoding = some f) :
      Lacks a supply f
  | data {n : Nat} {f : Fault} (hk : a.kind = some .data) (hn : a.count = .ok n)
      (hs : supply.random n = some f) : Lacks a supply f

theorem Action.Lacks.unique {a : Action} {supply : Supply} {f f' : Fault} (h : a.Lacks supply f)
    (h' : a.Lacks supply f') : f = f' := by
  cases h with
  | send hk hs =>
    cases h' with
    | send _ hs' => exact Option.some.inj (hs.symm.trans hs')
    | data hk' => cases hk.symm.trans hk'
  | data hk hn hs =>
    cases h' with
    | send hk' => cases hk.symm.trans hk'
    | data _ hn' hs' =>
      cases hn.symm.trans hn'
      exact Option.some.inj (hs.symm.trans hs')

/-- What the supply delivers it does not fail to. -/
theorem Action.Writes.not_lacks {a : Action} {supply : Supply} {out : Output}
    (h : a.Writes supply out) (f : Fault) : ¬ a.Lacks supply f := by
  intro hl
  cases h with
  | send hk hs =>
    cases hl with
    | send _ hs' => cases hs.symm.trans hs'
    | data hk' => cases hk.symm.trans hk'
  | data hk hn hs =>
    cases hl with
    | send hk' => cases hk.symm.trans hk'
    | data _ hn' hs' =>
      cases hn.symm.trans hn'
      cases hs.symm.trans hs'

/-- Whether an action asks for output: what a parameter spells, or random bytes in a number that can be
read. -/
def Action.Asks (a : Action) : Prop :=
  a.kind = some .send ∨ a.kind = some .data ∧ ∃ n, a.count = .ok n

/-- What an action asks for the supply delivers, or fails to. -/
theorem Action.Asks.writes_or_lacks {a : Action} (h : a.Asks) (supply : Supply) :
    (∃ out, a.Writes supply out) ∨ ∃ f, a.Lacks supply f := by
  rcases h with hk | ⟨hk, n, hn⟩
  · cases hs : a.param.bind supply.encoding with
    | some f => exact .inr ⟨f, .send hk hs⟩
    | none => exact .inl ⟨_, .send hk hs⟩
  · cases hs : supply.random n with
    | some f => exact .inr ⟨f, .data hk hn hs⟩
    | none => exact .inl ⟨_, .data hk hn hs⟩

/-- Whether an event belongs to the carrying out of a directive. -/
def Event.ofDirective : Event → Bool
  | .write _ | .writeEof | .abort | .sleep _ | .serverClose => true
  | .log (.executing _) | .log (.actionError _) | .log .stoppedListening => true
  | .log .nothingToDo | .log .nothingToShut => true
  | _ => false

/-- The outcomes of an attempt. -/
inductive Action.Attempt (a : Action) (st : Stage) : Call Stage Trouble → Prop
  | unknown (hk : a.kind = none) :
      Attempt a st { state := st, error := some (.error (.unknown a.name)) }
  | uncounted {t : Trouble} (hk : a.kind = some .data ∨ a.kind = some .wait)
      (hn : a.count = .error t) :
      Attempt a st { state := st, events := [.log (.executing a)], error := some t }
  | unsupplied {f : Fault} (hl : a.Lacks st.session.supply f) :
      Attempt a st { state := st, events := [.log (.executing a)], error := some (.fault f) }
  | refused {out : Output} (hw : a.Writes st.session.supply out) (hc : st.session.isClosing = true) :
      Attempt a st
        { state := st, events := [.log (.executing a)]
          error := some (Trouble.ofFault a .writeAfterClose) }
  | unwritten {out : Output} {f : Fault} (hw : a.Writes st.session.supply out)
      (hc : st.session.isClosing = false) (hf : st.session.faults.write = some f) :
      Attempt a st
        { state := st, events := [.log (.executing a)], error := some (Trouble.ofFault a f) }
  | written {out : Output} (hw : a.Writes st.session.supply out) (hc : st.session.isClosing = false)
      (hf : st.session.faults.write = none) :
      Attempt a st
        { state := st, events := [.log (.executing a), .write out]
          error := st.session.faults.drain.map (Trouble.ofFault a) }
  | closedBefore (hk : a.kind = some .close) (hc : st.session.outputClosed = true) :
      Attempt a st { state := st, events := [.log (.executing a)] }
  | tornDown (hk : a.kind = some .close) (hc : st.session.outputClosed = false)
      (hd : st.session.closing = true) :
      Attempt a st
        { state := st, events := [.log (.executing a)]
          error := some (Trouble.ofFault a .alreadyClosed) }
  | unended {f : Fault} (hk : a.kind = some .close) (hc : st.session.outputClosed = false)
      (hd : st.session.closing = false) (hf : st.session.faults.writeEof = some f) :
      Attempt a st
        { state := { st with session.outputClosed := true }, events := [.log (.executing a)]
          error := some (Trouble.ofFault a f) }
  | ended (hk : a.kind = some .close) (hc : st.session.outputClosed = false)
      (hd : st.session.closing = false) (hf : st.session.faults.writeEof = none) :
      Attempt a st
        { state := { st with session.outputClosed := true }
          events := [.log (.executing a), .writeEof]
          error := st.session.faults.drain.map (Trouble.ofFault a) }
  | tooLong {n : Nat} (hk : a.kind = some .wait) (hn : a.count = .ok n)
      (hq : Binary64.ofRatio? n 1000 = none) :
      Attempt a st
        { state := st, events := [.log (.executing a)], error := some (.fault .quotientTooLarge) }
  | slept {n : Nat} {duration : Binary64} (hk : a.kind = some .wait) (hn : a.count = .ok n)
      (hq : Binary64.ofRatio? n 1000 = some duration) :
      Attempt a st { state := st, events := [.log (.executing a), .sleep duration] }
  | alone (hk : a.kind = some .shut) (hg : st.gate = none) :
      Attempt a st { state := st, events := [.log (.executing a), .log .nothingToShut] }
  | shutBefore {g : Gate} (hk : a.kind = some .shut) (hg : st.gate = some g)
      (hl : g.isListening = false) :
      Attempt a st { state := st, events := [.log (.executing a)] }
  | unshut {g : Gate} {acceptor : Acceptor} {f : Fault} (hk : a.kind = some .shut)
      (hg : st.gate = some g) (ha : g.acceptor = some acceptor) (hs : acceptor.serving = true)
      (hf : acceptor.closeFault = some f) :
      Attempt a st
        { state := st, events := [.log (.executing a)], error := some (Trouble.ofFault a f) }
  | shut {g : Gate} {acceptor : Acceptor} (hk : a.kind = some .shut) (hg : st.gate = some g)
      (ha : g.acceptor = some acceptor) (hs : acceptor.serving = true)
      (hf : acceptor.closeFault = none) :
      Attempt a st
        { state := { st with
            gate := some
              { g with acceptor := some { acceptor with serving := false }, stopped := true } }
          events := [.log (.executing a), .serverClose, .log .stoppedListening] }

/-! ### The calls behind an attempt, case by case -/

namespace Session

variable {s : Session}

theorem close_of_outputClosed (hc : s.outputClosed = true) : s.close = { state := s } := by
  simp only [close, hc, if_true]

theorem close_of_closing (hc : s.outputClosed = false) (hd : s.closing = true) :
    s.close = { state := s, error := some .alreadyClosed } := by
  simp only [close, hc, hd, if_true, Bool.false_eq_true, if_false]

theorem close_of_fault (hc : s.outputClosed = false) (hd : s.closing = false) {f : Fault}
    (hf : s.faults.writeEof = some f) :
    s.close = { state := { s with outputClosed := true }, error := some f } := by
  simp only [close, hc, hd, hf, Bool.false_eq_true, if_false]

theorem close_of_open (hc : s.outputClosed = false) (hd : s.closing = false)
    (hf : s.faults.writeEof = none) :
    s.close =
      { state := { s with outputClosed := true }, events := [.writeEof]
        error := s.faults.drain } := by
  simp only [close, hc, hd, hf, Bool.false_eq_true, if_false]

/-- What a close comes to. -/
theorem close_cases (s : Session) :
    (s.outputClosed = true ∧ s.close = { state := s })
      ∨ (s.outputClosed = false ∧ s.closing = true
          ∧ s.close = { state := s, error := some .alreadyClosed })
      ∨ (s.isClosing = false ∧ ∃ f, s.faults.writeEof = some f
          ∧ s.close = { state := { s with outputClosed := true }, error := some f })
      ∨ (s.isClosing = false ∧ s.faults.writeEof = none
          ∧ s.close = { state := { s with outputClosed := true }, events := [.writeEof]
                        error := s.faults.drain }) := by
  by_cases hc : s.outputClosed = true
  · exact .inl ⟨hc, close_of_outputClosed hc⟩
  · rw [Bool.not_eq_true] at hc
    by_cases hd : s.closing = true
    · exact .inr (.inl ⟨hc, hd, close_of_closing hc hd⟩)
    · rw [Bool.not_eq_true] at hd
      have hopen : s.isClosing = false := by rw [isClosing, hc, hd]; rfl
      cases hf : s.faults.writeEof with
      | some f => exact .inr (.inr (.inl ⟨hopen, f, rfl, close_of_fault hc hd hf⟩))
      | none => exact .inr (.inr (.inr ⟨hopen, rfl, close_of_open hc hd hf⟩))

end Session

namespace Gate

/-- What a stop depends on: whether connections are accepted, and the fault it is to fail with. -/
def face (g : Gate) : Option (Bool × Option Fault) :=
  g.acceptor.map fun a => (a.serving, a.closeFault)

/-- A gate that was started, and that a stop would not fail at. -/
def Sound (g : Gate) : Prop := ∃ serving, g.face = some (serving, none)

variable {g : Gate} {acceptor : Acceptor}

theorem isListening_of_face {serving : Bool} {f : Option Fault} (h : g.face = some (serving, f)) :
    g.isListening = serving := by
  cases ha : g.acceptor with
  | none => simp [face, ha] at h
  | some acceptor =>
    have hp : acceptor.serving = serving ∧ acceptor.closeFault = f := by simpa [face, ha] using h
    rw [isListening, ha]
    exact hp.1

theorem shut_of_not_listening (hl : g.isListening = false) : g.shut = { state := g } := by
  rw [shut]
  cases ha : g.acceptor with
  | none => rfl
  | some acceptor =>
    have hs : acceptor.serving = false := by simpa [isListening, ha] using hl
    simp only [hs, Bool.false_eq_true, if_false]

theorem shut_of_fault (ha : g.acceptor = some acceptor) (hs : acceptor.serving = true) {f : Fault}
    (hf : acceptor.closeFault = some f) : g.shut = { state := g, error := some f } := by
  simp only [shut, ha, hs, hf, if_true]

theorem shut_of_listening (ha : g.acceptor = some acceptor) (hs : acceptor.serving = true)
    (hf : acceptor.closeFault = none) :
    g.shut =
      { state :=
          { g with acceptor := some { acceptor with serving := false }, stopped := true }
        events := [.serverClose, .log .stoppedListening] } := by
  simp only [shut, ha, hs, hf, if_true]

/-- What is seen of a stop: nothing, or all of it. -/
theorem shut_events (g : Gate) :
    g.shut.events = [] ∨ g.shut.events = [.serverClose, .log .stoppedListening] := by
  cases hl : g.isListening with
  | false => exact .inl (by rw [shut_of_not_listening hl])
  | true =>
    obtain ⟨acceptor, ha, hs⟩ := (Option.any_eq_true _ _).1 hl
    cases hf : acceptor.closeFault with
    | some f => exact .inl (by rw [shut_of_fault ha hs hf])
    | none => exact .inr (by rw [shut_of_listening ha hs hf])

/-- A stop that is not seen leaves the gate alone. -/
theorem shut_quiet (h : .serverClose ∉ g.shut.events) : g.shut.state = g := by
  cases hl : g.isListening with
  | false => rw [shut_of_not_listening hl]
  | true =>
    obtain ⟨acceptor, ha, hs⟩ := (Option.any_eq_true _ _).1 hl
    cases hf : acceptor.closeFault with
    | some f => rw [shut_of_fault ha hs hf]
    | none =>
      rw [shut_of_listening ha hs hf] at h
      simp at h

end Gate

namespace Action

/-! ### Counts -/

section Count

variable {a : Action}

theorem count_ok_iff {n : Nat} :
    a.count = .ok n ↔ ∃ p, a.param = some p ∧ Numeral.isNumeral p = true
      ∧ p.length ≤ Numeral.digitLimit ∧ Numeral.value p = n := by
  rw [count]
  cases a.param with
  | none => simp
  | some p =>
    simp only [Numeral.read]
    cases hn : Numeral.isNumeral p with
    | false => simp [hn]
    | true => by_cases hl : p.length ≤ Numeral.digitLimit <;> simp [hl, hn]

theorem count_fault_iff {f : Fault} :
    a.count = .error (.fault f) ↔ ∃ p, a.param = some p ∧ Numeral.isNumeral p = true
      ∧ Numeral.digitLimit < p.length ∧ Fault.tooManyDigits p.length = f := by
  rw [count]
  cases a.param with
  | none => simp
  | some p =>
    simp only [Numeral.read]
    cases hn : Numeral.isNumeral p with
    | false => simp [hn]
    | true =>
      by_cases hl : p.length ≤ Numeral.digitLimit
      · simp [hl, Nat.not_lt.2 hl]
      · simp [hl, hn, Nat.lt_of_not_le hl]

theorem count_error_iff {e : ActionError} :
    a.count = .error (.error e) ↔ (∀ p, a.param = some p → Numeral.isNumeral p = false)
      ∧ ActionError.invalidParameter a.name a.param = e := by
  rw [count]
  cases a.param with
  | none => simp
  | some p =>
    simp only [Numeral.read]
    cases hn : Numeral.isNumeral p with
    | false => simp [hn]
    | true => by_cases hl : p.length ≤ Numeral.digitLimit <;> simp [hl, hn]

end Count

/-! ### Every attempt is one of them -/

/-- A write made for an action is refused, fails, or is seen. -/
theorem attempt_write {a : Action} {st : Stage} {out : Output}
    (hw : a.Writes st.session.supply out) :
    Attempt a st (a.announced (st.onSession a (st.session.write out))) := by
  rw [Session.write]
  cases hc : st.session.isClosing with
  | true => exact .refused hw hc
  | false =>
    cases hf : st.session.faults.write with
    | some f => exact .unwritten hw hc hf
    | none => exact .written hw hc hf

/-- A close made for an action. -/
theorem attempt_close {a : Action} (st : Stage) (hk : a.kind = some .close) :
    Attempt a st (a.announced (st.onSession a st.session.close)) := by
  cases hc : st.session.outputClosed with
  | true =>
    rw [Session.close_of_outputClosed hc]
    exact .closedBefore hk hc
  | false =>
    cases hd : st.session.closing with
    | true =>
      rw [Session.close_of_closing hc hd]
      exact .tornDown hk hc hd
    | false =>
      cases hf : st.session.faults.writeEof with
      | some f =>
        rw [Session.close_of_fault hc hd hf]
        exact .unended hk hc hd hf
      | none =>
        rw [Session.close_of_open hc hd hf]
        exact .ended hk hc hd hf

/-- A stop of the listener made for an action. -/
theorem attempt_shut {a : Action} {st : Stage} {g : Gate} (hk : a.kind = some .shut)
    (hg : st.gate = some g) : Attempt a st (a.announced (st.onGate a g.shut)) := by
  have hst : { st with gate := some g } = st := by rw [← hg]
  cases hl : g.isListening with
  | false =>
    rw [Gate.shut_of_not_listening hl, Stage.onGate, hst]
    exact .shutBefore hk hg hl
  | true =>
    obtain ⟨acceptor, ha, hs⟩ := (Option.any_eq_true _ _).1 hl
    cases hf : acceptor.closeFault with
    | some f =>
      rw [Gate.shut_of_fault ha hs hf, Stage.onGate, hst]
      exact .unshut hk hg ha hs hf
    | none =>
      rw [Gate.shut_of_listening ha hs hf]
      exact .shut hk hg ha hs hf

/-- An attempt comes to one of the outcomes. -/
theorem attempt_spec (a : Action) (st : Stage) : Attempt a st (a.attempt st) := by
  rw [attempt]
  cases hk : a.kind with
  | none => exact .unknown hk
  | some k =>
    cases k with
    | close => exact attempt_close st hk
    | send =>
      cases hs : a.param.bind st.session.supply.encoding with
      | some f => simp only [perform, hs]; exact .unsupplied (.send hk hs)
      | none => simp only [perform, hs]; exact attempt_write (.send hk hs)
    | data =>
      cases hn : a.count with
      | error t => simp only [perform, hn]; exact .uncounted (.inl hk) hn
      | ok n =>
        cases hs : st.session.supply.random n with
        | some f => simp only [perform, hn, hs]; exact .unsupplied (.data hk hn hs)
        | none => simp only [perform, hn, hs]; exact attempt_write (.data hk hn hs)
    | wait =>
      cases hn : a.count with
      | error t => simp only [perform, hn]; exact .uncounted (.inr hk) hn
      | ok n =>
        cases hq : Binary64.ofRatio? n 1000 with
        | none => simp only [perform, hn, hq]; exact .tooLong hk hn hq
        | some duration => simp only [perform, hn, hq]; exact .slept hk hn hq
    | shut =>
      cases hg : st.gate with
      | none => simp only [perform, hg]; exact .alone hk hg
      | some g => simp only [perform, hg]; exact attempt_shut hk hg

/-- An action whose output the supply does not deliver is announced, and left by the supply's fault. -/
theorem attempt_unsupplied {a : Action} {st : Stage} {f : Fault}
    (hl : a.Lacks st.session.supply f) :
    a.attempt st = { state := st, events := [.log (.executing a)], error := some (.fault f) } := by
  cases hl with
  | send hk hs => simp only [attempt, hk, perform, hs]
  | data hk hn hs => simp only [attempt, hk, perform, hn, hs]

/-! ### What an attempt leaves alone -/

variable {a : Action} {st : Stage} {c : Call Stage Trouble}

/-- Of the session an attempt changes at most whether the outbound side was ended. -/
theorem Attempt.session (h : Attempt a st c) :
    ∃ ended, c.state.session = { st.session with outputClosed := ended } := by
  cases h <;> exact ⟨_, rfl⟩

/-- The supply stays as it is. -/
theorem Attempt.supply (h : Attempt a st c) : c.state.session.supply = st.session.supply := by
  obtain ⟨ended, hs⟩ := h.session
  rw [hs]
  rfl

/-- The gate is moved only by a stop that is seen. -/
theorem Attempt.gate (h : Attempt a st c) (hs : .serverClose ∉ c.events) :
    c.state.gate = st.gate := by
  cases h with
  | shut => simp at hs
  | _ => rfl

/-- A sound gate stays sound. -/
theorem Attempt.sound (h : Attempt a st c) {g : Gate} (hg : st.gate = some g) (hs : g.Sound) :
    ∃ g', c.state.gate = some g' ∧ g'.Sound := by
  cases h with
  | shut _ _ _ _ hf => exact ⟨_, rfl, false, by rw [Gate.face, ← hf]; rfl⟩
  | _ => exact ⟨g, hg, hs⟩

/-- What is seen of an attempt belongs to its directive. -/
theorem Attempt.ofDirective (h : Attempt a st c) : ∀ e ∈ c.events, e.ofDirective = true := by
  cases h <;> simp [Event.ofDirective]

/-- An action that waits and meets no trouble is seen to fall asleep at last. -/
theorem Attempt.asleep (h : Attempt a st c) (hk : a.kind = some .wait) (he : c.error = none) :
    ∃ duration, c.events.getLast? = some (.sleep duration) := by
  cases h with
  | slept => exact ⟨_, rfl⟩
  | unknown | uncounted | unsupplied | refused | unwritten | tooLong | tornDown | unended
  | unshut => cases he
  | written hw =>
    cases hw with
    | send hk' | data hk' => cases hk'.symm.trans hk
  | closedBefore hk' | ended hk' | alone hk' | shutBefore hk' | shut hk' => cases hk'.symm.trans hk

end Action

/-! ### Stages that no attempt tells apart -/

/-- Two calls that show the same, fail alike, and leave related states behind. -/
structure Call.Match {σ ε : Type} (R : σ → σ → Prop) (c c' : Call σ ε) : Prop where
  state : R c.state c'.state
  events : c.events = c'.events
  error : c.error = c'.error

/-- Two sessions that differ at most in their peers and in whether the directive was taken. -/
structure Session.Alike (s s' : Session) : Prop where
  faults : s.faults = s'.faults
  outputClosed : s.outputClosed = s'.outputClosed
  closing : s.closing = s'.closing

/-- Two stages with sessions that are alike and gates of one face. -/
structure Stage.Alike (st st' : Stage) : Prop where
  session : st.session.Alike st'.session
  gate : st.gate.map Gate.face = st'.gate.map Gate.face

namespace Session

variable {s s' : Session}

theorem Alike.isClosing (h : s.Alike s') : s.isClosing = s'.isClosing := by
  rw [Session.isClosing, Session.isClosing, h.outputClosed, h.closing]

theorem Alike.supply (h : s.Alike s') : s.supply = s'.supply := congrArg FaultPlan.supply h.faults

theorem write_match (h : s.Alike s') (out : Output) :
    Call.Match Alike (s.write out) (s'.write out) := by
  rw [write, write, h.isClosing, h.faults]
  cases s'.isClosing with
  | true => exact ⟨h, rfl, rfl⟩
  | false =>
    cases s'.faults.write with
    | some f => exact ⟨h, rfl, rfl⟩
    | none => exact ⟨h, rfl, rfl⟩

theorem close_match (h : s.Alike s') : Call.Match Alike s.close s'.close := by
  obtain ⟨hf, ho, hd⟩ := h
  cases hc : s'.outputClosed with
  | true =>
    rw [close_of_outputClosed (ho.trans hc), close_of_outputClosed hc]
    exact ⟨⟨hf, ho, hd⟩, rfl, rfl⟩
  | false =>
    cases hx : s'.closing with
    | true =>
      rw [close_of_closing (ho.trans hc) (hd.trans hx), close_of_closing hc hx]
      exact ⟨⟨hf, ho, hd⟩, rfl, rfl⟩
    | false =>
      have hw : s.faults.writeEof = s'.faults.writeEof := by rw [hf]
      cases hy : s'.faults.writeEof with
      | some f =>
        rw [close_of_fault (ho.trans hc) (hd.trans hx) (hw.trans hy), close_of_fault hc hx hy]
        exact ⟨⟨hf, rfl, hd⟩, rfl, rfl⟩
      | none =>
        rw [close_of_open (ho.trans hc) (hd.trans hx) (hw.trans hy), close_of_open hc hx hy]
        exact ⟨⟨hf, rfl, hd⟩, rfl, by rw [hf]⟩

theorem abort_match (h : s.Alike s') : Call.Match Alike s.abort s'.abort := by
  rw [abort, abort, show s.faults.abort = s'.faults.abort by rw [h.faults]]
  cases s'.faults.abort with
  | some f => exact ⟨h, rfl, rfl⟩
  | none => exact ⟨⟨h.faults, h.outputClosed, rfl⟩, rfl, rfl⟩

end Session

theorem Gate.shut_match {g g' : Gate} (h : g.face = g'.face) :
    Call.Match (fun g g' => g.face = g'.face) g.shut g'.shut := by
  cases ha : g.acceptor with
  | none =>
    have ha' : g'.acceptor = none := by simpa [face, ha] using h.symm
    rw [shut, shut, ha, ha']
    exact ⟨h, rfl, rfl⟩
  | some acceptor =>
    obtain ⟨acceptor', ha', hs, hf⟩ :
        ∃ b, g'.acceptor = some b ∧ b.serving = acceptor.serving
          ∧ b.closeFault = acceptor.closeFault := by
      simpa [face, ha] using h.symm
    rw [shut, shut, ha, ha']
    simp only [hs, hf]
    cases acceptor.serving with
    | false => exact ⟨h, rfl, rfl⟩
    | true =>
      cases acceptor.closeFault with
      | some f => exact ⟨h, rfl, rfl⟩
      | none => exact ⟨by simp [face], rfl, rfl⟩

namespace Action

variable {st st' : Stage}

/-- A call on the session is met alike at stages that are alike. -/
theorem onSession_match (a : Action) (h : st.Alike st') {c c' : Call Session Fault}
    (hc : Call.Match Session.Alike c c') :
    Call.Match Stage.Alike (a.announced (st.onSession a c)) (a.announced (st'.onSession a c')) :=
  ⟨⟨hc.state, h.gate⟩, congrArg (Event.log (.executing a) :: ·) hc.events,
    congrArg (Option.map (Trouble.ofFault a)) hc.error⟩

/-- An attempt shows the same, fails alike and leaves alike stages behind at stages that are alike. -/
theorem attempt_match (a : Action) (h : st.Alike st') :
    Call.Match Stage.Alike (a.attempt st) (a.attempt st') := by
  rw [attempt, attempt]
  cases a.kind with
  | none => exact ⟨h, rfl, rfl⟩
  | some k =>
    cases k with
    | close => exact onSession_match a h (Session.close_match h.session)
    | send =>
      simp only [perform, h.session.supply]
      cases a.param.bind st'.session.supply.encoding with
      | some f => exact ⟨h, rfl, rfl⟩
      | none => exact onSession_match a h (Session.write_match h.session _)
    | data =>
      simp only [perform, h.session.supply]
      cases a.count with
      | error t => exact ⟨h, rfl, rfl⟩
      | ok n =>
        simp only
        cases st'.session.supply.random n with
        | some f => exact ⟨h, rfl, rfl⟩
        | none => exact onSession_match a h (Session.write_match h.session _)
    | wait =>
      simp only [perform]
      cases a.count with
      | error t => exact ⟨h, rfl, rfl⟩
      | ok n =>
        simp only
        cases Binary64.ofRatio? n 1000 <;> exact ⟨h, rfl, rfl⟩
    | shut =>
      simp only [perform]
      cases hg : st.gate with
      | none =>
        have hg' : st'.gate = none := by simpa [hg] using h.gate.symm
        rw [hg']
        exact ⟨h, rfl, rfl⟩
      | some g =>
        obtain ⟨g', hg', hface⟩ : ∃ g', st'.gate = some g' ∧ g'.face = g.face := by
          simpa [hg] using h.gate.symm
        have hm := Gate.shut_match hface.symm
        rw [hg']
        exact ⟨⟨h.session, congrArg some hm.state⟩, congrArg (Event.log (.executing a) :: ·) hm.events,
          congrArg (Option.map (Trouble.ofFault a)) hm.error⟩

/-- An action other than a stop of the listener does not look at the gate. -/
theorem attempt_withGate {a : Action} (hk : a.kind ≠ some .shut) (st : Stage) (g : Option Gate) :
    a.attempt { st with gate := g } =
      { a.attempt st with state := { (a.attempt st).state with gate := g } } := by
  rw [attempt, attempt]
  cases h : a.kind with
  | none => rfl
  | some k =>
    cases k with
    | close => rfl
    | send => simp only [perform]; cases a.param.bind st.session.supply.encoding <;> rfl
    | data =>
      simp only [perform]
      cases a.count with
      | error t => rfl
      | ok n => simp only; cases st.session.supply.random n <;> rfl
    | wait =>
      simp only [perform]
      cases a.count with
      | error t => rfl
      | ok n => simp only; cases Binary64.ofRatio? n 1000 <;> rfl
    | shut => exact absurd h hk

end Action
end ScriptedServer
