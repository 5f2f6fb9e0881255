import ScriptedServer.Proofs.Course

/-!
Sessions that are called from outside, without a listener that takes them through their lives: any
calls in any order, directives executed in one go, faults set and cleared in between, and the connection
lost at any time. `Operation.apply` makes one of them, `Stage.after` and `Stage.record` a sequence; each
makes a sealed course of the session, and so does the whole (`record_sealed`).
-/

namespace ScriptedServer

/-- What can be done with a session, and with the listening side that its directives can stop. -/
inductive Operation where
  | write (output : Output)
  | close
  | abort
  | release
  | consume
  | shut
  | execute (d : Directive)
  | lose
  | setFault (point : FailPoint) (f : Option Fault)
  | setCloseFault (f : Option Fault)
  deriving DecidableEq

/-- A call on the session: the stage behind it, and what befalls the connection. -/
def Stage.called (st : Stage) (c : Call Session Fault) : Stage × List Mark :=
  ({ st with session := c.state }, Mark.all c.events)

/-- An operation: the stage behind it, and what befalls the connection. -/
def Operation.apply (st : Stage) : Operation → Stage × List Mark
  | write output => st.called (st.session.write output)
  | close => st.called st.session.close
  | abort => st.called st.session.abort
  | release => st.called st.session.release
  | consume => ({ st with session := st.session.consume.1 }, [])
  | shut =>
    match st.gate with
    | none => (st, [])
    | some g => ({ st with gate := some g.shut.state }, Mark.all g.shut.events)
  | execute d => ((d.execute st).stage, Mark.all (d.execute st).events)
  | lose => ({ st with session := st.session.lose }, [.reset])
  | setFault point f => ({ st with session.faults := st.session.faults.set f point }, [])
  | setCloseFault f => ({ st with gate := st.gate.map (·.setCloseFault f) }, [])

namespace Stage

/-- The stage behind a sequence of operations. -/
def after (st : Stage) (ops : List Operation) : Stage := ops.foldl (fun st op => (op.apply st).1) st

/-- All that befalls the connection in a sequence of operations. -/
def record : Stage → List Operation → List Mark
  | _, [] => []
  | st, op :: rest => (op.apply st).2 ++ record (op.apply st).1 rest

@[simp] theorem after_nil (st : Stage) : st.after [] = st := rfl

@[simp] theorem after_cons (st : Stage) (op : Operation) (rest : List Operation) :
    st.after (op :: rest) = (op.apply st).1.after rest := rfl

@[simp] theorem after_append (st : Stage) (ops more : List Operation) :
    st.after (ops ++ more) = (st.after ops).after more := List.foldl_append ..

@[simp] theorem record_nil (st : Stage) : st.record [] = [] := rfl

@[simp] theorem record_cons (st : Stage) (op : Operation) (rest : List Operation) :
    st.record (op :: rest) = (op.apply st).2 ++ (op.apply st).1.record rest := rfl

@[simp] theorem record_append (st : Stage) (ops more : List Operation) :
    st.record (ops ++ more) = st.record ops ++ (st.after ops).record more := by
  induction ops generalizing st with
  | nil => rfl
  | cons op rest ih => simp [ih]

end Stage

/-- A stop of the listener is none of the session's business. -/
theorem Gate.shut_sealed (g : Gate) (s : Session) : Session.Sealed s (Mark.all g.shut.events) s := by
  rcases g.shut_events with he | he
  · rw [he]
    exact .refl s
  · rw [he]
    refine Session.Course.sealed (Session.course_still rfl rfl rfl id ?_) ?_
    · simp [Mark.isOutput, Mark.tearsDown]
    · simp [Mark.announces]

/-! ### No call announces an action -/

namespace Session

variable (s : Session)

theorem write_announces (output : Output) :
    ∀ m ∈ Mark.all (s.write output).events, m.announces = false := by
  rw [write]
  cases s.isClosing with
  | true => simp
  | false => cases s.faults.write <;> simp [Mark.announces]

theorem close_announces : ∀ m ∈ Mark.all s.close.events, m.announces = false := by
  rcases s.close_cases with ⟨-, he⟩ | ⟨-, -, he⟩ | ⟨-, f, -, he⟩ | ⟨-, -, he⟩ <;>
    simp [he, Mark.announces]

theorem abort_announces : ∀ m ∈ Mark.all s.abort.events, m.announces = false := by
  rw [abort]
  cases s.faults.abort <;> simp [Mark.announces]

theorem release_announces : ∀ m ∈ Mark.all s.release.events, m.announces = false := by
  rw [release]
  cases s.closing with
  | true => simp [Mark.announces]
  | false =>
    rw [hangUp]
    cases s.faults.close <;> simp [Mark.announces]

end Session

namespace Operation

/-- An operation makes a sealed course of its session. -/
theorem apply_sealed (op : Operation) (st : Stage) :
    Session.Sealed st.session (op.apply st).2 (op.apply st).1.session := by
  have hstill : ∀ {s : Session}, s.peer = st.session.peer → s.supply = st.session.supply →
      s.closing = st.session.closing → s.outputClosed = st.session.outputClosed →
      Session.Sealed st.session [] s := by
    intro s hp hf hc ho
    exact (Session.course_still hp hf hc (fun h => by rw [ho]; exact h) (by simp)).sealed (by simp)
  cases op with
  | write output => exact (st.session.write_course output).sealed (st.session.write_announces output)
  | close => exact st.session.close_course.sealed st.session.close_announces
  | abort => exact st.session.abort_course.sealed st.session.abort_announces
  | release => exact st.session.release_course.sealed st.session.release_announces
  | consume =>
    simp only [apply, Session.consume]
    split <;> exact hstill rfl rfl rfl rfl
  | shut =>
    rw [apply]
    cases st.gate with
    | none => exact .refl st.session
    | some g => exact g.shut_sealed st.session
  | execute d => exact Directive.execute_sealed d st
  | lose => exact st.session.lose_course.sealed (by simp [Mark.announces])
  | setFault point f => exact hstill rfl (FaultPlan.set_supply _ f point) rfl rfl
  | setCloseFault f => exact .refl st.session

end Operation

/-- So does a sequence of operations. -/
theorem Stage.record_sealed (st : Stage) (ops : List Operation) :
    Session.Sealed st.session (st.record ops) (st.after ops).session := by
  induction ops generalizing st with
  | nil => exact .refl st.session
  | cons op rest ih => exact (op.apply_sealed st).trans (ih _)

end ScriptedServer
