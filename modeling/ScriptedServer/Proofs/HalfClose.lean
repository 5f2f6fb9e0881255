import Mathlib.Data.List.Induction
import ScriptedServer.Proofs.Calls
import ScriptedServer.Proofs.Escape
import ScriptedServer.Proofs.Turn

/-!
When a session counts its outbound side as ended, and when the end of it was sent. The side counts as
ended from the attempt on, so an attempt that fails before anything is sent leaves a session behind that
takes itself for half closed, and reports every close from then on as done. Such an attempt
(`Operation.Unsent`) is the only way to that: `close_sent_iff` says that in a run without one whatever is
reported as closed was sent, and that any run with one has a point where it was not.
-/

namespace ScriptedServer

/-! ### Attempts -/

namespace Action

variable {a : Action} {st : Stage} {c : Call Stage Trouble}

/-- The outbound side counts as ended where it did before, where its end is sent, or where a close
fails to send it. -/
theorem Attempt.ends (h : a.Attempt st c) (ho : c.state.session.outputClosed = true) :
    st.session.outputClosed = true ∨ .writeEof ∈ c.events
      ∨ a.kind = some .close ∧ st.session.isClosing = false ∧ st.session.faults.writeEof ≠ none := by
  cases h with
  | unended hk hc hd hf =>
    refine .inr (.inr ⟨hk, ?_, by rw [hf]; nofun⟩)
    rw [Session.isClosing, hc, hd]
    rfl
  | ended => exact .inr (.inl (by simp))
  | _ => exact .inl ho

/-- No action but a close changes the session or sends the end of the outbound side. -/
theorem Attempt.of_not_close (h : a.Attempt st c) (hk : a.kind ≠ some .close) :
    c.state.session = st.session ∧ .writeEof ∉ c.events := by
  cases h with
  | closedBefore hk' | tornDown hk' | unended hk' | ended hk' => exact absurd hk' hk
  | _ => exact ⟨rfl, by simp⟩

/-- A close that meets no trouble leaves the outbound side ended. -/
theorem Attempt.close_done (h : a.Attempt st c) (hk : a.kind = some .close) (he : c.error = none) :
    c.state.session.outputClosed = true := by
  cases h with
  | closedBefore _ hc => exact hc
  | ended => rfl
  | unknown | uncounted | unsupplied | refused | unwritten | tornDown | unended | tooLong
  | unshut => cases he
  | written hw =>
    cases hw with
    | send hk' | data hk' => cases hk'.symm.trans hk
  | slept hk' | alone hk' | shutBefore hk' | shut hk' => cases hk'.symm.trans hk

/-- A close that fails to send the end of the outbound side. -/
theorem attempt_unended (hk : a.kind = some .close) (hc : st.session.isClosing = false) {f : Fault}
    (hf : st.session.faults.writeEof = some f) :
    a.attempt st =
      { state := { st with session.outputClosed := true }, events := [.log (.executing a)]
        error := some (Trouble.ofFault a f) } := by
  obtain ⟨ho, hd⟩ := Bool.or_eq_false_iff.1 hc
  simp only [attempt, hk, perform, Session.close_of_fault ho hd hf]
  rfl

end Action

/-! ### Directives -/

namespace Directive

/-- Whether a directive comes to a close that fails to send the end of the outbound side. -/
def ClosesUnsent (d : List Action) (st : Stage) : Prop :=
  st.session.isClosing = false ∧ st.session.faults.writeEof ≠ none
    ∧ ∃ a, Reaches d st a ∧ a.kind = some .close

theorem conclude_outputClosed (t : Trouble) (st : Stage) :
    (t.conclude st).stage.session.outputClosed = st.session.outputClosed := by
  obtain ⟨torn, hs⟩ := t.conclude_session st
  rw [hs]

theorem conclude_not_sent (t : Trouble) (st : Stage) : .writeEof ∉ (t.conclude st).events := by
  cases t with
  | fault f => simp [Trouble.conclude]
  | error e =>
    rw [Trouble.conclude]
    cases e.drops with
    | false => simp
    | true =>
      simp only [if_true, Session.abort]
      cases st.session.faults.abort <;> simp

/-- A directive leaves the outbound side ended only if it was, or if its end is sent, or if a close
fails to send it. -/
theorem complete_ends {acts : List Action} {st : Stage}
    (ho : (complete acts st).stage.session.outputClosed = true) :
    st.session.outputClosed = true ∨ .writeEof ∈ (complete acts st).events
      ∨ ClosesUnsent acts st := by
  induction acts generalizing st with
  | nil => exact .inl ho
  | cons a rest ih =>
    have ha := a.attempt_spec st
    cases he : (a.attempt st).error with
    | some t =>
      rw [complete_trouble rest he] at ho ⊢
      rw [conclude_outputClosed] at ho
      rcases ha.ends ho with h | h | ⟨hk, hc, hf⟩
      · exact .inl h
      · exact .inr (.inl (List.mem_append_left _ h))
      · exact .inr (.inr ⟨hc, hf, a, (reaches_trouble he).2 rfl, hk⟩)
    | none =>
      rw [complete_go rest he] at ho ⊢
      rcases ih ho with h | h | ⟨hc, hf, b, hb, hk⟩
      · rcases ha.ends h with h | h | ⟨hk, hc, hf⟩
        · exact .inl h
        · exact .inr (.inl (List.mem_append_left _ h))
        · exact .inr (.inr ⟨hc, hf, a, (reaches_go he).2 (.inl rfl), hk⟩)
      · exact .inr (.inl (List.mem_append_right _ h))
      · obtain ⟨ended, hs⟩ := ha.session
        rw [hs] at hf
        refine .inr (.inr ⟨?_, hf, b, (reaches_go he).2 (.inr hb), hk⟩)
        cases hopen : st.session.isClosing with
        | false => rfl
        | true =>
          rw [ha.course.isClosing (.inl hopen)] at hc
          cases hc

/-- A directive that comes to such a close leaves the outbound side ended, and its end unsent. -/
theorem ClosesUnsent.complete {acts : List Action} {st : Stage} (h : ClosesUnsent acts st) :
    (Directive.complete acts st).stage.session.outputClosed = true
      ∧ .writeEof ∉ (Directive.complete acts st).events := by
  induction acts generalizing st with
  | nil =>
    obtain ⟨-, -, a, ha, -⟩ := h
    exact absurd ha (not_reaches_nil st a)
  | cons b rest ih =>
    obtain ⟨hc, hf, a, ha, hk⟩ := h
    by_cases hb : b.kind = some .close
    · obtain ⟨f, hf⟩ := Option.ne_none_iff_exists'.1 hf
      have hattempt := Action.attempt_unended hb hc hf
      have he : (b.attempt st).error = some (Trouble.ofFault b f) := by rw [hattempt]
      rw [complete_trouble rest he, hattempt]
      refine ⟨conclude_outputClosed _ _, ?_⟩
      simpa using conclude_not_sent _ _
    · obtain ⟨hs, hsent⟩ := (b.attempt_spec st).of_not_close hb
      cases he : (b.attempt st).error with
      | some t =>
        -- a directive that ends here does not come to the close
        rw [(reaches_trouble he).1 ha] at hk
        exact absurd hk hb
      | none =>
        have hrest : Reaches rest (b.attempt st).state a := by
          rcases (reaches_go he).1 ha with rfl | hrest
          · exact absurd hk hb
          · exact hrest
        have hunsent : ClosesUnsent rest (b.attempt st).state :=
          ⟨by rw [hs]; exact hc, by rw [hs]; exact hf, a, hrest, hk⟩
        obtain ⟨ho, hquiet⟩ := ih hunsent
        rw [complete_go rest he]
        exact ⟨ho, fun hm => (List.mem_append.1 hm).elim hsent hquiet⟩

/-- A directive of which a close is completed leaves the outbound side ended. -/
theorem complete_closed {acts : List Action} {st : Stage} {a : Action}
    (ha : a ∈ (complete acts st).result.1) (hk : a.kind = some .close) :
    (complete acts st).stage.session.outputClosed = true := by
  induction acts generalizing st with
  | nil => cases ha
  | cons b rest ih =>
    cases he : (b.attempt st).error with
    | some t =>
      rw [complete_trouble rest he] at ha
      cases ha
    | none =>
      rw [complete_go rest he] at ha ⊢
      rcases List.mem_cons.1 ha with rfl | ha
      · have hclosed := (a.attempt_spec st).close_done hk he
        exact (stretch_sealed rest (a.attempt st).state).2.outputClosed (.inl hclosed)
      · exact ih ha

theorem writeEof_mem_execute (d : Directive) (st : Stage) :
    .writeEof ∈ (execute d st).events ↔ .writeEof ∈ (complete d st).events := by
  rw [execute_shows_complete, List.mem_append]
  split <;> simp

end Directive

/-! ### Operations -/

namespace Operation

/-- Whether an operation reports that the outbound side was ended: a close that returns, or a directive
of which a close is completed. -/
def Reports (st : Stage) : Operation → Prop
  | close => st.session.close.error = none
  | execute d => ∃ a ∈ (d.execute st).result.1, a.kind = some .close
  | _ => False

/-- Whether an operation fails to send the end of the outbound side where that was to be ended. -/
def Unsent (st : Stage) : Operation → Prop
  | close => st.session.isClosing = false ∧ st.session.faults.writeEof ≠ none
  | execute d => Directive.ClosesUnsent d st
  | _ => False

theorem close_ends (s : Session) (ho : s.close.state.outputClosed = true) :
    s.outputClosed = true ∨ .writeEof ∈ s.close.events
      ∨ s.isClosing = false ∧ s.faults.writeEof ≠ none := by
  rcases s.close_cases with ⟨hc, -⟩ | ⟨-, -, he⟩ | ⟨hopen, f, hf, -⟩ | ⟨-, -, he⟩
  · exact .inl hc
  · rw [he] at ho
    exact .inl ho
  · exact .inr (.inr ⟨hopen, by rw [hf]; nofun⟩)
  · exact .inr (.inl (by rw [he]; simp))

/-- The outbound side counts as ended only where it did before, where its end is sent, or where an
operation fails to send it. -/
theorem apply_ends {op : Operation} {st : Stage}
    (ho : (op.apply st).1.session.outputClosed = true) :
    st.session.outputClosed = true ∨ .seen .writeEof ∈ (op.apply st).2 ∨ op.Unsent st := by
  cases op with
  | write output =>
    left
    rw [apply, Stage.called, Session.write] at ho
    cases hc : st.session.isClosing with
    | true => rwa [hc] at ho
    | false =>
      rw [hc] at ho
      cases hf : st.session.faults.write <;> rwa [hf] at ho
  | close =>
    rw [apply, Stage.called, Mark.seen_mem_all]
    exact close_ends st.session ho
  | abort =>
    left
    rw [apply, Stage.called, Session.abort] at ho
    cases hf : st.session.faults.abort <;> rwa [hf] at ho
  | release =>
    obtain ⟨torn, hs⟩ := st.session.release_session
    rw [apply, Stage.called, hs] at ho
    exact .inl ho
  | consume =>
    left
    rw [apply, Session.consume] at ho
    cases hk : st.session.consumed <;> rwa [hk] at ho
  | shut =>
    left
    rw [apply] at ho
    cases hg : st.gate <;> rwa [hg] at ho
  | execute d =>
    rw [apply, Directive.execute_stage] at ho
    rw [apply, Mark.seen_mem_all, Directive.writeEof_mem_execute]
    exact Directive.complete_ends ho
  | lose | setFault | setCloseFault => exact .inl ho

/-- An operation that fails to send the end of the outbound side leaves it ended all the same. -/
theorem Unsent.apply {op : Operation} {st : Stage} (h : op.Unsent st) :
    st.session.isClosing = false ∧ (op.apply st).1.session.outputClosed = true
      ∧ .seen .writeEof ∉ (op.apply st).2 := by
  cases op with
  | close =>
    obtain ⟨hc, hf⟩ := h
    obtain ⟨ho, hd⟩ := Bool.or_eq_false_iff.1 hc
    obtain ⟨f, hf⟩ := Option.ne_none_iff_exists'.1 hf
    rw [Operation.apply, Stage.called, Session.close_of_fault ho hd hf]
    exact ⟨hc, rfl, by simp⟩
  | execute d =>
    obtain ⟨ho, hsent⟩ := Directive.ClosesUnsent.complete h
    rw [Operation.apply, Directive.execute_stage, Mark.seen_mem_all, Directive.writeEof_mem_execute]
    exact ⟨h.1, ho, hsent⟩
  | write | abort | release | consume | shut | lose | setFault | setCloseFault => cases h

/-- What is reported as ended counts as ended. -/
theorem Reports.apply {op : Operation} {st : Stage} (h : op.Reports st) :
    (op.apply st).1.session.outputClosed = true := by
  cases op with
  | close =>
    have hnone : st.session.close.error = none := h
    rw [Operation.apply, Stage.called]
    rcases st.session.close_cases with ⟨hc, he⟩ | ⟨-, -, he⟩ | ⟨-, f, -, he⟩ | ⟨-, -, he⟩
    · rwa [he]
    · rw [he] at hnone
      cases hnone
    · rw [he]
    · rw [he]
  | execute d =>
    obtain ⟨a, ha, hk⟩ := h
    rw [Directive.execute_result] at ha
    rw [Operation.apply, Directive.execute_stage]
    exact Directive.complete_closed ha hk
  | write | abort | release | consume | shut | lose | setFault | setCloseFault => cases h

end Operation

/-! ### Sequences of operations -/

namespace Stage

/-- In a sequence without an unsent end, the outbound side counts as ended only if its end was sent. -/
theorem sent_of_outputClosed {st : Stage} (hst : st.session.outputClosed = false)
    {ops : List Operation}
    (h : ∀ before op after, ops = before ++ op :: after → ¬ op.Unsent (st.after before))
    (ho : (st.after ops).session.outputClosed = true) : .seen .writeEof ∈ st.record ops := by
  induction ops using List.reverseRecOn with
  | nil =>
    rw [after_nil, hst] at ho
    cases ho
  | append_singleton before op ih =>
    rw [after_append] at ho
    rw [record_append, List.mem_append]
    rcases Operation.apply_ends ho with hclosed | hsent | hunsent
    · refine .inl (ih (fun b op' after he => h b op' (after ++ [op]) ?_) hclosed)
      rw [he, List.append_assoc]
      rfl
    · exact .inr (by simpa using hsent)
    · exact absurd hunsent (h before op [] rfl)

/-- Whatever is called on a session, and whatever faults are set and cleared in between: at every point
the outbound side counts as ended only if its end was sent, and whatever reports it as ended has it
sent, exactly if no operation fails to send it where it was to be ended. -/
theorem close_sent_iff (peer : Text) (faults : FaultPlan) (gate : Option Gate)
    (ops : List Operation) :
    let st : Stage := ⟨{ peer, faults }, gate⟩
    (∀ before after, ops = before ++ after →
        ((st.after before).session.outputClosed = true → .seen .writeEof ∈ st.record before)
          ∧ ∀ op rest, after = op :: rest → op.Reports (st.after before) →
              .seen .writeEof ∈ st.record (before ++ [op]))
      ↔ ∀ before op after, ops = before ++ op :: after → ¬ op.Unsent (st.after before) := by
  intro st
  constructor
  · intro h before op after he hunsent
    obtain ⟨hopen, hended, hquiet⟩ := hunsent.apply
    have hbehind : ops = (before ++ [op]) ++ after := by rw [he, List.append_assoc]; rfl
    have hsent := (h (before ++ [op]) after hbehind).1 (by rw [after_append]; exact hended)
    rw [record_append, List.mem_append] at hsent
    rcases hsent with hm | hm
    · -- the end was sent before, and the session would not be open
      have hclosing := (st.record_sealed before).isClosing (.inr ⟨_, hm, rfl⟩)
      rw [hopen] at hclosing
      cases hclosing
    · exact hquiet (by simpa using hm)
  · intro h before after he
    have hfront : ∀ {front back : List Operation}, ops = front ++ back →
        (st.after front).session.outputClosed = true → .seen .writeEof ∈ st.record front := by
      intro front back he
      refine sent_of_outputClosed rfl fun b op a hb => h b op (a ++ back) ?_
      rw [he, hb, List.append_assoc]
      rfl
    refine ⟨hfront he, ?_⟩
    rintro op rest rfl hreports
    have hbehind : ops = (before ++ [op]) ++ rest := by rw [he, List.append_assoc]; rfl
    exact hfront hbehind (by rw [after_append]; exact hreports.apply)

/-- A close that fails to send the end of the outbound side, and one that then returns without doing
anything. -/
theorem close_unsent :
    let st : Stage := ⟨{ peer := [] }, none⟩
    let broken : Fault := { kind := .system, message := ['x'] }
    let ops : List Operation := [.setFault .writeEof (some broken), .close, .setFault .writeEof none]
    (st.after ops).session.outputClosed = true ∧ Operation.close.Reports (st.after ops)
      ∧ .seen .writeEof ∉ st.record (ops ++ [.close]) :=
  ⟨rfl, rfl, by decide⟩

end Stage
end ScriptedServer
