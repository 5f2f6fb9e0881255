import ScriptedServer.Proofs.Effects

/-!
What a directive does to its connection beyond its actions. It drops the connection, and nothing else:
that is the last thing seen of it, and right in front of it stands the error of an action that is unknown
or that counts and has no numeral (`Dismissal`). A stretch that does not drop its connection leaves the
stage as the actions left it that were attempted (`tried`).
-/

namespace ScriptedServer

/-- What is seen right in front of a connection being dropped by its directive. -/
inductive Dismissal : List Event → Prop
  | unknown {a : Action} (hk : a.kind = none) : Dismissal [.log (.actionError (.unknown a.name))]
  | uncounted {a : Action} (hk : a.kind = some .data ∨ a.kind = some .wait)
      (hn : a.requested? = none) :
      Dismissal [.log (.executing a), .log (.actionError (.invalidParameter a.name a.param))]

/-! ### The end of a directive at trouble -/

namespace Trouble

variable {t : Trouble} {st : Stage}

/-- Only an error that drops the connection does so. -/
theorem conclude_abort (h : .abort ∈ (t.conclude st).events) :
    ∃ e, e.drops = true ∧ (t.conclude st).result = .aborted e := by
  cases t with
  | fault f => cases h
  | error e =>
    rw [conclude] at h ⊢
    cases hd : e.drops with
    | false =>
      rw [hd] at h
      simp at h
    | true =>
      simp only [hd, if_true, Session.abort] at h ⊢
      cases hf : st.session.faults.abort with
      | some f =>
        rw [hf] at h
        simp at h
      | none => exact ⟨e, hd, rfl⟩

theorem conclude_stage (h : .abort ∉ (t.conclude st).events) : (t.conclude st).stage = st := by
  cases t with
  | fault f => rfl
  | error e =>
    rw [conclude] at h ⊢
    cases hd : e.drops with
    | false => rfl
    | true =>
      simp only [hd, if_true, Session.abort] at h ⊢
      cases hf : st.session.faults.abort with
      | some f => rfl
      | none =>
        rw [hf] at h
        simp at h

end Trouble

namespace Action

variable {a : Action} {st : Stage} {c : Call Stage Trouble}

theorem Attempt.abort_not_mem (h : a.Attempt st c) : .abort ∉ c.events := by
  cases h <;> simp

/-- An attempt at which the connection is dropped is a dismissal. -/
theorem Attempt.dismissal (h : a.Attempt st c) {t : Trouble} (he : c.error = some t)
    (hm : .abort ∈ (t.conclude c.state).events) : ∃ cause,
      c.events ++ (t.conclude c.state).events = cause ++ [.abort] ∧ .abort ∉ cause ∧ Dismissal cause := by
  obtain ⟨e, -, hr⟩ := Trouble.conclude_abort hm
  have hfails := h.fails he hr
  have hmem := List.mem_append_right c.events hm
  generalize c.events ++ (t.conclude c.state).events = events at hfails hmem ⊢
  cases hfails with
  | unknown hk => exact ⟨_, rfl, by simp, .unknown hk⟩
  | uncounted hk hn => exact ⟨_, rfl, by simp, .uncounted hk hn⟩
  | undone => simp at hmem
  | unflushed _ hown =>
    rcases hown with rfl | ⟨output, rfl⟩ <;> simp at hmem

end Action

namespace Directive

/-- The stage behind actions that are attempted one after the other, up to the first that meets trouble
or falls asleep. -/
def tried : List Action → Stage → Stage
  | [], st => st
  | a :: rest, st =>
    let c := a.attempt st
    if c.error.isNone ∧ a.kind ≠ some .wait then tried rest c.state else c.state

/-- A stretch at whose end the connection is dropped, at an error that calls for it. -/
def Dismisses (r : Run Progress) : Prop :=
  ∃ before cause, r.events = before ++ cause ++ [.abort] ∧ .abort ∉ before ++ cause ∧ Dismissal cause
    ∧ ∃ e, e.drops = true ∧ r.result = .ended (.aborted e)

variable {acts : List Action} {st : Stage}

/-- A connection is dropped at the end of a stretch only. -/
theorem advance_dismisses (h : .abort ∈ (advance acts st).events) : Dismisses (advance acts st) := by
  induction acts generalizing st with
  | nil => cases h
  | cons a rest ih =>
    have ha := a.attempt_spec st
    cases he : (a.attempt st).error with
    | some t =>
      rw [advance_trouble rest he] at h ⊢
      have hm := (List.mem_append.1 h).resolve_left ha.abort_not_mem
      obtain ⟨e, hd, hr⟩ := Trouble.conclude_abort hm
      obtain ⟨cause, hcause, hno, hdismissal⟩ := ha.dismissal he hm
      exact ⟨[], cause, hcause, hno, hdismissal, e, hd, congrArg Progress.ended hr⟩
    | none =>
      by_cases hk : a.kind = some .wait
      · rw [advance_wait rest he hk] at h
        exact absurd h ha.abort_not_mem
      · rw [advance_go rest he hk] at h ⊢
        have hm := (List.mem_append.1 h).resolve_left ha.abort_not_mem
        obtain ⟨before, cause, hevents, hno, hdismissal, hresult⟩ := ih hm
        refine ⟨(a.attempt st).events ++ before, cause, ?_, ?_, hdismissal, hresult⟩
        · simp only [Run.after, hevents, List.append_assoc]
        · rw [List.append_assoc, List.mem_append, not_or]
          exact ⟨ha.abort_not_mem, hno⟩

/-- Beyond its actions a stretch does nothing to its stage but to drop the connection. -/
theorem advance_tried (h : .abort ∉ (advance acts st).events) :
    (advance acts st).stage = tried acts st := by
  induction acts generalizing st with
  | nil => rfl
  | cons a rest ih =>
    rw [tried]
    cases he : (a.attempt st).error with
    | some t =>
      rw [advance_trouble rest he, List.mem_append, not_or] at h
      rw [advance_trouble rest he, Trouble.conclude_stage h.2]
      rfl
    | none =>
      by_cases hk : a.kind = some .wait
      · rw [advance_wait rest he hk, if_neg fun hn => hn.2 hk]
      · rw [advance_go rest he hk] at h ⊢
        rw [if_pos ⟨rfl, hk⟩]
        exact ih fun hm => h (List.mem_append_right _ hm)

/-- Actions by themselves do not tear the connection down. -/
theorem tried_closing (acts : List Action) (st : Stage) :
    (tried acts st).session.closing = st.session.closing := by
  induction acts generalizing st with
  | nil => rfl
  | cons a rest ih =>
    obtain ⟨ended, hs⟩ := (a.attempt_spec st).session
    have hclosing : (a.attempt st).state.session.closing = st.session.closing := by rw [hs]
    rw [tried]
    split
    · exact (ih _).trans hclosing
    · exact hclosing

/-! ### Beginnings and goings-on -/

/-- The two ways in which actions are carried out on a connection. -/
inductive Stretch (acts : List Action) : (Stage → Run Progress) → Prop
  | begin : Stretch acts (begin acts)
  | advance : Stretch acts (advance acts)

variable {stretch : Stage → Run Progress}

theorem Stretch.dismisses (hs : Stretch acts stretch) (h : .abort ∈ (stretch st).events) :
    Dismisses (stretch st) := by
  cases hs with
  | advance => exact advance_dismisses h
  | begin =>
    rw [Directive.begin] at h ⊢
    split at h
    · simp at h
    · rename_i hd
      rw [if_neg hd]
      exact advance_dismisses h

theorem Stretch.tried (hs : Stretch acts stretch) (h : .abort ∉ (stretch st).events) :
    (stretch st).stage = tried acts st := by
  cases hs with
  | advance => exact advance_tried h
  | begin =>
    rw [Directive.begin] at h ⊢
    split at h
    · rename_i hd
      rw [if_pos hd, hd]
      rfl
    · rename_i hd
      rw [if_neg hd]
      exact advance_tried h

theorem Stretch.ofDirective (hs : Stretch acts stretch) (st : Stage) :
    ∀ e ∈ (stretch st).events, e.ofDirective = true := by
  cases hs with
  | begin => exact begin_ofDirective acts st
  | advance => exact advance_ofDirective acts st

/-- A connection is closed by no directive. -/
theorem Stretch.close_not_mem (hs : Stretch acts stretch) (st : Stage) :
    .close ∉ (stretch st).events := fun h => nomatch hs.ofDirective st _ h

/-- A directive that ends with all its actions done, or with a failure of input and output, drops no
connection. -/
theorem Stretch.abort_not_mem (hs : Stretch acts stretch) {e : Ending}
    (hr : (stretch st).result = .ended e) (he : e = .done ∨ ∃ a f, e = .aborted (.failed a f)) :
    .abort ∉ (stretch st).events := by
  intro h
  obtain ⟨-, -, -, -, -, error, hd, hresult⟩ := hs.dismisses h
  obtain rfl : e = .aborted error := Progress.ended.inj (hr.symm.trans hresult)
  rcases he with h | ⟨a, f, h⟩
  · cases h
  · cases h
    cases hd

end Directive
end ScriptedServer
