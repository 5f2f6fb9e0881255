import ScriptedServer.Proofs.Duration
import ScriptedServer.Proofs.Progress

/-!
Which faults get out of a directive. At a tame stage the calls of actions meet only faults of input
and output, and all of these become errors of the action; what is left are the two limits of the
arithmetic under the counts of actions, and output that the supply fails to deliver
(`Action.Escapes`). `complete_escapes_iff` says that a directive is left by a fault exactly if it comes
to such an action, so that every other is accounted for as done or aborted.
-/

namespace ScriptedServer

/-- A stage at which calls meet only faults of input and output, and none when the connection is
dropped. Nothing is asked of the supply. -/
structure Stage.Tame (st : Stage) : Prop where
  write : ∀ f, st.session.faults.write = some f → f.isExternal = true
  drain : ∀ f, st.session.faults.drain = some f → f.isExternal = true
  writeEof : ∀ f, st.session.faults.writeEof = some f → f.isExternal = true
  abort : st.session.faults.abort = none
  shut : ∀ g a f, st.gate = some g → g.acceptor = some a → a.closeFault = some f →
    f.isExternal = true

/-- The actions that let a fault get out, with that fault: a numeral with too many digits, a time to
wait that is rounded beyond the finite doubles, or output that the supply does not deliver. -/
inductive Action.Escapes (a : Action) (supply : Supply) : Fault → Prop
  | digits {p : Text} (hk : a.kind = some .data ∨ a.kind = some .wait) (hp : a.param = some p)
      (hn : Numeral.isNumeral p = true) (hl : Numeral.digitLimit < p.length) :
      Escapes a supply (.tooManyDigits p.length)
  | duration {p : Text} (hk : a.kind = some .wait) (hp : a.param = some p)
      (hn : Numeral.isNumeral p = true) (hl : p.length ≤ Numeral.digitLimit)
      (hv : 1000 * Binary64.beyond ≤ Numeral.value p) :
      Escapes a supply .quotientTooLarge
  | unsupplied {f : Fault} (hl : a.Lacks supply f) : Escapes a supply f

namespace Action

variable {a : Action} {st : Stage} {f : Fault} {c : Call Stage Trouble}

/-! ### Attempts at a tame stage -/

theorem ofFault_ne_fault {f' : Fault} (h : f.isExternal = true) :
    Trouble.ofFault a f ≠ .fault f' := by
  rw [Trouble.ofFault, if_pos h]
  simp

/-- A fault that an attempt is left by comes from a limit or from the supply. -/
theorem Attempt.escapes (h : Attempt a st c) (ht : st.Tame) (he : c.error = some (.fault f)) :
    a.Escapes st.session.supply f := by
  cases h with
  | unknown => cases he
  | unsupplied hl =>
    obtain rfl := Trouble.fault.inj (Option.some.inj he)
    exact .unsupplied hl
  | uncounted hk hn =>
    obtain rfl := Option.some.inj he
    obtain ⟨p, hp, hnum, hl, rfl⟩ := count_fault_iff.1 hn
    exact .digits hk hp hnum hl
  | refused => exact absurd (Option.some.inj he) (ofFault_ne_fault rfl)
  | unwritten _ _ hf => exact absurd (Option.some.inj he) (ofFault_ne_fault (ht.write _ hf))
  | written | ended =>
    obtain ⟨f', hf, he⟩ := Option.map_eq_some_iff.1 he
    exact absurd he (ofFault_ne_fault (ht.drain _ hf))
  | tornDown => exact absurd (Option.some.inj he) (ofFault_ne_fault rfl)
  | unended _ _ _ hf => exact absurd (Option.some.inj he) (ofFault_ne_fault (ht.writeEof _ hf))
  | tooLong hk hn hq =>
    obtain rfl := Trouble.fault.inj (Option.some.inj he)
    obtain ⟨p, hp, hnum, hl, rfl⟩ := count_ok_iff.1 hn
    exact .duration hk hp hnum hl ((Binary64.ofRatio?_eq_none_iff _ (by decide)).1 hq)
  | unshut _ hg ha _ hf =>
    exact absurd (Option.some.inj he) (ofFault_ne_fault (ht.shut _ _ _ hg ha hf))
  | closedBefore | slept | alone | shutBefore | shut => cases he

/-- An attempt at an action that lets a fault get out is left by that fault, whatever the state of the
connection. -/
theorem Escapes.attempt_error {st : Stage} (h : a.Escapes st.session.supply f) :
    (a.attempt st).error = some (.fault f) := by
  cases h with
  | digits hk hp hn hl =>
    have hc := count_fault_iff.2 ⟨_, hp, hn, hl, rfl⟩
    rcases hk with hk | hk <;> simp only [attempt, hk, perform, hc]
  | duration hk hp hn hl hv =>
    have hc := count_ok_iff.2 ⟨_, hp, hn, hl, rfl⟩
    have hq := (Binary64.ofRatio?_eq_none_iff _ (by decide)).2 hv
    simp only [attempt, hk, perform, hc, hq]
  | unsupplied hl => rw [attempt_unsupplied hl]

/-- A tame stage stays tame. -/
theorem Attempt.tame (h : Attempt a st c) (ht : st.Tame) : c.state.Tame := by
  obtain ⟨hw, hd, he, ha, hs⟩ := ht
  cases h with
  | unended | ended => exact ⟨hw, hd, he, ha, hs⟩
  | shut _ hg hacc =>
    refine ⟨hw, hd, he, ha, fun g' a' f hg' ha' hf => ?_⟩
    cases hg'
    cases ha'
    exact hs _ _ f hg hacc hf
  | _ => exact ⟨hw, hd, he, ha, hs⟩

end Action

/-! ### Whole directives -/

namespace Directive

variable {st : Stage} {f : Fault}

/-- Whether a directive comes to an action: all actions in front of it are completed. -/
def Reaches (d : List Action) (st : Stage) (a : Action) : Prop :=
  ∃ before after, d = before ++ a :: after ∧ (complete before st).result.2 = .done

theorem not_reaches_nil (st : Stage) (a : Action) : ¬ Reaches [] st a := by
  rintro ⟨before, after, hd, -⟩
  cases before <;> cases hd

/-- Behind an action that meets trouble no other is come to. -/
theorem reaches_trouble {a b : Action} {rest : List Action} {t : Trouble}
    (he : (a.attempt st).error = some t) :
    Reaches (a :: rest) st b ↔ b = a := by
  constructor
  · rintro ⟨before, after, hd, hb⟩
    cases before with
    | nil => cases hd; rfl
    | cons a' before =>
      cases hd
      rw [complete_trouble before he] at hb
      exact absurd hb (t.conclude_ne_done _)
  · rintro rfl
    exact ⟨[], rest, rfl, rfl⟩

theorem reaches_go {a b : Action} {rest : List Action} (he : (a.attempt st).error = none) :
    Reaches (a :: rest) st b ↔ b = a ∨ Reaches rest (a.attempt st).state b := by
  constructor
  · rintro ⟨before, after, hd, hb⟩
    cases before with
    | nil => cases hd; exact .inl rfl
    | cons a' before =>
      cases hd
      rw [complete_go before he] at hb
      exact .inr ⟨before, after, rfl, hb⟩
  · rintro (rfl | ⟨before, after, rfl, hb⟩)
    · exact ⟨[], rest, rfl, rfl⟩
    · exact ⟨a :: before, after, rfl, by rw [complete_go before he]; exact hb⟩

/-- With an error of its own an action ends a directive, and no fault is met in doing so. -/
theorem conclude_error (ht : st.Tame) (e : ActionError) :
    ((Trouble.error e).conclude st).result = .aborted e := by
  rw [Trouble.conclude]
  cases e.drops with
  | false => rfl
  | true => simp only [if_true, Session.abort, ht.abort, Option.elim_none]

/-- A directive is left by a fault if it comes to an action that lets it get out, and only then. -/
theorem complete_escapes_iff (acts : List Action) (ht : st.Tame) :
    (complete acts st).result.2 = .escaped f
      ↔ ∃ a, Reaches acts st a ∧ a.Escapes st.session.supply f := by
  induction acts generalizing st with
  | nil =>
    constructor
    · intro h; cases h
    · rintro ⟨a, ha, -⟩
      exact absurd ha (not_reaches_nil st a)
  | cons a rest ih =>
    have htame := (a.attempt_spec st).tame ht
    cases he : (a.attempt st).error with
    | some t =>
      rw [complete_trouble rest he]
      cases t with
      | fault f' =>
        constructor
        · intro h
          obtain rfl := Ending.escaped.inj h
          exact ⟨a, (reaches_trouble he).2 rfl, (a.attempt_spec st).escapes ht he⟩
        · rintro ⟨b, hb, ho⟩
          obtain rfl := (reaches_trouble he).1 hb
          have hf := ho.attempt_error.symm.trans he
          rw [Trouble.fault.inj (Option.some.inj hf)]
          rfl
      | error e =>
        have hr := conclude_error htame e
        constructor
        · intro h
          cases hr.symm.trans h
        · rintro ⟨b, hb, ho⟩
          obtain rfl := (reaches_trouble he).1 hb
          cases ho.attempt_error.symm.trans he
    | none =>
      have hsupply := (a.attempt_spec st).supply
      rw [complete_go rest he, ← hsupply]
      refine (ih htame).trans ?_
      constructor
      · rintro ⟨b, hb, ho⟩
        exact ⟨b, (reaches_go he).2 (.inr hb), ho⟩
      · rintro ⟨b, hb, ho⟩
        rcases (reaches_go he).1 hb with rfl | hb
        · rw [hsupply] at ho
          cases ho.attempt_error.symm.trans he
        · exact ⟨b, hb, ho⟩

/-- The source is asked before it is looked whether the outbound side is open. -/
example :
    let st : Stage := ⟨{ peer := [], faults := { supply := .bounded sizeLimit } }, none⟩
    let close : Action := ⟨"CLOSE".toList, none⟩
    (complete [close, ⟨"DATA".toList, some "9223372036854775808".toList⟩] st).result
      = ([close], .escaped .lengthTooLarge) := by
  decide

/-- An action that lets a fault get out leaves a directive of that action without an account. -/
theorem unaccounted_of_escapes {a : Action} (ha : a.Escapes st.session.supply f) (ht : st.Tame) :
    let r := execute [a] st
    ¬ ∃ account, Account.ofEnding r.result.1 r.result.2 = .ok account := by
  intro r
  have he : r.result.2 = .escaped f := by
    rw [execute_result]
    exact (complete_escapes_iff _ ht).2 ⟨a, ⟨[], [], rfl, rfl⟩, ha⟩
  rintro ⟨account, hacc⟩
  rw [he] at hacc
  cases hacc

/-- A count of nothing at all that is written with too many digits gets out as a fault. -/
theorem zeros_escape {n : Nat} (hn : Numeral.digitLimit < n) (supply : Supply) :
    Action.Escapes ⟨"DATA".toList, some (List.replicate n '0')⟩ supply
      (.tooManyDigits (List.replicate n '0').length) := by
  have hpos : n ≠ 0 := Nat.ne_of_gt (Nat.zero_lt_of_lt hn)
  have hz : Numeral.isNumeral (List.replicate n '0') = true := by simp [Numeral.isNumeral, hpos]
  exact .digits (.inl rfl) rfl hz (by rw [List.length_replicate]; exact hn)

end Directive
end ScriptedServer
