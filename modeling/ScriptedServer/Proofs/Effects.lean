import ScriptedServer.Proofs.Progress

/-!
What a directive shows, action by action. Two things of the stage decide what an action shows when it
is completed: whether the outbound side was ended, and whether the listener accepts connections
(`Outlook`). `Action.effect?` gives what a completed action shows, `Action.Fails` what is seen of the
one that a directive is aborted at, and `complete_shows` puts a whole run together from them.
-/

namespace ScriptedServer

/-- What the effects of actions depend on: whether the outbound side was ended, and whether
connections are accepted, if there is a listener at all. -/
structure Outlook where
  outputClosed : Bool
  serving : Option Bool
  deriving DecidableEq

def Stage.outlook (st : Stage) : Outlook where
  outputClosed := st.session.outputClosed
  serving := st.gate.map Gate.isListening

namespace Action

/-- The number that an action asks for, if its parameter is one. -/
def requested? (a : Action) : Option Nat :=
  a.param.bind fun p => if Numeral.isNumeral p then some (Numeral.value p) else none

/-- What an action shows behind its announcement when it is completed. -/
def effect? (a : Action) (o : Outlook) : Option (List Event) :=
  match a.kind with
  | none => none
  | some .send => some [.write (.bytes (payload a.param))]
  | some .data => a.requested?.map fun n => [.write (.random n)]
  | some .wait =>
    a.requested?.bind fun msecs =>
      (Binary64.ofRatio? msecs 1000).map fun duration => [.sleep duration]
  | some .close => some (if o.outputClosed then [] else [.writeEof])
  | some .shut =>
    match o.serving with
    | none => some [.log .nothingToShut]
    | some true => some [.serverClose, .log .stoppedListening]
    | some false => some []

end Action

/-- The outlook behind a completed action. -/
def Outlook.next (o : Outlook) (a : Action) : Outlook :=
  match a.kind with
  | some .close => { o with outputClosed := true }
  | some .shut => { o with serving := o.serving.map fun _ => false }
  | _ => o

/-- What actions show when all of them are completed, each with its announcement in front. -/
def effects? : List Action → Outlook → Option (List Event)
  | [], _ => some []
  | a :: rest, o =>
    match a.effect? o, effects? rest (o.next a) with
    | some own, some more => some (.log (.executing a) :: own ++ more)
    | _, _ => none

/-- What is seen of an action that a directive is aborted at, with the error: an action that is not
known is not announced; one that was not carried out shows nothing but the announcement and the error;
and one whose output was only not flushed shows the output as well. The connection is dropped unless
the action failed. -/
inductive Action.Fails (a : Action) (o : Outlook) (drain : Option Fault) :
    ActionError → List Event → Prop
  | unknown (hk : a.kind = none) :
      Fails a o drain (.unknown a.name) [.log (.actionError (.unknown a.name)), .abort]
  | uncounted (hk : a.kind = some .data ∨ a.kind = some .wait) (hn : a.requested? = none) :
      Fails a o drain (.invalidParameter a.name a.param)
        [.log (.executing a), .log (.actionError (.invalidParameter a.name a.param)), .abort]
  | undone {f : Fault} (hk : a.kind ≠ none) (hw : a.kind ≠ some .wait)
      (hf : f.isExternal = true) :
      Fails a o drain (.failed a.name f) [.log (.executing a), .log (.actionError (.failed a.name f))]
  | unflushed {f : Fault} {own : Event} (ho : a.effect? o = some [own])
      (hown : own = .writeEof ∨ ∃ output, own = .write output) (hd : drain = some f)
      (hf : f.isExternal = true) :
      Fails a o drain (.failed a.name f)
        [.log (.executing a), own, .log (.actionError (.failed a.name f))]

namespace Action

variable {a : Action} {st : Stage} {c : Call Stage Trouble}

/-! ### One action -/

theorem requested_of_count {n : Nat} (h : a.count = .ok n) : a.requested? = some n := by
  obtain ⟨p, hp, hn, -, rfl⟩ := count_ok_iff.1 h
  simp only [requested?, hp, Option.bind_some, hn, if_true]

theorem requested_of_error {e : ActionError} (h : a.count = .error (.error e)) :
    a.requested? = none := by
  obtain ⟨hp, -⟩ := count_error_iff.1 h
  cases hparam : a.param with
  | none => simp only [requested?, hparam, Option.bind_none]
  | some p =>
    simp only [requested?, hparam, Option.bind_some, hp p hparam, Bool.false_eq_true, if_false]

theorem Writes.effect {supply : Supply} {out : Output} (h : a.Writes supply out) (o : Outlook) :
    a.effect? o = some [.write out] := by
  cases h with
  | send hk => simp only [effect?, hk]
  | data hk hn => simp only [effect?, hk, requested_of_count hn, Option.map_some]

theorem Writes.next {supply : Supply} {out : Output} (h : a.Writes supply out) (o : Outlook) :
    o.next a = o := by
  cases h with
  | send hk | data hk => simp only [Outlook.next, hk]

/-- A completed action shows its effect, and leaves the outlook that it is to leave. -/
theorem Attempt.effect (h : Attempt a st c) (he : c.error = none) :
    ∃ own, a.effect? st.outlook = some own ∧ c.events = .log (.executing a) :: own
      ∧ c.state.outlook = st.outlook.next a := by
  cases h with
  | unknown | uncounted | unsupplied | refused | unwritten | tornDown | unended | tooLong
  | unshut => cases he
  | written hw => exact ⟨_, hw.effect _, rfl, (hw.next _).symm⟩
  | closedBefore hk hc =>
    refine ⟨[], ?_, rfl, ?_⟩
    · simp only [effect?, hk, Stage.outlook, hc, if_true]
    · simp only [Outlook.next, hk, Stage.outlook, hc]
  | ended hk hc =>
    refine ⟨[.writeEof], ?_, rfl, ?_⟩
    · simp only [effect?, hk, Stage.outlook, hc, Bool.false_eq_true, if_false]
    · simp only [Outlook.next, hk, Stage.outlook]
  | @slept n duration hk hn hq =>
    refine ⟨[.sleep duration], ?_, rfl, ?_⟩
    · simp only [effect?, hk, requested_of_count hn, Option.bind_some, hq, Option.map_some]
    · simp only [Outlook.next, hk]
  | alone hk hg =>
    refine ⟨[.log .nothingToShut], ?_, rfl, ?_⟩
    · simp only [effect?, hk, Stage.outlook, hg, Option.map_none]
    · simp only [Outlook.next, hk, Stage.outlook, hg, Option.map_none]
  | shutBefore hk hg hl =>
    refine ⟨[], ?_, rfl, ?_⟩
    · simp only [effect?, hk, Stage.outlook, hg, Option.map_some, hl]
    · simp only [Outlook.next, hk, Stage.outlook, hg, Option.map_some, hl]
  | @shut g acceptor hk hg ha hs hf =>
    have hl : g.isListening = true := by rw [Gate.isListening, ha]; exact hs
    refine ⟨[.serverClose, .log .stoppedListening], ?_, rfl, ?_⟩
    · simp only [effect?, hk, Stage.outlook, hg, Option.map_some, hl]
    · simp only [Outlook.next, hk, Stage.outlook, hg, Option.map_some]
      rfl

/-- An error that drops the connection ends a directive only if it is dropped. -/
theorem conclude_drops {e e' : ActionError} (hd : e.drops = true)
    (hr : ((Trouble.error e).conclude st).result = .aborted e') :
    e' = e ∧ ((Trouble.error e).conclude st).events = [.log (.actionError e), .abort] := by
  rw [Trouble.conclude, hd] at hr ⊢
  simp only [if_true, Session.abort] at hr ⊢
  cases ha : st.session.faults.abort with
  | some f =>
    simp only [ha] at hr
    cases hr
  | none =>
    simp only [ha] at hr ⊢
    cases hr
    exact ⟨rfl, trivial⟩

/-- A fault ends a directive with an error only if it is one of input and output. -/
theorem conclude_ofFault {f : Fault} {e : ActionError}
    (hr : ((Trouble.ofFault a f).conclude st).result = .aborted e) :
    f.isExternal = true ∧ e = .failed a.name f
      ∧ ((Trouble.ofFault a f).conclude st).events = [.log (.actionError (.failed a.name f))] := by
  cases hf : f.isExternal with
  | false =>
    rw [Trouble.ofFault, hf] at hr
    cases hr
  | true =>
    rw [Trouble.ofFault, hf] at hr ⊢
    cases hr
    exact ⟨rfl, rfl, rfl⟩

theorem Writes.kind {supply : Supply} {out : Output} (h : a.Writes supply out) :
    a.kind ≠ none ∧ a.kind ≠ some .wait := by
  cases h with
  | send hk | data hk => rw [hk]; exact ⟨nofun, nofun⟩

theorem Lacks.kind {supply : Supply} {f : Fault} (h : a.Lacks supply f) :
    a.kind ≠ none ∧ a.kind ≠ some .wait := by
  cases h with
  | send hk | data hk => rw [hk]; exact ⟨nofun, nofun⟩

/-- What is seen of an action that ends a directive with an error. -/
theorem Attempt.fails (h : Attempt a st c) {t : Trouble} {e : ActionError} (he : c.error = some t)
    (hr : (t.conclude c.state).result = .aborted e) :
    a.Fails st.outlook st.session.faults.drain e (c.events ++ (t.conclude c.state).events) := by
  cases h with
  | unknown hk =>
    obtain rfl := Option.some.inj he
    obtain ⟨rfl, hev⟩ := conclude_drops rfl hr
    rw [hev]
    exact .unknown hk
  | @uncounted t' hk hn =>
    obtain rfl : t' = t := Option.some.inj he
    cases t' with
    | fault f => cases hr
    | error e' =>
      obtain ⟨-, rfl⟩ := count_error_iff.1 hn
      obtain ⟨rfl, hev⟩ := conclude_drops rfl hr
      rw [hev]
      exact .uncounted hk (requested_of_error hn)
  | unsupplied =>
    obtain rfl := Option.some.inj he
    cases hr
  | refused hw | unwritten hw =>
    obtain rfl := Option.some.inj he
    obtain ⟨hf, rfl, hev⟩ := conclude_ofFault hr
    rw [hev]
    exact .undone hw.kind.1 hw.kind.2 hf
  | written hw =>
    obtain ⟨f, hd, rfl⟩ := Option.map_eq_some_iff.1 he
    obtain ⟨hf, rfl, hev⟩ := conclude_ofFault hr
    rw [hev]
    exact .unflushed (hw.effect _) (.inr ⟨_, rfl⟩) hd hf
  | tornDown hk | unended hk | unshut hk =>
    obtain rfl := Option.some.inj he
    obtain ⟨hf, rfl, hev⟩ := conclude_ofFault hr
    rw [hev]
    exact .undone (by rw [hk]; nofun) (by rw [hk]; nofun) hf
  | ended hk hc =>
    obtain ⟨f, hd, rfl⟩ := Option.map_eq_some_iff.1 he
    obtain ⟨hf, rfl, hev⟩ := conclude_ofFault hr
    rw [hev]
    refine .unflushed ?_ (.inl rfl) hd hf
    simp only [effect?, hk, Stage.outlook, hc, Bool.false_eq_true, if_false]
  | tooLong =>
    obtain rfl := Option.some.inj he
    cases hr
  | closedBefore | slept | alone | shutBefore | shut => cases he

end Action

/-! ### Whole directives -/

namespace Directive

/-- A run shows the effects of the actions completed, and behind them nothing if all are, or else
what is seen of the action that it is aborted at. -/
theorem complete_shows (acts : List Action) (st : Stage) : ∃ shown tail,
    effects? (complete acts st).result.1 st.outlook = some shown
      ∧ (complete acts st).events = shown ++ tail
      ∧ ((complete acts st).result.2 = .done → acts = (complete acts st).result.1 ∧ tail = [])
      ∧ ∀ e, (complete acts st).result.2 = .aborted e →
          ∃ a rest, acts = (complete acts st).result.1 ++ a :: rest
            ∧ a.Fails ((complete acts st).result.1.foldl Outlook.next st.outlook)
                st.session.faults.drain e tail := by
  induction acts generalizing st with
  | nil => exact ⟨[], [], rfl, rfl, fun _ => ⟨rfl, rfl⟩, nofun⟩
  | cons a rest ih =>
    have ha := a.attempt_spec st
    cases he : (a.attempt st).error with
    | some t =>
      rw [complete_trouble rest he]
      refine ⟨[], _, rfl, rfl, fun hdone => ?_, fun e hr => ⟨a, rest, rfl, ha.fails he hr⟩⟩
      exact absurd hdone (t.conclude_ne_done _)
    | none =>
      obtain ⟨own, hown, hev, hnext⟩ := ha.effect he
      obtain ⟨ended, hs⟩ := ha.session
      obtain ⟨more, tail, hmore, hrest, hdone, haborted⟩ := ih (a.attempt st).state
      rw [hnext] at hmore haborted
      rw [hs] at haborted
      rw [complete_go rest he]
      refine ⟨.log (.executing a) :: own ++ more, tail, ?_, ?_, fun h => ?_, fun e hr => ?_⟩
      · simp only [effects?, hown, Run.after, hmore]
      · simp only [Run.after, hrest, hev, List.append_assoc]
      · obtain ⟨hacts, htail⟩ := hdone h
        exact ⟨congrArg (a :: ·) hacts, htail⟩
      · obtain ⟨b, left, hacts, hb⟩ := haborted e hr
        exact ⟨b, left, congrArg (a :: ·) hacts, hb⟩

/-- Whatever is accounted for shows the effects of the actions completed and, if it was aborted,
behind them what is seen of the action it was aborted at, the empty directive apart, which is logged
as such. -/
theorem execute_shows {d : Directive} {st : Stage} {account : Account}
    (h : Account.ofEnding (d.execute st).result.1 (d.execute st).result.2 = .ok account) :
    ∃ shown tail, effects? account.completed st.outlook = some shown
      ∧ (d.execute st).events = (if d = [] then [.log .nothingToDo] else []) ++ (shown ++ tail)
      ∧ match account.error with
        | none => account.status = .done ∧ d = account.completed ∧ tail = []
        | some e => account.status = .aborted ∧ ∃ a rest, d = account.completed ++ a :: rest
            ∧ a.Fails (account.completed.foldl Outlook.next st.outlook) st.session.faults.drain e
                tail := by
  obtain ⟨shown, tail, hshown, hevents, hdone, haborted⟩ := complete_shows d st
  rw [execute_result] at h
  rw [execute_shows_complete, hevents]
  cases hr : (complete d st).result.2 with
  | done =>
    rw [hr] at h
    cases h
    exact ⟨shown, tail, hshown, rfl, rfl, hdone hr⟩
  | aborted e =>
    rw [hr] at h
    cases h
    exact ⟨shown, tail, hshown, rfl, rfl, haborted e hr⟩
  | escaped f =>
    rw [hr] at h
    cases h

/-- A directive that stops the listener, finds it stopped, and cannot flush what it writes. -/
theorem execute_shows_unflushed :
    let broken : Fault := { kind := .brokenPipe, message := [] }
    let st : Stage := ⟨{ peer := [], faults := { drain := some broken } }, some (Gate.started none)⟩
    let wait : Action := ⟨"WAIT".toList, some "5".toList⟩
    let shut : Action := ⟨"SHUT".toList, none⟩
    let send : Action := ⟨"SEND".toList, some "a%20b".toList⟩
    let d : Directive := [wait, shut, shut, send, wait]
    Account.ofEnding (d.execute st).result.1 (d.execute st).result.2
        = .ok ⟨.aborted, [wait, shut, shut], some (.failed send.name broken)⟩
      ∧ ∃ shown tail, effects? [wait, shut, shut] st.outlook = some shown
          ∧ (d.execute st).events = shown ++ tail ∧ shown ≠ [] := by
  intro broken st wait shut send d
  have h : Account.ofEnding (d.execute st).result.1 (d.execute st).result.2
      = .ok ⟨.aborted, [wait, shut, shut], some (.failed send.name broken)⟩ := rfl
  obtain ⟨shown, tail, hshown, hevents, -⟩ := execute_shows h
  refine ⟨h, shown, tail, hshown, hevents, ?_⟩
  rintro rfl
  exact absurd hshown (by decide)

/-- The empty directive completes nothing and yet shows something. -/
theorem empty_shows_more :
    let st : Stage := ⟨{ peer := [] }, none⟩
    Account.ofEnding (execute [] st).result.1 (execute [] st).result.2 = .ok { status := .done }
      ∧ effects? [] st.outlook = some [] ∧ (execute [] st).events ≠ [] :=
  ⟨rfl, rfl, by decide⟩

end Directive
end ScriptedServer
