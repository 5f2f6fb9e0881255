import ScriptedServer.Proofs.Calls
import ScriptedServer.Proofs.Lifetime

/-!
Nothing is sent once the outbound side is over, be it ended, torn down or lost. The record of a session
that is called in any way and the history of a connection in any run are records of that kind
(`Mark.Silenced`), since both are sealed courses. An action that then asks for output is not completed.
If the supply delivers the output the write is refused, and a directive that is executed is aborted there
(`complete_refused`); if it does not, there is nothing to be refused, and the fault of the supply gets out.
On a connection, which runs one directive at most, no action is announced behind either
(`Connection.Tells`).
-/

namespace ScriptedServer

/-- Whether an action has gone wrong. -/
def Mark.fails : Mark → Bool
  | seen (.log (.actionError _)) => true
  | _ => false

/-- Whether a directive ends with a mark at the latest: an action has gone wrong, or one is announced
whose output the supply does not deliver. -/
def Mark.Stops (supply : Supply) (m : Mark) : Prop :=
  m.fails = true ∨ ∃ a f, m = .seen (.log (.executing a)) ∧ a.Lacks supply f

/-- A record in which nothing is sent once the outbound side is over, in which it is ended at most once
and the connection closed at most once, and in which an action that asks afterwards for output that the
supply delivers fails. -/
structure Mark.Silenced (supply : Supply) (marks : List Mark) : Prop where
  silent : marks.Pairwise fun m m' => m.endsOutput = true → m'.isOutput = false
  endedOnce : marks.count (.seen .writeEof) ≤ 1
  closedOnce : marks.count (.seen .close) ≤ 1
  refuses : ∀ before a after, marks = before ++ .seen (.log (.executing a)) :: after → a.Asks →
    (∀ f, ¬ a.Lacks supply f) → (∃ m ∈ before, m.endsOutput = true) → Mark.Failure a after

/-- What excludes itself afterwards is there at most once. -/
theorem count_le_one_of_pairwise {marks : List Mark} {x : Mark}
    (h : marks.Pairwise fun m m' => m = x → m' ≠ x) : marks.count x ≤ 1 := by
  induction h with
  | nil => simp
  | @cons m rest hm _ ih =>
    by_cases hx : m = x
    · have hnone : rest.count x = 0 :=
        List.count_eq_zero_of_not_mem fun hmem => hm x hmem hx rfl
      have hone : (x :: rest).count x = 1 := by rw [List.count_cons_self, hnone]
      rw [hx]
      exact Nat.le_of_eq hone
    · rwa [List.count_cons_of_ne hx]

theorem Session.Sealed.silenced {s s' : Session} {marks : List Mark} (h : Session.Sealed s marks s') :
    Mark.Silenced s.supply marks where
  silent := h.silentBehind
  endedOnce := by
    refine count_le_one_of_pairwise (h.silentBehind.imp ?_)
    rintro m m' hquiet rfl rfl
    cases hquiet rfl
  closedOnce := count_le_one_of_pairwise h.closedOnce
  refuses before a after he ha hl hend := by
    obtain ⟨out, hw⟩ := (ha.writes_or_lacks s.supply).resolve_right fun ⟨f, hf⟩ => hl f hf
    exact h.refuses before a after out he hw (.inr hend)

/-! ### Directives -/

/-- No attempt shows by itself that it went wrong. -/
theorem Action.Attempt.not_fails {a : Action} {st : Stage} {c : Call Stage Trouble}
    (h : a.Attempt st c) : ∀ m ∈ Mark.all c.events, m.fails = false := by
  cases h <;> simp [Mark.fails]

/-- Behind an attempt that meets no trouble the directive goes on. -/
theorem Action.attempt_not_stops {a : Action} {st : Stage} (he : (a.attempt st).error = none) :
    ∀ m ∈ Mark.all (a.attempt st).events, ¬ m.Stops st.session.supply := by
  have ha := a.attempt_spec st
  rintro m hm (hf | ⟨b, f, rfl, hl⟩)
  · rw [ha.not_fails m hm] at hf
    cases hf
  · -- the only action that is announced is the one that is attempted
    rcases ha.announced with hev | ⟨tail, hev, htail⟩
    · rw [hev] at hm
      cases hm
    · rw [hev] at hm
      rcases List.mem_cons.1 hm with heq | hmem
      · cases heq
        rw [attempt_unsupplied hl] at he
        cases he
      · cases htail _ hmem

namespace Directive

/-- A directive comes to nothing more at an action that asks for output where the outbound side is over:
it is aborted if the supply delivers the output, and left by the fault of the supply if not. -/
theorem complete_refused {before : List Action} {a : Action} {st : Stage}
    (hdone : (complete before st).result.2 = .done) (ha : a.Asks)
    (hc : (complete before st).stage.session.isClosing = true) (rest : List Action) :
    (complete (before ++ a :: rest) st).result.1 = before
      ∧ ((∀ f, ¬ a.Lacks st.session.supply f) →
          (complete (before ++ a :: rest) st).result.2 = .aborted (.failed a.name .writeAfterClose))
      ∧ ∀ f, a.Lacks st.session.supply f →
          (complete (before ++ a :: rest) st).result.2 = .escaped f := by
  induction before generalizing st with
  | nil =>
    have hopen : st.session.isClosing = true := hc
    rw [List.nil_append]
    rcases ha.writes_or_lacks st.session.supply with ⟨out, hw⟩ | ⟨f, hl⟩
    · rw [complete_trouble rest (by rw [Action.attempt_refused hw hopen])]
      exact ⟨rfl, fun _ => rfl, fun f hl => absurd hl (hw.not_lacks f)⟩
    · rw [complete_trouble rest (by rw [Action.attempt_unsupplied hl])]
      refine ⟨rfl, fun hnone => absurd hl (hnone f), fun f' hl' => ?_⟩
      rw [hl.unique hl']
      rfl
  | cons b before ih =>
    cases he : (b.attempt st).error with
    | some t =>
      rw [complete_trouble before he] at hdone
      exact absurd hdone (t.conclude_ne_done _)
    | none =>
      rw [complete_go before he] at hdone hc
      obtain ⟨hcompleted, haborted, hescaped⟩ := ih hdone hc
      rw [(b.attempt_spec st).supply] at haborted hescaped
      rw [List.cons_append, complete_go _ he]
      exact ⟨congrArg (b :: ·) hcompleted, haborted, hescaped⟩

/-- A stretch that shows that it stops has ended, and announces no action behind. -/
theorem advance_stops (acts : List Action) (st : Stage) :
    ((∃ m ∈ Mark.all (advance acts st).events, m.Stops st.session.supply) →
        ∃ e, (advance acts st).result = .ended e)
      ∧ (Mark.all (advance acts st).events).Pairwise
          fun m m' => m.Stops st.session.supply → m'.announces = false := by
  induction acts generalizing st with
  | nil => exact ⟨fun _ => ⟨.done, rfl⟩, .nil⟩
  | cons a rest ih =>
    have ha := a.attempt_spec st
    cases he : (a.attempt st).error with
    | some t =>
      have htrouble := t.conclude_announces (a.attempt st).state
      have hown : (Mark.all (a.attempt st).events).Pairwise
          fun m m' => m.Stops st.session.supply → m'.announces = false := by
        rcases ha.announced with hev | ⟨tail, hev, htail⟩
        · rw [hev]
          exact .nil
        · rw [hev]
          refine List.pairwise_cons.2 ⟨fun m' hm' _ => htail m' hm', ?_⟩
          exact List.pairwise_of_forall_mem_list fun _ _ m' hm' _ => htail m' hm'
      rw [advance_trouble rest he, Mark.all_append]
      refine ⟨fun _ => ⟨_, rfl⟩, List.pairwise_append.2 ⟨hown, ?_, ?_⟩⟩
      · exact List.pairwise_of_forall_mem_list fun _ _ m' hm' _ => htrouble m' hm'
      · exact fun _ _ m' hm' _ => htrouble m' hm'
    | none =>
      have hgo := Action.attempt_not_stops he
      have hquiet : (Mark.all (a.attempt st).events).Pairwise
          fun m m' => m.Stops st.session.supply → m'.announces = false :=
        List.pairwise_of_forall_mem_list fun m hm _ _ hs => absurd hs (hgo m hm)
      by_cases hk : a.kind = some .wait
      · rw [advance_wait rest he hk]
        refine ⟨?_, hquiet⟩
        rintro ⟨m, hm, hs⟩
        exact absurd hs (hgo m hm)
      · obtain ⟨hended, hbehind⟩ := ih (a.attempt st).state
        rw [ha.supply] at hended hbehind
        rw [advance_go rest he hk]
        simp only [Run.after, Mark.all_append]
        refine ⟨?_, List.pairwise_append.2 ⟨hquiet, hbehind, ?_⟩⟩
        · rintro ⟨m, hm, hs⟩
          rcases List.mem_append.1 hm with hm | hm
          · exact absurd hs (hgo m hm)
          · exact hended ⟨m, hm, hs⟩
        · intro m hm m' _ hs
          exact absurd hs (hgo m hm)

theorem begin_stops (d : Directive) (st : Stage) :
    ((∃ m ∈ Mark.all (begin d st).events, m.Stops st.session.supply) →
        ∃ e, (begin d st).result = .ended e)
      ∧ (Mark.all (begin d st).events).Pairwise
          fun m m' => m.Stops st.session.supply → m'.announces = false := by
  rw [begin]
  split
  · exact ⟨fun _ => ⟨.done, rfl⟩, List.pairwise_singleton _ _⟩
  · exact advance_stops d st

end Directive

/-! ### Connections -/

/-- Whether a directive has come to its end. -/
def Job.isOver : Job → Bool
  | ended _ => true
  | _ => false

theorem Job.ofProgress_ended (e : Ending) : (Job.ofProgress (.ended e)).isOver = true := by
  cases e <;> rfl

namespace Connection

/-- How what is shown of a directive goes with where it stands: once it is over nothing is announced,
and it is over as soon as an action has gone wrong or lacks its output. -/
structure Tells (supply : Supply) (c : Connection) (marks : List Mark) (c' : Connection) : Prop where
  ofOver : c.job.isOver = true → c'.job.isOver = true ∧ ∀ m ∈ marks, m.announces = false
  ended : (∃ m ∈ marks, m.Stops supply) → c'.job.isOver = true
  behind : marks.Pairwise fun m m' => m.Stops supply → m'.announces = false

variable {c c' c'' : Connection} {g : Gate} {marks more : List Mark}
  {directive : Option Directive} {supply : Supply}

theorem Tells.trans (h : Tells supply c marks c') (h' : Tells supply c' more c'') :
    Tells supply c (marks ++ more) c'' where
  ofOver ho := by
    obtain ⟨ho', hm⟩ := h.ofOver ho
    obtain ⟨ho'', hmore⟩ := h'.ofOver ho'
    exact ⟨ho'', List.forall_mem_append.2 ⟨hm, hmore⟩⟩
  ended := by
    rintro ⟨m, hm, hs⟩
    rcases List.mem_append.1 hm with hm | hm
    · exact (h'.ofOver (h.ended ⟨m, hm, hs⟩)).1
    · exact h'.ended ⟨m, hm, hs⟩
  behind := by
    refine List.pairwise_append.2 ⟨h.behind, h'.behind, fun m hm m' hm' hs => ?_⟩
    exact (h'.ofOver (h.ended ⟨m, hm, hs⟩)).2 m' hm'

/-- A record of other things than the directive, which stands where it stood. -/
theorem tells_aside (hj : c'.job = c.job)
    (hm : ∀ m ∈ marks, m.announces = false ∧ m.fails = false) : Tells supply c marks c' where
  ofOver ho := ⟨by rw [hj]; exact ho, fun m hmem => (hm m hmem).1⟩
  ended := by
    rintro ⟨m, hmem, hf | ⟨a, f, rfl, -⟩⟩
    · rw [(hm m hmem).2] at hf
      cases hf
    · cases (hm _ hmem).1
  behind := List.pairwise_of_forall_mem_list fun _ _ m' hmem' _ => (hm m' hmem').1

theorem aside_of_not_ofDirective {events : List Event} (h : ∀ e ∈ events, e.ofDirective = false) :
    ∀ m ∈ Mark.all events, m.announces = false ∧ m.fails = false := by
  refine List.forall_mem_map.2 fun e he => ?_
  have hd := h e he
  cases e with
  | log line =>
    cases line with
    | executing | actionError => cases hd
    | _ => exact ⟨rfl, rfl⟩
  | _ => exact ⟨rfl, rfl⟩

theorem Closes.tells {r : Connection × List Event} (h : Closes c r) : Tells supply c (Mark.all r.2) r.1 :=
  tells_aside h.job (aside_of_not_ofDirective h.events)

theorem rest_tells {t : Turn} (h : Tells supply c (Mark.all t.events) t.connection) :
    Tells supply c (Mark.all (rest t).events) (rest t).connection := by
  rw [rest, Mark.all_append]
  exact h.trans (settle_closes t.connection).tells

/-- A directive that is not over is gone on with. -/
theorem work_tells (hj : c.job.isOver = false) {stretch : Stage → Run Progress}
    (h : ((∃ m ∈ Mark.all (stretch ⟨c.session, some g⟩).events, m.Stops c.session.supply) →
          ∃ e, (stretch ⟨c.session, some g⟩).result = .ended e)
        ∧ (Mark.all (stretch ⟨c.session, some g⟩).events).Pairwise
            fun m m' => m.Stops c.session.supply → m'.announces = false) :
    Tells c.session.supply c (Mark.all (c.work g stretch).events) (c.work g stretch).connection where
  ofOver ho := by
    rw [hj] at ho
    cases ho
  ended hs := by
    obtain ⟨e, he⟩ := h.1 hs
    simp only [work, he, Job.ofProgress_ended]
  behind := h.2

theorem received_aside (ps : List (List UInt8)) :
    ∀ m ∈ Mark.all (ps.map receivedLine), m.announces = false ∧ m.fails = false :=
  aside_of_not_ofDirective (List.forall_mem_map.2 fun _ _ => rfl)

theorem refuse_tells (c : Connection) (g : Gate) (ps : List (List UInt8)) :
    Tells supply c (Mark.all (c.refuse g (ps.map receivedLine)).events)
      (c.refuse g (ps.map receivedLine)).connection := by
  rw [refuse]
  cases he : c.session.hangUp.error with
  | some f => exact (breakOff_closes c f).tells
  | none =>
    rw [Session.hangUp]
    simp only [Mark.all_append]
    refine tells_aside rfl (List.forall_mem_append.2 ⟨?_, received_aside ps⟩)
    cases c.session.faults.close <;> simp [Mark.announces, Mark.fails]

/-- Reading begins a directive where there is none. -/
theorem read_tells (hj : c.job.isOver = false) (g : Gate) (data : List UInt8) :
    Tells c.session.supply c (Mark.all (c.read g data).events) (c.read g data).connection := by
  have htaken : Tells c.session.supply c [] { c with session.consumed := true } := tells_aside rfl (by simp)
  cases hp : pieces data with
  | nil =>
    rw [read_nothing hp]
    exact tells_aside rfl (by simp)
  | cons first others =>
    cases hk : c.session.consumed with
    | true =>
      rw [read_consumed hp hk]
      exact tells_aside rfl (received_aside (first :: others))
    | false =>
      cases hd : Directive.ofBytes? first with
      | none =>
        have hlogged : Tells c.session.supply { c with session.consumed := true }
            [.seen (receivedLine first), .seen (.log .requestIncorrect)]
            { c with session.consumed := true } :=
          tells_aside rfl (by simp [receivedLine, Mark.announces, Mark.fails])
        rw [read_refused hp hk hd, Turn.after, Mark.all_append]
        exact (htaken.trans hlogged).trans (refuse_tells _ g others)
      | some d =>
        have hlogged : Tells c.session.supply { c with session.consumed := true }
            (Mark.all ((first :: others).map receivedLine)) { c with session.consumed := true } :=
          tells_aside rfl (received_aside (first :: others))
        rw [read_begun hp hk hd, Turn.after, Mark.all_append]
        exact (htaken.trans hlogged).trans
          (work_tells (c := { c with session.consumed := true }) hj (Directive.begin_stops d _))

/-- A turn that a step brings about. -/
theorem reaction_tells {s : Step} {t : Turn} (hr : s.reaction directive g c = some t)
    (hb : c.Begun directive) :
    Tells c.session.supply c (s.brings ++ Mark.all t.events) t.connection := by
  have heof : Tells c.session.supply c [.eof] c :=
    tells_aside rfl (by simp [Mark.announces, Mark.fails])
  cases s with
  | receive n data eof =>
    obtain ⟨-, ⟨⟩⟩ := Option.ite_none_right_eq_some.1 hr
    suffices h : Tells c.session.supply c (Mark.all (c.receive directive g data eof).events)
        (c.receive directive g data eof).connection by
      cases eof with
      | true => exact heof.trans h
      | false => exact h
    by_cases htaken : directive.isSome = true ∨ c.session.consumed = true
    · exact (receive_closes htaken g data eof).1.tells
    · have hj : c.job = .none := hb.resolve_right htaken
      rw [receive]
      split
      · exact rest_tells (inbound_closes c _).tells
      · have hread := read_tells (c := c) (by rw [hj]; rfl) g data
        have hin := inbound_closes (c.read g data).connection
          ((c.read g data).connection.inboundOpen && !eof)
        refine rest_tells ?_
        simpa using hread.trans hin.tells
  | endInbound n =>
    obtain ⟨-, ⟨⟩⟩ := Option.ite_none_right_eq_some.1 hr
    exact heof.trans (endInbound_closes c g).tells
  | reset n f =>
    obtain ⟨-, ⟨⟩⟩ := Option.ite_none_right_eq_some.1 hr
    have hlost : Tells c.session.supply c [.reset]
        { c with session := c.session.lose, inboundOpen := false } :=
      tells_aside rfl (by simp [Mark.announces, Mark.fails])
    exact hlost.trans (rest_tells (breakOff_closes _ f).tells)
  | wake n =>
    rw [Step.reaction] at hr
    split at hr
    · rename_i left hj
      cases hr
      exact rest_tells (work_tells (by rw [hj]; rfl) (Directive.advance_stops left _))
    · cases hr
  | setFault n point f =>
    cases hr
    exact tells_aside rfl (by simp [Step.brings])
  | start | shutdown | serve | close | connect | setCloseFault => cases hr

theorem drop_tells (c : Connection) (g : Gate) :
    Tells supply c (Mark.all (c.drop g).events) (c.drop g).connection := by
  refine rest_tells (tells_aside rfl ?_)
  rw [Session.abort]
  cases c.session.faults.abort <;> simp [Mark.announces, Mark.fails]

theorem accept_tells (hj : c.job = .none) (peer : List Value) (faults : FaultPlan)
    (directive : Option Directive) (g : Gate) :
    Tells faults.supply c (Mark.all (accept peer faults directive g).events)
      (accept peer faults directive g).connection := by
  rw [accept]
  cases peerLabel peer with
  | error f => exact tells_aside hj.symm (by simp)
  | ok label =>
    have hconnected : Tells faults.supply c [.seen (.log (.connected label))]
        { session := { peer := label, faults } } :=
      tells_aside hj.symm (by simp [Mark.announces, Mark.fails])
    refine rest_tells ?_
    rw [Turn.after, Mark.all_append]
    cases directive with
    | none => exact hconnected.trans (tells_aside rfl (by simp))
    | some d =>
      have hwork := work_tells (c := { session := { peer := label, faults } }) (g := g) rfl
        (Directive.begin_stops d _)
      exact hconnected.trans hwork

end Connection

/-- The history of a connection is a sealed course of its session, and tells of its directive. -/
theorem Invariant.sealed (directive : Option Directive) :
    Invariant directive (fun _ => True) fun c hist => (c.AtRest ∧ c.Begun directive)
      ∧ ∃ c₀ : Connection, Session.Sealed c₀.session hist c.session
          ∧ Connection.Tells c₀.session.supply c₀ hist c where
  accept {_ faults} peer g _ := by
    refine ⟨⟨Connection.accept_atRest peer _ directive g,
      Connection.accept_begun peer _ directive g⟩, ?_⟩
    obtain ⟨label, hp⟩ := Connection.accept_passes peer faults directive g
    exact ⟨_, hp.session, Connection.accept_tells rfl peer _ directive g⟩
  turn {_ _ c _ _} _ hr := by
    rintro ⟨hb, c₀, hsealed, htells⟩
    have hturn := Connection.reaction_tells hr hb.2
    rw [hsealed.supply] at hturn
    exact ⟨⟨Connection.reaction_atRest hr hb.1, hb.2.turn hb.1 hr⟩, c₀,
      hsealed.trans (Connection.reaction_passes hr hb.1).session, htells.trans hturn⟩
  drop g _ := by
    rintro ⟨hb, c₀, hsealed, htells⟩
    exact ⟨⟨Connection.drop_atRest _ g, hb.2.drop g⟩, c₀,
      hsealed.trans (Connection.drop_passes _ g).session, htells.trans (Connection.drop_tells _ g)⟩

/-! ### Any calls, and any run -/

end ScriptedServer
