import ScriptedServer.Proofs.Progress

/-!
How the flags of a session go with what befalls its connection. A record is a list of marks: what is
seen of the connection, and the two things that come from its peer and show nothing of themselves.
`Session.Course` ties a record to the session in front of it and the session behind it: the flags say
no less than the record does, nothing is sent where they say that the outbound side is over, and an
action that then asks for output is refused at once. Courses compose (`Course.trans`), so the law of a
long record is put together from those of single calls, attempts and stretches of a directive.
-/

namespace ScriptedServer

/-- What befalls a connection: something is seen of it, its inbound side ends, or it is reset. -/
inductive Mark where
  | seen (e : Event)
  | eof
  | reset
  deriving DecidableEq

namespace Mark

/-- Whether something is sent: bytes, or the end of the outbound side. -/
def isOutput : Mark → Bool
  | seen (.write _) | seen .writeEof => true
  | _ => false

/-- Whether the connection is torn down. -/
def tearsDown : Mark → Bool
  | seen .close | seen .abort | reset => true
  | _ => false

/-- Whether the outbound side is over from here on. -/
def endsOutput (m : Mark) : Bool := m = seen .writeEof || m.tearsDown

/-- Whether the inbound side is over from here on. -/
def endsInbound (m : Mark) : Bool := m = eof || m.tearsDown

/-- Whether an action is announced. -/
def announces : Mark → Bool
  | seen (.log (.executing _)) => true
  | _ => false

end Mark

/-- The record of what is seen. -/
def Mark.all (events : List Event) : List Mark := events.map .seen

@[simp] theorem Mark.all_nil : Mark.all [] = [] := rfl

@[simp] theorem Mark.all_cons (e : Event) (events : List Event) :
    Mark.all (e :: events) = .seen e :: Mark.all events := rfl

@[simp] theorem Mark.all_append (events more : List Event) :
    Mark.all (events ++ more) = Mark.all events ++ Mark.all more := List.map_append

@[simp] theorem Mark.seen_mem_all {e : Event} {events : List Event} :
    .seen e ∈ Mark.all events ↔ e ∈ events := by
  simp [Mark.all]

/-! ### Actions that are refused -/

/-- The record of an action that has failed as one of input and output, with more behind it. -/
def Mark.Failure (a : Action) (behind : List Mark) : Prop :=
  ∃ f rest, f.isExternal = true ∧ behind = .seen (.log (.actionError (.failed a.name f))) :: rest

/-- Whether each action that asks for output where the outbound side is over fails at once, if the
supply delivers what it asks for. The side is over behind a mark that ends it, and from the beginning
if `shut` holds. -/
def Mark.Refuses (supply : Supply) (shut : Prop) (marks : List Mark) : Prop :=
  ∀ before a after out, marks = before ++ .seen (.log (.executing a)) :: after →
    a.Writes supply out → (shut ∨ ∃ m ∈ before, m.endsOutput = true) → Mark.Failure a after

namespace Mark

variable {supply : Supply} {shut : Prop} {marks more : List Mark}

theorem Refuses.of_not_announced (h : ∀ m ∈ marks, m.announces = false) :
    Refuses supply shut marks := by
  rintro before a after out rfl - -
  have ha := h (.seen (.log (.executing a))) (by simp)
  cases ha

/-- A record that begins with the announcement of an action and holds no other. -/
theorem Refuses.of_announced {a : Action} (hm : ∀ m ∈ marks, m.announces = false)
    (h : shut → ∀ out, a.Writes supply out → Failure a marks) :
    Refuses supply shut (.seen (.log (.executing a)) :: marks) := by
  intro before a' after out he hw hover
  cases before with
  | nil =>
    cases he
    rcases hover with ho | ⟨m, hm, -⟩
    · exact h ho out hw
    · cases hm
  | cons m before =>
    obtain ⟨-, rfl⟩ := List.cons.inj he
    have ha := hm (.seen (.log (.executing a'))) (by simp)
    cases ha

theorem Refuses.mono {shut' : Prop} (h : Refuses supply shut marks) (ho : shut' → shut) :
    Refuses supply shut' marks := fun before a after out he hw hm =>
  h before a after out he hw (hm.imp_left ho)

/-- Behind one record the next begins with the outbound side over if that one ended it. -/
theorem Refuses.append (h : Refuses supply shut marks)
    (h' : Refuses supply (shut ∨ ∃ m ∈ marks, m.endsOutput = true) more) :
    Refuses supply shut (marks ++ more) := by
  intro before a after out he hw hover
  rcases List.append_eq_append_iff.1 he with ⟨mid, rfl, hmore⟩ | ⟨mid, hmarks, hafter⟩
  · refine h' mid a after out hmore hw ?_
    rcases hover with ho | ⟨m, hm, hend⟩
    · exact .inl (.inl ho)
    · rcases List.mem_append.1 hm with hm | hm
      · exact .inl (.inr ⟨m, hm, hend⟩)
      · exact .inr ⟨m, hm, hend⟩
  · cases mid with
    | nil =>
      -- the announcement is the first mark of the second record
      rw [List.append_nil] at hmarks
      subst hmarks
      exact h' [] a after out hafter.symm hw (.inl hover)
    | cons m mid =>
      obtain ⟨rfl, rfl⟩ := List.cons.inj hafter
      obtain ⟨f, rest, hf, rfl⟩ := h before a mid out hmarks hw hover
      exact ⟨f, rest ++ more, hf, rfl⟩

end Mark

/-! ### Courses -/

/-- No fault that is set touches what the actions draw on. -/
theorem FaultPlan.set_supply (p : FaultPlan) (f : Option Fault) (point : FailPoint) :
    (p.set f point).supply = p.supply := by
  cases point <;> rfl

/-- The record `marks` leads from session `s` to session `s'`. -/
structure Session.Course (s : Session) (marks : List Mark) (s' : Session) : Prop where
  peer : s'.peer = s.peer
  supply : s'.supply = s.supply
  closing : s'.closing = true ↔ s.closing = true ∨ ∃ m ∈ marks, m.tearsDown = true
  outputClosed : s.outputClosed = true ∨ .seen .writeEof ∈ marks → s'.outputClosed = true
  silent : s.isClosing = true → ∀ m ∈ marks, m.isOutput = false
  silentBehind : marks.Pairwise fun m m' => m.endsOutput = true → m'.isOutput = false
  unclosed : s.closing = true → .seen .close ∉ marks
  closedOnce : marks.Pairwise fun m m' => m = .seen .close → m' ≠ .seen .close

namespace Session

variable {s s' s'' : Session} {marks more : List Mark}

/-- A session goes on to be closing, and is so behind a mark that ends the outbound side. -/
theorem Course.isClosing (h : Course s marks s')
    (hs : s.isClosing = true ∨ ∃ m ∈ marks, m.endsOutput = true) : s'.isClosing = true := by
  rw [Session.isClosing, Bool.or_eq_true]
  rcases hs with hs | ⟨m, hm, hend⟩
  · rw [Session.isClosing, Bool.or_eq_true] at hs
    rcases hs with ho | hc
    · exact .inl (h.outputClosed (.inl ho))
    · exact .inr (h.closing.2 (.inl hc))
  · rw [Mark.endsOutput, Bool.or_eq_true, decide_eq_true_eq] at hend
    rcases hend with rfl | ht
    · exact .inl (h.outputClosed (.inr hm))
    · exact .inr (h.closing.2 (.inr ⟨m, hm, ht⟩))

theorem Course.trans (h : Course s marks s') (h' : Course s' more s'') :
    Course s (marks ++ more) s'' where
  peer := h'.peer.trans h.peer
  supply := h'.supply.trans h.supply
  closing := by
    rw [h'.closing, h.closing]
    simp only [List.mem_append, or_and_right, exists_or, or_assoc]
  outputClosed := by
    rw [List.mem_append]
    rintro (ho | hm | hm)
    · exact h'.outputClosed (.inl (h.outputClosed (.inl ho)))
    · exact h'.outputClosed (.inl (h.outputClosed (.inr hm)))
    · exact h'.outputClosed (.inr hm)
  silent := by
    intro hs m hm
    rcases List.mem_append.1 hm with hm | hm
    · exact h.silent hs m hm
    · exact h'.silent (h.isClosing (.inl hs)) m hm
  silentBehind := by
    refine List.pairwise_append.2 ⟨h.silentBehind, h'.silentBehind, fun m hm m' hm' hend => ?_⟩
    exact h'.silent (h.isClosing (.inr ⟨m, hm, hend⟩)) m' hm'
  unclosed := by
    intro hs hm
    rcases List.mem_append.1 hm with hm | hm
    · exact h.unclosed hs hm
    · exact h'.unclosed (h.closing.2 (.inl hs)) hm
  closedOnce := by
    refine List.pairwise_append.2 ⟨h.closedOnce, h'.closedOnce, ?_⟩
    rintro m hm m' hm' rfl rfl
    exact h'.unclosed (h.closing.2 (.inr ⟨_, hm, rfl⟩)) hm'

/-- A record in which nothing is sent and nothing torn down leaves the flags as they are, or ends the
outbound side unseen. -/
theorem course_still (hp : s'.peer = s.peer) (hf : s'.supply = s.supply)
    (hc : s'.closing = s.closing) (ho : s.outputClosed = true → s'.outputClosed = true)
    (hm : ∀ m ∈ marks, m.isOutput = false ∧ m.tearsDown = false) : Course s marks s' where
  peer := hp
  supply := hf
  closing := by
    rw [hc]
    refine ⟨.inl, ?_⟩
    rintro (hs | ⟨m, hmem, ht⟩)
    · exact hs
    · rw [(hm m hmem).2] at ht
      cases ht
  outputClosed := by
    rintro (hs | hmem)
    · exact ho hs
    · cases (hm _ hmem).1
  silent := fun _ m hmem => (hm m hmem).1
  silentBehind := List.pairwise_of_forall_mem_list fun m _ m' hm' _ => (hm m' hm').1
  unclosed := fun _ hmem => by cases (hm _ hmem).2
  closedOnce := List.pairwise_of_forall_mem_list fun m hmem m' _ h => by
    subst h
    cases (hm _ hmem).2

theorem Course.refl (s : Session) : Course s [] s := course_still rfl rfl rfl id (by simp)

/-- A record of a single mark. -/
theorem course_single {m : Mark} (hp : s'.peer = s.peer) (hf : s'.supply = s.supply)
    (hc : s'.closing = true ↔ s.closing = true ∨ m.tearsDown = true)
    (ho : s.outputClosed = true ∨ m = .seen .writeEof → s'.outputClosed = true)
    (hs : s.isClosing = true → m.isOutput = false) (hu : s.closing = true → m ≠ .seen .close) :
    Course s [m] s' where
  peer := hp
  supply := hf
  closing := by simpa using hc
  outputClosed := fun h => ho (h.imp_right fun hm => (List.mem_singleton.1 hm).symm)
  silent := by simpa using hs
  silentBehind := List.pairwise_singleton _ m
  unclosed := fun h hm => hu h (List.mem_singleton.1 hm).symm
  closedOnce := List.pairwise_singleton _ m

/-! ### The calls on a session -/

theorem written_course (hc : s.isClosing = false) (output : Output) :
    Course s [.seen (.write output)] s := by
  refine course_single rfl rfl ?_ ?_ ?_ ?_
  · simp [Mark.tearsDown]
  · simp
  · rw [hc]
    exact nofun
  · simp

theorem ended_course (hc : s.isClosing = false) :
    Course s [.seen .writeEof] { s with outputClosed := true } := by
  refine course_single rfl rfl ?_ (fun _ => rfl) ?_ ?_
  · simp [Mark.tearsDown]
  · rw [hc]
    exact nofun
  · simp

theorem write_course (s : Session) (output : Output) :
    Course s (Mark.all (s.write output).events) (s.write output).state := by
  rw [write]
  cases hc : s.isClosing with
  | true => exact .refl s
  | false =>
    cases s.faults.write with
    | some f => exact .refl s
    | none => exact written_course hc output

theorem close_course (s : Session) : Course s (Mark.all s.close.events) s.close.state := by
  rcases s.close_cases with ⟨-, he⟩ | ⟨-, -, he⟩ | ⟨-, f, -, he⟩ | ⟨hopen, -, he⟩
  · rw [he]
    exact .refl s
  · rw [he]
    exact .refl s
  · rw [he]
    exact course_still rfl rfl rfl (fun _ => rfl) (by simp)
  · rw [he]
    exact ended_course hopen

theorem abort_course (s : Session) : Course s (Mark.all s.abort.events) s.abort.state := by
  rw [abort]
  cases s.faults.abort with
  | some f => exact .refl s
  | none => exact course_single rfl rfl (by simp [Mark.tearsDown]) (by simp) (fun _ => rfl) (by simp)

/-- A connection that is not being torn down is hung up at most once. -/
theorem hangUp_course (hc : s.closing = false) :
    Course s (Mark.all s.hangUp.events) s.hangUp.state := by
  rw [hangUp]
  cases s.faults.close with
  | some f => exact .refl s
  | none =>
    refine course_single rfl rfl (by simp [Mark.tearsDown]) (by simp) (fun _ => rfl) ?_
    rw [hc]
    exact nofun

theorem release_course (s : Session) : Course s (Mark.all s.release.events) s.release.state := by
  have hwait : ∀ s : Session, Course s [.seen .waitClosed] s := fun s =>
    course_still rfl rfl rfl id (by simp [Mark.isOutput, Mark.tearsDown])
  rw [release]
  cases hc : s.closing with
  | true => exact hwait s
  | false =>
    have hh := hangUp_course hc
    simp only [Bool.false_eq_true, if_false]
    cases s.hangUp.error with
    | some f => exact hh
    | none =>
      simp only [Mark.all_append]
      exact hh.trans (hwait _)

/-- A reset ends the outbound side as well. -/
theorem lose_course (s : Session) : Course s [.reset] s.lose :=
  course_single rfl rfl (by simp [lose, Mark.tearsDown]) (fun h => h.resolve_right nofun)
    (fun _ => rfl) (fun _ => nofun)

end Session

/-- A course on which actions that ask for output are refused once the outbound side is over. -/
structure Session.Sealed (s : Session) (marks : List Mark) (s' : Session) : Prop
    extends Session.Course s marks s' where
  refuses : Mark.Refuses s.supply (s.isClosing = true) marks

namespace Session

variable {s s' s'' : Session} {marks more : List Mark}

theorem Course.sealed (h : Course s marks s') (hm : ∀ m ∈ marks, m.announces = false) :
    Sealed s marks s' := ⟨h, .of_not_announced hm⟩

theorem Sealed.refl (s : Session) : Sealed s [] s := (Course.refl s).sealed (by simp)

theorem Sealed.trans (h : Sealed s marks s') (h' : Sealed s' more s'') :
    Sealed s (marks ++ more) s'' := by
  have hrefuses := h'.refuses
  rw [h.supply] at hrefuses
  exact ⟨h.toCourse.trans h'.toCourse, h.refuses.append (hrefuses.mono h.isClosing)⟩

end Session

/-! ### Directives -/

/-- An attempt makes a course of its session. -/
theorem Action.Attempt.course {a : Action} {st : Stage} {c : Call Stage Trouble}
    (h : a.Attempt st c) : Session.Course st.session (Mark.all c.events) c.state.session := by
  have hstill : ∀ {events : List Event} {s' : Session}, s'.peer = st.session.peer →
      s'.supply = st.session.supply → s'.closing = st.session.closing →
      (st.session.outputClosed = true → s'.outputClosed = true) →
      (∀ e ∈ events, (Mark.seen e).isOutput = false ∧ (Mark.seen e).tearsDown = false) →
      Session.Course st.session (Mark.all events) s' := by
    intro events s' hp hf hc ho he
    exact Session.course_still hp hf hc ho (List.forall_mem_map.2 he)
  have hannounced : ∀ s : Session, Session.Course s [.seen (.log (.executing a))] s := fun s =>
    Session.course_still rfl rfl rfl id (by simp [Mark.isOutput, Mark.tearsDown])
  cases h with
  | @written out hw hc =>
    exact (hannounced st.session).trans (Session.written_course hc out)
  | ended hk hc hd =>
    have hopen : st.session.isClosing = false := by rw [Session.isClosing, hc, hd]; rfl
    exact (hannounced st.session).trans (Session.ended_course hopen)
  | unended => exact hstill rfl rfl rfl (fun _ => rfl) (by simp [Mark.isOutput, Mark.tearsDown])
  | _ => exact hstill rfl rfl rfl id (by simp [Mark.isOutput, Mark.tearsDown])

/-- An attempt announces its action, unless that is not known, and no other. -/
theorem Action.Attempt.announced {a : Action} {st : Stage} {c : Call Stage Trouble}
    (h : a.Attempt st c) : Mark.all c.events = [] ∨ ∃ tail,
      Mark.all c.events = .seen (.log (.executing a)) :: tail
        ∧ ∀ m ∈ tail, m.announces = false := by
  cases h with
  | unknown => exact .inl rfl
  | _ => exact .inr ⟨_, rfl, by simp [Mark.announces]⟩

/-- Where the outbound side is over, an action that asks for output fails at once. -/
theorem Action.attempt_refused {a : Action} {st : Stage} {out : Output}
    (hw : a.Writes st.session.supply out) (hc : st.session.isClosing = true) :
    a.attempt st =
      { state := st, events := [.log (.executing a)]
        error := some (.error (.failed a.name .writeAfterClose)) } := by
  cases hw with
  | send hk hs => simp only [attempt, hk, perform, hs, Session.write, hc, if_true]; rfl
  | data hk hn hs => simp only [attempt, hk, perform, hn, hs, Session.write, hc, if_true]; rfl

namespace Trouble

theorem conclude_course (t : Trouble) (st : Stage) :
    Session.Course st.session (Mark.all (t.conclude st).events) (t.conclude st).stage.session := by
  have hlogged : ∀ (s : Session) (e : ActionError),
      Session.Course s [.seen (.log (.actionError e))] s :=
    fun s e => Session.course_still rfl rfl rfl id (by simp [Mark.isOutput, Mark.tearsDown])
  cases t with
  | fault f => exact .refl st.session
  | error e =>
    rw [conclude]
    cases e.drops with
    | false => exact hlogged st.session e
    | true => exact (hlogged st.session e).trans st.session.abort_course

theorem conclude_announces (t : Trouble) (st : Stage) :
    ∀ m ∈ Mark.all (t.conclude st).events, m.announces = false := by
  cases t with
  | fault f => simp [conclude]
  | error e =>
    rw [conclude]
    cases e.drops with
    | false => simp [Mark.announces]
    | true =>
      simp only [if_true, Session.abort]
      cases st.session.faults.abort <;> simp [Mark.announces]

end Trouble

namespace Action

variable {a : Action} {st st' : Stage} {events : List Event}

/-- An attempt that meets no trouble, with what comes behind it. -/
theorem sealed_go (he : (a.attempt st).error = none)
    (h : Session.Sealed (a.attempt st).state.session (Mark.all events) st'.session) :
    Session.Sealed st.session (Mark.all ((a.attempt st).events ++ events)) st'.session := by
  have ha := a.attempt_spec st
  rw [Mark.all_append]
  refine Session.Sealed.trans ⟨ha.course, ?_⟩ h
  rcases ha.announced with hev | ⟨tail, hev, htail⟩
  · rw [hev]
    exact .of_not_announced (by simp)
  · rw [hev]
    refine .of_announced htail fun hc out hw => ?_
    rw [attempt_refused hw hc] at he
    cases he

/-- An attempt that meets trouble, with the end of its directive. -/
theorem sealed_trouble {t : Trouble} (he : (a.attempt st).error = some t) :
    Session.Sealed st.session
      (Mark.all ((a.attempt st).events ++ (t.conclude (a.attempt st).state).events))
      (t.conclude (a.attempt st).state).stage.session := by
  have ha := a.attempt_spec st
  have hquiet := t.conclude_announces (a.attempt st).state
  rw [Mark.all_append]
  refine ⟨ha.course.trans (t.conclude_course _), ?_⟩
  rcases ha.announced with hev | ⟨tail, hev, htail⟩
  · rw [hev]
    exact .of_not_announced hquiet
  · rw [hev]
    refine .of_announced (fun m hm => ?_) fun hc out hw => ?_
    · rcases List.mem_append.1 hm with hm | hm
      · exact htail m hm
      · exact hquiet m hm
    · rw [attempt_refused hw hc] at he hev ⊢
      cases he
      cases hev
      exact ⟨_, [], rfl, rfl⟩

end Action

namespace Directive

/-- Stretches, and directives carried out in one go, make sealed courses of their sessions. -/
theorem stretch_sealed (acts : List Action) (st : Stage) :
    Session.Sealed st.session (Mark.all (advance acts st).events) (advance acts st).stage.session
      ∧ Session.Sealed st.session (Mark.all (complete acts st).events)
          (complete acts st).stage.session :=
  stretch_keeps (R := fun st events st' => Session.Sealed st.session (Mark.all events) st'.session)
    (fun st => .refl st.session) Action.sealed_go Action.sealed_trouble acts st

theorem nothingToDo_sealed (s : Session) : Session.Sealed s [.seen (.log .nothingToDo)] s :=
  (Session.course_still rfl rfl rfl id (by simp [Mark.isOutput, Mark.tearsDown])).sealed
    (by simp [Mark.announces])

theorem begin_sealed (d : Directive) (st : Stage) :
    Session.Sealed st.session (Mark.all (begin d st).events) (begin d st).stage.session := by
  rw [begin]
  split
  · exact nothingToDo_sealed st.session
  · exact (stretch_sealed d st).1

theorem execute_sealed (d : Directive) (st : Stage) :
    Session.Sealed st.session (Mark.all (execute d st).events) (execute d st).stage.session := by
  rw [execute]
  split
  · exact nothingToDo_sealed st.session
  · exact (stretch_sealed d st).2

end Directive

end ScriptedServer
