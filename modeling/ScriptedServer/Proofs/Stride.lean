import ScriptedServer.Proofs.Lifetime

/-!
What a turn of a connection is made of. `Connection.Stride` lists the smallest things that can happen to
a connection in a step, each with the conditions under which it happens, what is recorded of it and what
it makes of the connection; a turn is a sequence of them (`Connection.Strides`). So a property of a
connection and its history holds behind every turn once every single stride keeps it. The order is that
of the record, in which the end of the inbound side comes before what is read in front of it.
-/

namespace ScriptedServer
namespace Connection

/-- How the handling of a connection ends that is released without a fault. -/
def outcome (c : Connection) : Task := c.job.fault?.elim .done .failed

theorem outcome_ne_running (c : Connection) : c.outcome ≠ .running := by
  rw [outcome]
  cases c.job.fault? <;> nofun

/-- The smallest things that happen to a connection in step `s`. -/
inductive Stride (s : Step) (c : Connection) : List Mark → Connection → Prop
  | setFault {n : Nat} {point : FailPoint} {f : Option Fault} (hs : s = .setFault n point f) :
      Stride s c [] { c with session.faults := c.session.faults.set f point }
  | take : Stride s c [] { c with session.consumed := true }
  | hear (piece : List UInt8) (hr : c.task = .running) :
      Stride s c [.seen (receivedLine piece)] c
  | begin (g : Gate) (d : Directive) (hr : c.task = .running) (hj : c.job = .none)
      (hc : c.session.closing = false) :
      Stride s c (Mark.all (c.work g d.begin).events) (c.work g d.begin).connection
  | resume (g : Gate) {left : List Action} (hj : c.job = .asleep left) :
      Stride s c (Mark.all (c.work g (Directive.advance left)).events)
        (c.work g (Directive.advance left)).connection
  | refuse (hr : c.task = .running) (hj : c.job = .none) (hc : c.session.closing = false)
      (hf : c.session.faults.close = none) :
      Stride s c [.seen (.log .requestIncorrect), .seen .close] { c with session.closing := true }
  | refuseFailed {f : Fault} (hr : c.task = .running) (hj : c.job = .none)
      (hc : c.session.closing = false) (hf : c.session.faults.close = some f)
      (he : f.isExternal = true) :
      Stride s c [.seen (.log .requestIncorrect), .seen (.log (.readFailed c.session.peer f))] c
  | refuseBroken {f : Fault} (hr : c.task = .running) (hj : c.job = .none)
      (hc : c.session.closing = false) (hf : c.session.faults.close = some f)
      (he : f.isExternal = false) :
      Stride s c [.seen (.log .requestIncorrect)] { c with task := .failed f }
  | eof (hi : c.inboundOpen = true) : Stride s c [.eof] { c with inboundOpen := false }
  | lose {n : Nat} {f : Fault} (hs : s = .reset n f) (hi : c.inboundOpen = true)
      (hr : c.task = .running) (he : f.isExternal = true) :
      Stride s c [.reset, .seen (.log (.readFailed c.session.peer f))]
        { c with session := c.session.lose, inboundOpen := false }
  | loseBroken {n : Nat} {f : Fault} (hs : s = .reset n f) (hi : c.inboundOpen = true)
      (hr : c.task = .running) (he : f.isExternal = false) :
      Stride s c [.reset]
        { c with session := c.session.lose, inboundOpen := false, task := .failed f }
  | loseOver (hi : c.inboundOpen = true) (hr : c.task ≠ .running) :
      Stride s c [.reset] { c with session := c.session.lose, inboundOpen := false }
  | tear (hc : c.session.closing = true) : Stride s c [] { c with inboundOpen := false }
  | release (hr : c.task = .running) (hj : c.job.isAsleep = false) (hc : c.session.closing = true) :
      Stride s c [.seen .waitClosed, .seen (.log (.closed c.session.peer))]
        { c with task := c.outcome }
  | hangUp (hr : c.task = .running) (hj : c.job.isAsleep = false) (hc : c.session.closing = false)
      (hf : c.session.faults.close = none) (hi : c.inboundOpen = false) :
      Stride s c [.seen .close, .seen .waitClosed, .seen (.log (.closed c.session.peer))]
        { c with session.closing := true, task := c.outcome }
  | unreleased {f : Fault} (hr : c.task = .running) (hj : c.job.isAsleep = false)
      (hc : c.session.closing = false) (hf : c.session.faults.close = some f) :
      Stride s c [] { c with task := .failed f }
  | drop (hs : s = .close) (hr : c.task = .running) (ha : c.AtRest)
      (hf : c.session.faults.abort = none) :
      Stride s c [.seen .abort] { c with session.closing := true }

/-- Strides one after the other. -/
inductive Strides (s : Step) : Connection → List Mark → Connection → Prop
  | refl (c : Connection) : Strides s c [] c
  | cons {c c' c'' : Connection} {marks more : List Mark} (h : Stride s c marks c')
      (h' : Strides s c' more c'') : Strides s c (marks ++ more) c''

variable {s : Step} {c c' c'' : Connection} {g : Gate} {marks more : List Mark}
  {directive : Option Directive}

theorem Stride.strides (h : Stride s c marks c') : Strides s c marks c' := by
  have hone := Strides.cons h (.refl c')
  rwa [List.append_nil] at hone

theorem Strides.trans (h : Strides s c marks c') (h' : Strides s c' more c'') :
    Strides s c (marks ++ more) c'' := by
  induction h with
  | refl => exact h'
  | cons hstride _ ih =>
    rw [List.append_assoc]
    exact .cons hstride (ih h')

/-! ### The end of the handling -/

theorem finish_of_closing (hc : c.session.closing = true) :
    c.finish = ({ c with task := c.outcome }, [.waitClosed, .log (.closed c.session.peer)]) := by
  simp only [finish, Session.release, hc, if_true]
  rfl

theorem finish_of_open (hc : c.session.closing = false) (hf : c.session.faults.close = none) :
    c.finish = ({ c with session.closing := true, task := c.outcome },
      [.close, .waitClosed, .log (.closed c.session.peer)]) := by
  simp only [finish, Session.release, Session.hangUp, hc, hf, Bool.false_eq_true, if_false]
  rfl

theorem finish_of_fault (hc : c.session.closing = false) {f : Fault}
    (hf : c.session.faults.close = some f) : c.finish = ({ c with task := .failed f }, []) := by
  simp only [finish, Session.release, Session.hangUp, hc, hf, Bool.false_eq_true, if_false]

/-- The handling ends where nothing more comes in, or where hanging up has just failed. -/
theorem leave_strides (s : Step) (h : c.inboundOpen = false ∨ c.session.faults.close ≠ none) :
    Strides s c (Mark.all c.leave.2) c.leave.1 := by
  rw [leave]
  split
  · rename_i hl
    have hj : c.job.isAsleep = false := by simpa using hl.2
    cases hc : c.session.closing with
    | true =>
      rw [finish_of_closing hc]
      exact (Stride.release hl.1 hj hc).strides
    | false =>
      cases hf : c.session.faults.close with
      | some f =>
        rw [finish_of_fault hc hf]
        exact (Stride.unreleased hl.1 hj hc hf).strides
      | none =>
        rw [finish_of_open hc hf]
        exact (Stride.hangUp hl.1 hj hc hf (h.resolve_right fun hn => hn hf)).strides
  · exact .refl c

theorem settle_strides (s : Step) (c : Connection) : Strides s c (Mark.all c.settle.2) c.settle.1 := by
  have hin : Strides s c [] { c with inboundOpen := c.inboundOpen && !c.session.closing } := by
    cases hc : c.session.closing with
    | true =>
      rw [Bool.not_true, Bool.and_false]
      exact (Stride.tear hc).strides
    | false =>
      rw [Bool.not_false, Bool.and_true]
      exact .refl c
  rw [settle]
  split
  · exact hin
  · rename_i hi
    exact hin.trans (leave_strides s (.inl (by simpa using hi)))

theorem rest_after (t : Turn) (events : List Event) : rest (t.after events) = (rest t).after events := by
  simp [rest, Turn.after]

theorem rest_strides (marks : List Mark) {t : Turn}
    (h : Strides s c (marks ++ Mark.all t.events) t.connection) :
    Strides s c (marks ++ Mark.all (rest t).events) (rest t).connection := by
  rw [rest, Mark.all_append, ← List.append_assoc]
  exact h.trans (settle_strides s t.connection)

/-! ### Reading -/

theorem hear_strides (s : Step) (c : Connection) (hr : c.task = .running)
    (ps : List (List UInt8)) :
    Strides s c (Mark.all (ps.map receivedLine)) c := by
  induction ps with
  | nil => exact .refl c
  | cons p ps ih => exact .cons (.hear p hr) ih

/-- A payload without a directive. -/
theorem refuse_strides (s : Step) (c : Connection) (hr : c.task = .running) (hj : c.job = .none)
    (hc : c.session.closing = false) (g : Gate) (ps : List (List UInt8)) :
    Strides s c (.seen (.log .requestIncorrect) :: Mark.all (c.refuse g (ps.map receivedLine)).events)
      (c.refuse g (ps.map receivedLine)).connection := by
  cases hf : c.session.faults.close with
  | none =>
    simp only [Connection.refuse, Session.hangUp, hf]
    exact .cons (.refuse hr hj hc hf) (hear_strides s { c with session.closing := true } hr ps)
  | some f =>
    simp only [Connection.refuse, Session.hangUp, hf, breakOff, hr]
    cases he : f.isExternal with
    | true => exact .cons (.refuseFailed hr hj hc hf he) (leave_strides s (.inr (by simp [hf])))
    | false => exact (Stride.refuseBroken hr hj hc hf he).strides

/-- Where nothing was taken yet, nothing has begun. -/
theorem read_strides (s : Step) (hr : c.task = .running) (hc : c.session.closing = false)
    (hj : c.session.consumed = false → c.job = .none) (g : Gate) (data : List UInt8) :
    Strides s c (Mark.all (c.read g data).events) (c.read g data).connection := by
  cases hp : pieces data with
  | nil =>
    rw [read_nothing hp]
    exact .refl c
  | cons first others =>
    cases hk : c.session.consumed with
    | true =>
      rw [read_consumed hp hk]
      exact hear_strides s c hr (first :: others)
    | false =>
      let b : Connection := { c with session.consumed := true }
      have hrb : b.task = .running := hr
      have hjb : b.job = .none := hj hk
      have hcb : b.session.closing = false := hc
      have htaken : Strides s c [] b := Stride.take.strides
      cases hd : Directive.ofBytes? first with
      | none =>
        rw [read_refused hp hk hd]
        exact (htaken.trans (Stride.hear first hrb).strides).trans
          (refuse_strides s b hrb hjb hcb g others)
      | some d =>
        rw [read_begun hp hk hd, Turn.after, Mark.all_append]
        exact (htaken.trans (hear_strides s b hrb (first :: others))).trans
          (Stride.begin g d hrb hjb hcb).strides

theorem leave_withInbound (c : Connection) (isOpen : Bool) :
    leave { c with inboundOpen := isOpen } = ({ c.leave.1 with inboundOpen := isOpen }, c.leave.2) := by
  simp only [leave, finish]
  split
  · cases c.session.release.error <;> rfl
  · rfl

theorem breakOff_withInbound (c : Connection) (f : Fault) (isOpen : Bool) :
    breakOff { c with inboundOpen := isOpen } f =
      ({ (c.breakOff f).1 with inboundOpen := isOpen }, (c.breakOff f).2) := by
  simp only [breakOff, leave_withInbound]
  split
  · rfl
  · split <;> rfl

theorem refuse_withInbound (c : Connection) (g : Gate) (others : List Event) (isOpen : Bool) :
    refuse { c with inboundOpen := isOpen } g others =
      { c.refuse g others with
        connection := { (c.refuse g others).connection with inboundOpen := isOpen } } := by
  simp only [refuse, breakOff_withInbound]
  cases c.session.hangUp.error <;> rfl

/-- Reading does not look at whether more may come in. -/
theorem read_withInbound (c : Connection) (g : Gate) (data : List UInt8) (isOpen : Bool) :
    read { c with inboundOpen := isOpen } g data =
      { c.read g data with
        connection := { (c.read g data).connection with inboundOpen := isOpen } } := by
  let b : Connection := { c with inboundOpen := isOpen }
  show b.read g data = _
  cases hp : pieces data with
  | nil => rw [read_nothing hp, read_nothing hp]
  | cons first others =>
    cases hk : c.session.consumed with
    | true => rw [read_consumed hp hk, read_consumed (c := b) hp hk]
    | false =>
      cases hd : Directive.ofBytes? first with
      | some d =>
        rw [read_begun hp hk hd, read_begun (c := b) hp hk hd]
        rfl
      | none =>
        rw [read_refused hp hk hd, read_refused (c := b) hp hk hd]
        exact congrArg (Turn.after · _)
          (refuse_withInbound { c with session.consumed := true } g _ isOpen)

/-! ### Whole turns -/

/-- What comes in is read as it would be behind the end of the inbound side. -/
theorem receive_eq (c : Connection) (directive : Option Directive) (g : Gate) (data : List UInt8)
    (eof : Bool) :
    let b : Connection := { c with inboundOpen := c.inboundOpen && !eof }
    c.receive directive g data eof =
      rest (if directive.isSome ∨ b.task ≠ .running then { connection := b, gate := g }
        else b.read g data) := by
  intro b
  rw [receive]
  split
  · rfl
  · rw [read_inboundOpen]
    exact congrArg rest (read_withInbound c g data _).symm

theorem receive_strides (s : Step) (hc : c.session.closing = false) (hb : c.Begun directive)
    (g : Gate) (data : List UInt8) (eof : Bool)
    (h : Strides s c marks { c with inboundOpen := c.inboundOpen && !eof }) :
    Strides s c (marks ++ Mark.all (c.receive directive g data eof).events)
      (c.receive directive g data eof).connection := by
  rw [receive_eq]
  split
  · exact rest_strides marks (by simpa using h)
  · rename_i hread
    rw [not_or, Decidable.not_not] at hread
    refine rest_strides marks (h.trans (read_strides s hread.2 hc (fun hk => ?_) g data))
    exact hb.resolve_right (not_or.2 ⟨hread.1, by rw [hk]; decide⟩)

/-- A connection that is dropped while it is handled. -/
theorem drop_strides (hs : s = .close) (hr : c.task = .running) (ha : c.AtRest)
    (hf : c.session.faults.abort = none) (g : Gate) :
    Strides s c (Mark.all (c.drop g).events) (c.drop g).connection := by
  have hdropped : Strides s c ([] ++ Mark.all c.session.abort.events)
      { c with session := c.session.abort.state } := by
    simp only [Session.abort, hf]
    exact (Stride.drop hs hr ha hf).strides
  exact rest_strides [] hdropped

theorem reset_strides {n : Nat} {f : Fault} (hs : s = .reset n f) (hi : c.inboundOpen = true)
    (g : Gate) : Strides s c (.reset :: Mark.all (c.reset g f).events) (c.reset g f).connection := by
  let b : Connection := { c with session := c.session.lose, inboundOpen := false }
  have hbroken : Strides s c ([.reset] ++ Mark.all (b.breakOff f).2) (b.breakOff f).1 := by
    by_cases hr : c.task = .running
    · rw [breakOff, if_neg (Decidable.not_not.2 hr)]
      cases he : f.isExternal with
      | true => exact (Stride.lose hs hi hr he).strides.trans (leave_strides s (.inl rfl))
      | false => exact (Stride.loseBroken hs hi hr he).strides
    · rw [breakOff_over (c := b) hr]
      exact (Stride.loseOver hi hr).strides
  exact rest_strides [.reset] hbroken

/-- A turn that a step brings about, with what the step brings in front. -/
theorem reaction_strides {t : Turn} (h : s.reaction directive g c = some t) (hc : c.AtRest)
    (hb : c.Begun directive) : Strides s c (s.brings ++ Mark.all t.events) t.connection := by
  cases s with
  | receive n data eof =>
    obtain ⟨hi, ⟨⟩⟩ := Option.ite_none_right_eq_some.1 h
    refine receive_strides _ (hc.open_of_inboundOpen hi) hb g data eof ?_
    cases eof with
    | true => simpa [Step.brings] using (Stride.eof hi).strides
    | false => simpa [Step.brings] using Strides.refl c
  | endInbound n =>
    obtain ⟨hi, ⟨⟩⟩ := Option.ite_none_right_eq_some.1 h
    exact rest_strides [.eof] (Stride.eof hi).strides
  | reset n f =>
    obtain ⟨hi, ⟨⟩⟩ := Option.ite_none_right_eq_some.1 h
    exact reset_strides rfl hi g
  | wake n =>
    rw [Step.reaction] at h
    split at h
    · rename_i left hj
      cases h
      exact rest_strides [] (Stride.resume g hj).strides
    · cases h
  | setFault n point f =>
    cases h
    exact (Stride.setFault rfl).strides
  | start | shutdown | serve | close | connect | setCloseFault => cases h

/-- A connection is accepted without a label, and then nothing is seen of it, or it is announced and
strides on from there. -/
theorem accept_strides (s : Step) (peer : List Value) (faults : FaultPlan)
    (directive : Option Directive) (g : Gate) :
    let t := accept peer faults directive g
    (∃ f, peerLabel peer = .error f
      ∧ t.connection = { session := { peer := [], faults }, task := .failed f } ∧ t.events = [])
    ∨ ∃ label marks, peerLabel peer = .ok label
      ∧ Mark.all t.events = .seen (.log (.connected label)) :: marks
      ∧ Strides s { session := { peer := label, faults } } marks t.connection := by
  intro t
  simp only [t, accept]
  cases hp : peerLabel peer with
  | error f => exact .inl ⟨f, rfl, rfl, rfl⟩
  | ok label =>
    simp only [welcome, rest_after]
    refine .inr ⟨label, _, rfl, rfl, ?_⟩
    cases directive with
    | none =>
      exact rest_strides [] (t := { connection := { session := { peer := label, faults } }, gate := g })
        (.refl _)
    | some d => exact rest_strides [] (Stride.begin g d rfl rfl rfl).strides

end Connection
end ScriptedServer
